import Columnar.Buffer.ScalarBuffer
import Columnar.Proofs.Buffer.ByteStrings
import Columnar.Proofs.Buffer.Cells
import Columnar.Proofs.Conformance

/-!
# Scalar buffers as lists

The buffer of a scalar column is the list of the scalars written to it, in the form in which the
column keeps them. Writing, filling and cutting are told on that list for every scalar type at once,
and sealing gives the same list back.
-/

namespace Columnar

/-- What is read from bytes as a text has just these bytes. -/
theorem fromUTF8?_eq_some_iff {bytes : ByteArray} {text : String} :
    String.fromUTF8? bytes = some text ↔ text.toUTF8 = bytes := by
  unfold String.fromUTF8?
  constructor
  · intro read
    split at read
    · cases read
      rfl
    · cases read
  · rintro rfl
    exact dif_pos text.isValidUTF8

/-- Texts that are read from byte strings have just these bytes. -/
theorem mapM_fromUTF8?_eq_some_iff {values : List ByteArray} {texts : List String} :
    values.mapM String.fromUTF8? = some texts ↔ texts.map String.toUTF8 = values := by
  induction values generalizing texts with
  | nil =>
    rw [List.map_eq_nil_iff]
    exact ⟨fun read => (Option.some.inj read).symm, fun none => none ▸ rfl⟩
  | cons value rest inductionHypothesis =>
    rw [List.mapM_cons, List.map_eq_cons_iff, Option.bind_eq_bind, Option.bind_eq_some_iff]
    refine exists_congr fun text => ?_
    rw [fromUTF8?_eq_some_iff, Option.bind_eq_bind, Option.bind_eq_some_iff]
    constructor
    · rintro ⟨here, others, later, read⟩
      exact ⟨others, (Option.some.inj read).symm, here, inductionHypothesis.mp later⟩
    · rintro ⟨others, rfl, here, later⟩
      exact ⟨here, others, inductionHypothesis.mpr later, rfl⟩

/-- The bytes of texts, one after the other, are those of the texts joined. -/
theorem joined_toUTF8 (texts : List String) :
    joined (texts.map String.toUTF8) = (String.join texts).toUTF8 := by
  induction texts with
  | nil => rfl
  | cons text rest inductionHypothesis =>
    rw [List.map_cons, joined, inductionHypothesis, String.join_cons]
    exact String.toByteArray_append.symm

/-- Texts joined are cut at a character wherever one of them ends. -/
theorem isValid_of_mem_offsetsOf {texts : List String} {offset : Nat}
    (member : offset ∈ offsetsOf ((texts.map String.toUTF8).map ByteArray.size)) :
    String.Pos.Raw.isValid (String.join texts) ⟨offset⟩ := by
  obtain ⟨index, inside, rfl⟩ := List.getElem_of_mem member
  rw [length_offsetsOf] at inside
  have sum : (offsetsOf ((texts.map String.toUTF8).map ByteArray.size))[index]? =
      some (((texts.map String.toUTF8).map ByteArray.size).take index).sum :=
    getElem?_offsetsOf (Nat.le_of_lt_succ inside)
  obtain ⟨_, sum⟩ := List.getElem?_eq_some_iff.mp sum
  rw [String.Pos.Raw.isValid_eq_true_iff, String.Pos.Raw.isValid_iff_exists_append]
  refine ⟨String.join (texts.take index), String.join (texts.drop index), ?_, ?_⟩
  · rw [← String.join_append, List.take_append_drop]
  · rw [sum, ← List.map_take, ← List.map_take, ← size_joined, joined_toUTF8]
    rfl

namespace ByteStrings

/-- Byte strings are sealed as they are. -/
theorem toBytes?_ofList (capacity : Nat) (values : List ByteArray) :
    (ofList capacity values).toBytes? = .ok values.toArray := by
  have ordered : disordered (ofList capacity values).offsets = false := disordered_offsetsOf _
  have within : ¬(ofList capacity values).data.size < (ofList capacity values).lastOffset := by
    rw [lastOffset_ofList, ofList, size_joined]
    exact Nat.lt_irrefl _
  rw [toBytes?, ordered, if_neg Bool.false_ne_true, if_neg within, values_ofList]

/-- Texts are sealed as they are: their bytes joined are those of a text, which is cut only between
them. -/
theorem toTexts?_ofList (capacity : Nat) (texts : List String) :
    (ofList capacity (texts.map String.toUTF8)).toTexts? = .ok texts.toArray := by
  have ordered : disordered (ofList capacity (texts.map String.toUTF8)).offsets = false :=
    disordered_offsetsOf _
  have whole : String.fromUTF8? (ofList capacity (texts.map String.toUTF8)).data =
      some (String.join texts) := by
    rw [fromUTF8?_eq_some_iff, ofList, joined_toUTF8]
  have cuts : (ofList capacity (texts.map String.toUTF8)).offsets.find?
      (fun offset => !String.Pos.Raw.isValid (String.join texts) ⟨offset⟩) = none := by
    rw [Array.find?_eq_none]
    intro offset member
    rw [isValid_of_mem_offsetsOf (List.mem_toArray.mp member)]
    exact Bool.false_ne_true
  have read : (texts.map String.toUTF8).toArray.mapM String.fromUTF8? = some texts.toArray := by
    rw [List.mapM_toArray, mapM_fromUTF8?_eq_some_iff.mpr rfl]
    rfl
  rw [toTexts?, ordered, if_neg Bool.false_ne_true]
  simp only [whole, cuts, values_ofList, read]

end ByteStrings

namespace Scalar

/-- The integer that a scalar is, or zero. -/
def toInt : Scalar → Int32
  | .int value => value
  | _ => 0

/-- The long that a scalar is, or zero. -/
def toLong : Scalar → Int64
  | .long value => value
  | _ => 0

/-- The double that a scalar is, or zero. -/
def toDouble : Scalar → Double
  | .double value => value
  | _ => .zero

/-- The truth value that a scalar is, or false. -/
def toBool : Scalar → Bool
  | .bool value => value
  | _ => false

/-- The text that a scalar is, or the empty one. -/
def toText : Scalar → String
  | .string value => value
  | _ => ""

/-- The bytes that a scalar is, or none. -/
def toBytes : Scalar → ByteArray
  | .bytes value => value
  | _ => .empty

/-- The bytes that a text column stores for a scalar. -/
def textBytes (value : Scalar) : ByteArray :=
  value.toText.toUTF8

end Scalar

namespace Leaf

/-- The sealed values of a list of scalars of one type. -/
def ofScalars (type : ScalarType) (values : List Scalar) : Leaf :=
  match type with
  | .integer => .int (values.map Scalar.toInt).toArray
  | .long => .long (values.map Scalar.toLong).toArray
  | .double => .double (values.map Scalar.toDouble).toArray
  | .boolean => .bool (values.map Scalar.toBool).toArray
  | .string => .string (values.map Scalar.toText).toArray
  | .bytes => .bytes (values.map Scalar.toBytes).toArray

@[simp] theorem type_ofScalars (type : ScalarType) (values : List Scalar) :
    (ofScalars type values).type = type := by
  cases type <;> rfl

@[simp] theorem length_ofScalars (type : ScalarType) (values : List Scalar) :
    (ofScalars type values).length = values.length := by
  cases type <;> simp [ofScalars, length]

/-- A scalar of the type is found again at its index. -/
theorem get?_ofScalars {type : ScalarType} {values : List Scalar} {index : Nat} {value : Scalar}
    (found : values[index]? = some value) (typed : value.type = type) :
    (ofScalars type values).get? index = some value := by
  subst typed
  cases value <;> simp [Scalar.type, ofScalars, get?, found, Scalar.toInt, Scalar.toLong,
    Scalar.toDouble, Scalar.toBool, Scalar.toText, Scalar.toBytes]

end Leaf

namespace ScalarType

/-- What a write of the last of the given scalars is refused for. -/
def writeShortage? (type : ScalarType) (capacity : Nat) (values : List Scalar) : Option Shortage :=
  match type with
  | .integer => Cells.shortage? Int32 capacity values.length
  | .long => Cells.shortage? Int64 capacity values.length
  | .double => Cells.shortage? Double capacity values.length
  | .boolean => Cells.shortage? Bool capacity values.length
  | .string => ByteStrings.writeShortage? capacity (values.map Scalar.textBytes)
  | .bytes => ByteStrings.writeShortage? capacity (values.map Scalar.toBytes)

/-- The values of a column of a type after a write. Numbers and truth values are replaced; of texts
and byte strings, what is there and behind it is dropped. -/
def writeAt (type : ScalarType) : List Scalar → Nat → Scalar → List Scalar :=
  match type with
  | .integer | .long | .double | .boolean => replaceAt type.blank
  | .string | .bytes => cutAt type.blank

/-- A write behind finished values puts the value there, whatever was being written. -/
theorem writeAt_length (type : ScalarType) (values : List Scalar) (last : Option Scalar)
    (value : Scalar) :
    type.writeAt (values ++ last.toList) values.length value = values ++ [value] := by
  cases type with
  | string => exact cutAt_length _ values last value
  | bytes => exact cutAt_length _ values last value
  | _ => exact replaceAt_length _ values last value

/-- Whether the values of a type are told apart by offsets. -/
def hasOffsets : ScalarType → Bool
  | .string | .bytes => true
  | .integer | .long | .double | .boolean => false

/-- What padding to the given number of values is refused for. -/
def padShortage? (type : ScalarType) (capacity count : Nat) : Option Shortage :=
  match type with
  | .integer => Cells.shortage? Int32 capacity count
  | .long => Cells.shortage? Int64 capacity count
  | .double => Cells.shortage? Double capacity count
  | .boolean => Cells.shortage? Bool capacity count
  | .string | .bytes => shortage? ((count + 1) * offsetBytes) capacity

end ScalarType

private theorem guarded_map {State Fault State' Fault' : Type} (wrap : State → State')
    (fail : Fault → Fault') (fault : Option Fault) (before after : State) :
    (wrap (guarded fault before after).1, (guarded fault before after).2.map fail) =
      guarded (fault.map fail) (wrap before) (wrap after) := by
  cases fault <;> rfl

private theorem Cells.set_wrapped {α : Type} [Cell α] (wrap : Cells α → ScalarBuffer)
    (read : Scalar → α) (capacity : Nat) (values : List Scalar) (index : Nat) (kept : Scalar)
    {blank : Scalar} (reads : read blank = Cell.blank) :
    let outcome := (ofList capacity (values.map read)).set index (read kept)
    (wrap outcome.1, outcome.2.map WriteError.shortage) =
      guarded ((shortage? α capacity (replaceAt blank values index kept).length).map .shortage)
        (wrap (ofList capacity (values.map read)))
        (wrap (ofList capacity ((replaceAt blank values index kept).map read))) := by
  simp only [set_ofList, guarded_map, map_replaceAt, length_replaceAt, reads, List.length_map]

private theorem ByteStrings.set_wrapped (wrap : ByteStrings → ScalarBuffer)
    (read : Scalar → ByteArray) (capacity : Nat) {values : List Scalar} {index : Nat}
    (exact : Exact (values.length + 1) (index + 1)) (kept : Scalar) {blank : Scalar}
    (reads : read blank = .empty) :
    let outcome := (ofList capacity (values.map read)).set index (read kept)
    (wrap outcome.1, outcome.2.map WriteError.shortage) =
      guarded
        ((writeShortage? capacity ((cutAt blank values index kept).map read)).map .shortage)
        (wrap (ofList capacity (values.map read)))
        (wrap (ofList capacity ((cutAt blank values index kept).map read))) := by
  rw [← List.length_map read] at exact
  simp only [set_ofList capacity exact, guarded_map, map_cutAt, reads]

private theorem Cells.fill_wrapped {α : Type} [Cell α] (wrap : Cells α → ScalarBuffer)
    (read : Scalar → α) (capacity count : Nat) (values : List Scalar) {blank : Scalar}
    (reads : read blank = Cell.blank) :
    let outcome := (ofList capacity (values.map read)).fill count
    (wrap outcome.1, outcome.2) =
      guarded (if values.length < count then shortage? α capacity count else none)
        (wrap (ofList capacity (values.map read)))
        (wrap (ofList capacity ((padTo blank count values).map read))) := by
  simp only [fill_ofList, List.length_map, map_padTo, reads]
  split <;> cases shortage? α capacity count <;> rfl

private theorem ByteStrings.fill_wrapped (wrap : ByteStrings → ScalarBuffer)
    (read : Scalar → ByteArray) (capacity : Nat) {count : Nat} {values : List Scalar}
    (exact : Exact (values.length + 1) count) {blank : Scalar} (reads : read blank = .empty) :
    let outcome := (ofList capacity (values.map read)).fill count
    (wrap outcome.1, outcome.2) =
      guarded
        (if values.length < count then Columnar.shortage? ((count + 1) * offsetBytes) capacity
          else none)
        (wrap (ofList capacity (values.map read)))
        (wrap (ofList capacity ((padTo blank count values).map read))) := by
  rw [← List.length_map read] at exact
  simp only [fill_ofList capacity exact, List.length_map, map_padTo, reads]
  split <;> cases Columnar.shortage? ((count + 1) * offsetBytes) capacity <;> rfl

namespace ScalarBuffer

/-- The buffer that holds the scalars of a list. -/
def ofScalars (type : ScalarType) (capacity : Nat) (values : List Scalar) : ScalarBuffer :=
  match type with
  | .integer => .int (.ofList capacity (values.map Scalar.toInt))
  | .long => .long (.ofList capacity (values.map Scalar.toLong))
  | .double => .double (.ofList capacity (values.map Scalar.toDouble))
  | .boolean => .bool (.ofList capacity (values.map Scalar.toBool))
  | .string => .string (.ofList capacity (values.map Scalar.textBytes))
  | .bytes => .bytes (.ofList capacity (values.map Scalar.toBytes))

@[simp] theorem ofScalars_nil (type : ScalarType) (capacity : Nat) :
    ofScalars type capacity [] = ofType type capacity := by
  cases type <;> rfl

@[simp] theorem type_ofScalars (type : ScalarType) (capacity : Nat) (values : List Scalar) :
    (ofScalars type capacity values).type = type := by
  cases type <;> rfl

@[simp] theorem capacity_ofScalars (type : ScalarType) (capacity : Nat) (values : List Scalar) :
    (ofScalars type capacity values).capacity = capacity := by
  cases type <;> rfl

@[simp] theorem count_ofScalars (type : ScalarType) (capacity : Nat) (values : List Scalar) :
    (ofScalars type capacity values).count = values.length := by
  cases type <;> simp [ofScalars, count]

/-- Cutting a buffer keeps the first scalars. -/
@[simp] theorem truncate_ofScalars (type : ScalarType) (capacity count : Nat)
    (values : List Scalar) :
    (ofScalars type capacity values).truncate count =
      ofScalars type capacity (values.take count) := by
  cases type <;> simp [ofScalars, truncate, List.map_take]

/-- Dropping all scalars leaves the buffer of none. -/
theorem reset_eq (buffer : ScalarBuffer) :
    buffer.reset = ofScalars buffer.type buffer.capacity [] := by
  cases buffer <;> rfl

@[simp] theorem reset_ofScalars (type : ScalarType) (capacity : Nat) (values : List Scalar) :
    (ofScalars type capacity values).reset = ofScalars type capacity [] := by
  cases type <;> rfl

/-- Writing puts the scalar where a column of the type writes it, unless there is no room. -/
theorem set_ofScalars {type : ScalarType} {value kept : Scalar}
    (keeps : type.keep? value = some kept) (capacity : Nat) {values : List Scalar} {index : Nat}
    (exact : type.hasOffsets → Exact (values.length + 1) (index + 1)) :
    (ofScalars type capacity values).set index value =
      guarded ((type.writeShortage? capacity (type.writeAt values index kept)).map .shortage)
        (ofScalars type capacity values)
        (ofScalars type capacity (type.writeAt values index kept)) := by
  cases type <;> cases value <;> simp only [ScalarType.keep?, reduceCtorEq] at keeps <;>
    obtain rfl := Option.some.inj keeps
  case integer.int value =>
    exact Cells.set_wrapped .int Scalar.toInt capacity values index (.int value) rfl
  case long.int value =>
    exact Cells.set_wrapped .long Scalar.toLong capacity values index (.long value.toInt64) rfl
  case long.long value =>
    exact Cells.set_wrapped .long Scalar.toLong capacity values index (.long value) rfl
  case double.double value =>
    exact Cells.set_wrapped .double Scalar.toDouble capacity values index (.double value) rfl
  case boolean.bool value =>
    exact Cells.set_wrapped .bool Scalar.toBool capacity values index (.bool value) rfl
  case string.string value =>
    exact ByteStrings.set_wrapped .string Scalar.textBytes capacity (exact rfl) (.string value) rfl
  case bytes.bytes value =>
    exact ByteStrings.set_wrapped .bytes Scalar.toBytes capacity (exact rfl) (.bytes value) rfl

/-- Writing behind the finished scalars replaces the one that is being written, unless there is no
room. -/
theorem set_ofScalars_length {type : ScalarType} {value kept : Scalar}
    (keeps : type.keep? value = some kept) (capacity : Nat) (values : List Scalar)
    (last : Option Scalar) :
    (ofScalars type capacity (values ++ last.toList)).set values.length value =
      guarded ((type.writeShortage? capacity (values ++ [kept])).map .shortage)
        (ofScalars type capacity (values ++ last.toList))
        (ofScalars type capacity (values ++ [kept])) := by
  have next : Exact ((values ++ last.toList).length + 1) (values.length + 1) := by
    apply exact_of_le
    rw [List.length_append]
    omega
  rw [set_ofScalars keeps capacity fun _ => next, ScalarType.writeAt_length]

/-- A scalar of another type is refused before any room is measured. -/
theorem set_eq_of_keep?_eq_none {type : ScalarType} {value : Scalar}
    (refused : type.keep? value = none) (capacity : Nat) (values : List Scalar) (index : Nat) :
    (ofScalars type capacity values).set index value =
      (ofScalars type capacity values, some (.wrongType type value.type)) := by
  cases type <;> cases value <;> simp [ScalarType.keep?] at refused <;> rfl

/-- Filling pads with blanks, unless there is no room; only what is too short needs any. -/
theorem fill_ofScalars {type : ScalarType} (capacity : Nat) {count : Nat} {values : List Scalar}
    (exact : type.hasOffsets → Exact (values.length + 1) count) :
    (ofScalars type capacity values).fill count =
      guarded (if values.length < count then type.padShortage? capacity count else none)
        (ofScalars type capacity values)
        (ofScalars type capacity (padTo type.blank count values)) := by
  cases type with
  | integer => exact Cells.fill_wrapped .int Scalar.toInt capacity count values rfl
  | long => exact Cells.fill_wrapped .long Scalar.toLong capacity count values rfl
  | double => exact Cells.fill_wrapped .double Scalar.toDouble capacity count values rfl
  | boolean => exact Cells.fill_wrapped .bool Scalar.toBool capacity count values rfl
  | string => exact ByteStrings.fill_wrapped .string Scalar.textBytes capacity (exact rfl) rfl
  | bytes => exact ByteStrings.fill_wrapped .bytes Scalar.toBytes capacity (exact rfl) rfl

/-- Filling up to the scalars there are changes nothing. -/
@[simp] theorem fill_ofScalars_length (type : ScalarType) (capacity : Nat) (values : List Scalar) :
    (ofScalars type capacity values).fill values.length =
      (ofScalars type capacity values, none) := by
  rw [fill_ofScalars capacity fun _ => exact_of_le (Nat.le_succ _), if_neg (Nat.lt_irrefl _),
    padTo_of_le _ (Nat.le_refl _)]
  rfl

/-- Filling by one pads with a blank, unless there is no room. -/
theorem fill_ofScalars_succ (type : ScalarType) (capacity : Nat) (values : List Scalar) :
    (ofScalars type capacity values).fill (values.length + 1) =
      guarded (type.padShortage? capacity (values.length + 1))
        (ofScalars type capacity values) (ofScalars type capacity (values ++ [type.blank])) := by
  rw [fill_ofScalars capacity fun _ => exact_of_le (Nat.le_refl _), if_pos (Nat.lt_succ_self _),
    padTo_succ _ (Nat.le_refl _), padTo_of_le _ (Nat.le_refl _)]

/-- Sealing gives back the scalars of the list. -/
theorem toLeaf?_ofScalars (type : ScalarType) (capacity : Nat) (values : List Scalar) :
    (ofScalars type capacity values).toLeaf? = .ok (Leaf.ofScalars type values) := by
  cases type with
  | string =>
    have texts : values.map Scalar.textBytes = (values.map Scalar.toText).map String.toUTF8 := by
      rw [List.map_map]
      rfl
    rw [ofScalars, texts, toLeaf?, ByteStrings.toTexts?_ofList]
    rfl
  | bytes =>
    rw [ofScalars, toLeaf?, ByteStrings.toBytes?_ofList]
    rfl
  | _ => rfl

end ScalarBuffer

end Columnar
