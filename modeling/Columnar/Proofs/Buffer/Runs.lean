import Columnar.Buffer.Basic
import Columnar.Proofs.Buffer.ScalarBuffer

/-!
# Runs of operations on buffers

A buffer of byte strings holds, after any operations, the list that the accepted ones make: its
offsets rise from zero to the end of its bytes, and the values read between them are those of the
list. Texts that were written as scalars come back from a frozen buffer as they are, since their
bytes are cut only between them.
-/

namespace Columnar

/-- Whether a machine word holds the size of the offsets that an operation asks for. -/
def Operation.Small {α : Type} : Operation α → Prop
  | .set index _ => (index + 2) * offsetBytes < wordRange
  | .fill count => (count + 1) * offsetBytes < wordRange
  | .truncate _ | .reset => True

instance {α : Type} (operation : Operation α) : Decidable operation.Small :=
  match operation with
  | .set _ _ | .fill _ => inferInstanceAs (Decidable (_ < _))
  | .truncate _ | .reset => inferInstanceAs (Decidable True)

namespace ByteStrings

/-- Does one operation. -/
def perform (strings : ByteStrings) : Operation ByteArray → ByteStrings × Option Shortage
  | .set index value => strings.set index value
  | .fill count => strings.fill count
  | .truncate count => (strings.truncate count, none)
  | .reset => (strings.reset, none)

/-- What an operation on a buffer of the values of a list is refused for. -/
def refusal? (capacity : Nat) (values : List ByteArray) : Operation ByteArray → Option Shortage
  | .set index value => writeShortage? capacity (cutAt .empty values index value)
  | .fill count =>
      if values.length < count then Columnar.shortage? ((count + 1) * offsetBytes) capacity
      else none
  | .truncate _ | .reset => none

theorem perform_ofList (capacity : Nat) (values : List ByteArray)
    {operation : Operation ByteArray} (small : operation.Small) :
    (ofList capacity values).perform operation =
      guarded (refusal? capacity values operation) (ofList capacity values)
        (ofList capacity (operation.onList (cutAt .empty) .empty values)) := by
  cases operation with
  | set index value => exact set_ofList capacity (.inr small) value
  | fill count => exact fill_ofList capacity (.inr small)
  | truncate count => exact congrArg (·, none) (truncate_ofList capacity count values)
  | reset => rfl

/-- After any operations a buffer holds the list that the accepted ones make. -/
theorem runOf_perform (capacity : Nat) {operations : List (Operation ByteArray)}
    (small : ∀ operation ∈ operations, operation.Small) :
    runOf perform (empty capacity) operations =
      ofList capacity ((acceptedOf perform (empty capacity) operations).foldl
        (Operation.onList (cutAt .empty) .empty) []) := by
  apply holds_runOf (fun strings values => strings = ofList capacity values)
  · rintro _ values operation member rfl accepted
    rw [perform_ofList capacity values (small operation member)] at accepted ⊢
    exact fst_guarded_of_none accepted
  · rintro _ values operation member shortage rfl refused
    rw [perform_ofList capacity values (small operation member)] at refused ⊢
    exact fst_guarded_of_some refused
  · rfl

end ByteStrings

/-! ### Scalars -/

/-- The form in which a column of a type keeps what an operation writes, if it takes it. -/
def Operation.keep? (type : ScalarType) : Operation Scalar → Option (Operation Scalar)
  | .set index value => (type.keep? value).map (.set index)
  | operation => some operation

theorem Operation.keep?_set {type : ScalarType} {value kept : Scalar}
    (keeps : type.keep? value = some kept) (index : Nat) :
    (Operation.set index value).keep? type = some (.set index kept) := by
  rw [Operation.keep?, keeps, Option.map_some]

namespace ScalarType

/-- What an operation, in the kept form, on a column of the scalars of a list is refused for. -/
def refusal? (type : ScalarType) (capacity : Nat) (values : List Scalar) :
    Operation Scalar → Option Shortage
  | .set index value => type.writeShortage? capacity (type.writeAt values index value)
  | .fill count => if values.length < count then type.padShortage? capacity count else none
  | .truncate _ | .reset => none

/-- What an operation, in the kept form, makes of the scalars of a column. -/
def onList (type : ScalarType) (values : List Scalar) (operation : Operation Scalar) :
    List Scalar :=
  operation.onList type.writeAt type.blank values

/-- What is there after a write was there before, is blank, or was written. -/
theorem mem_writeAt {type : ScalarType} {values : List Scalar} {index : Nat}
    {value item : Scalar} (member : item ∈ type.writeAt values index value) :
    item ∈ values ∨ item = type.blank ∨ item = value := by
  cases type with
  | string => exact mem_cutAt member
  | bytes => exact mem_cutAt member
  | _ => exact mem_replaceAt member

/-- A column of scalars of its type stays one. -/
theorem type_of_mem_onList {type : ScalarType} {operation kept : Operation Scalar}
    (keeps : operation.keep? type = some kept) {values : List Scalar}
    (typed : ∀ value ∈ values, value.type = type) :
    ∀ value ∈ type.onList values kept, value.type = type := by
  intro value member
  cases operation with
  | set index given =>
    obtain ⟨written, keepsValue, rfl⟩ := Option.map_eq_some_iff.mp keeps
    rcases mem_writeAt member with there | rfl | rfl
    · exact typed value there
    · exact type.type_blank
    · exact type_of_keep? keepsValue
  | fill count =>
    obtain rfl := Option.some.inj keeps
    rcases mem_padTo member with there | rfl
    · exact typed value there
    · exact type.type_blank
  | truncate count =>
    obtain rfl := Option.some.inj keeps
    exact typed value (List.mem_of_mem_take member)
  | reset =>
    obtain rfl := Option.some.inj keeps
    cases member

end ScalarType

namespace BufferError

/-- There is not enough room. -/
def overflow (shortage : Shortage) : BufferError :=
  .refused (.shortage shortage)

/-- A scalar of a type is written to a buffer of another type, or of none. -/
def mismatch (held : Option ScalarType) (given : ScalarType) : BufferError :=
  match held with
  | some type => .refused (.wrongType type given)
  | none => .noScalars given

end BufferError

namespace ScalarType

/-- What an operation on a column of the scalars of a list is refused for: for its type if the
column does not take what it writes, else for room. -/
def error? (type : ScalarType) (capacity : Nat) (values : List Scalar) :
    Operation Scalar → Option BufferError
  | .set index value =>
      match type.keep? value with
      | some kept => (type.refusal? capacity values (.set index kept)).map .overflow
      | none => some (.mismatch (some type) value.type)
  | operation => (type.refusal? capacity values operation).map .overflow

theorem error?_of_keep? {type : ScalarType} {operation kept : Operation Scalar}
    (keeps : operation.keep? type = some kept) (capacity : Nat) (values : List Scalar) :
    type.error? capacity values operation =
      (type.refusal? capacity values kept).map .overflow := by
  cases operation with
  | set index value =>
    obtain ⟨written, keepsValue, rfl⟩ := Option.map_eq_some_iff.mp keeps
    rw [error?, keepsValue]
  | _ =>
    obtain rfl := Option.some.inj keeps
    rfl

end ScalarType

namespace Buffer

/-- Does one operation. -/
def perform (buffer : Buffer) : Operation Scalar → Buffer × Option BufferError
  | .set index value => buffer.set index value
  | .fill count => ((buffer.fill count).1, (buffer.fill count).2.map .overflow)
  | .truncate count => (buffer.truncate count, none)
  | .reset => (buffer.reset, none)

/-- An operation that a column takes makes of its scalars what it should, unless it has no room. -/
theorem perform_ofScalars {type : ScalarType} {operation kept : Operation Scalar}
    (keeps : operation.keep? type = some kept) (small : type.hasOffsets → operation.Small)
    (capacity : Nat) (values : List Scalar) :
    (scalar (.ofScalars type capacity values)).perform operation =
      guarded ((type.refusal? capacity values kept).map .overflow)
        (.scalar (.ofScalars type capacity values))
        (.scalar (.ofScalars type capacity (type.onList values kept))) := by
  cases operation with
  | set index value =>
    obtain ⟨written, keepsValue, rfl⟩ := Option.map_eq_some_iff.mp keeps
    simp only [perform, set,
      ScalarBuffer.set_ofScalars keepsValue capacity fun offsets => .inr (small offsets)]
    simp only [ScalarType.refusal?, ScalarType.onList, Operation.onList]
    cases type.writeShortage? capacity (type.writeAt values index written) <;> rfl
  | fill count =>
    obtain rfl := Option.some.inj keeps
    simp only [perform, fill,
      ScalarBuffer.fill_ofScalars capacity fun offsets => .inr (small offsets)]
    simp only [ScalarType.refusal?, ScalarType.onList, Operation.onList]
    split <;> cases type.padShortage? capacity count <;> rfl
  | truncate count =>
    obtain rfl := Option.some.inj keeps
    simp only [perform, truncate, ScalarBuffer.truncate_ofScalars]
    rfl
  | reset =>
    obtain rfl := Option.some.inj keeps
    simp only [perform, reset, ScalarBuffer.reset_ofScalars]
    rfl

/-- A write that a column does not take is refused for its type. -/
theorem perform_ofScalars_of_mismatch {type : ScalarType} {index : Nat} {value : Scalar}
    (refused : type.keep? value = none) (capacity : Nat) (values : List Scalar) :
    (scalar (.ofScalars type capacity values)).perform (.set index value) =
      (.scalar (.ofScalars type capacity values), some (.mismatch (some type) value.type)) := by
  simp only [perform, set, ScalarBuffer.set_eq_of_keep?_eq_none refused]
  rfl

/-- An operation that a column does not take is refused and changes nothing. -/
theorem perform_ofScalars_of_not_kept {type : ScalarType} {operation : Operation Scalar}
    (refused : operation.keep? type = none) (capacity : Nat) (values : List Scalar) :
    ∃ error, (scalar (.ofScalars type capacity values)).perform operation =
      (.scalar (.ofScalars type capacity values), some error) := by
  cases operation with
  | set index value =>
    exact ⟨_, perform_ofScalars_of_mismatch (Option.map_eq_none_iff.mp refused) capacity values⟩
  | _ => cases refused

/-- What an operation on a column of the scalars of a list answers: what the column does not take is
refused for its type, and all else for want of room alone. -/
theorem snd_perform_ofScalars {type : ScalarType} {operation : Operation Scalar}
    (small : type.hasOffsets → operation.Small) (capacity : Nat) (values : List Scalar) :
    ((scalar (.ofScalars type capacity values)).perform operation).2 =
      type.error? capacity values operation := by
  cases keeps : operation.keep? type with
  | some kept =>
    rw [perform_ofScalars keeps small, snd_guarded, ScalarType.error?_of_keep? keeps]
  | none =>
    cases operation with
    | set index value =>
      have refused := Option.map_eq_none_iff.mp keeps
      rw [perform_ofScalars_of_mismatch refused, ScalarType.error?, refused]
    | _ => cases keeps

/-- An operation that a column of another type than the longs accepts is kept as it is. -/
private theorem keep?_of_accepted {type : ScalarType} (other : type ≠ .long) {capacity : Nat}
    {values : List Scalar} {operation : Operation Scalar}
    (accepted : ((scalar (.ofScalars type capacity values)).perform operation).2 = none) :
    operation.keep? type = some operation := by
  cases operation with
  | set index value =>
    cases keeps : type.keep? value with
    | none =>
      rw [perform_ofScalars_of_mismatch keeps] at accepted
      cases accepted
    | some kept => rw [Operation.keep?_set keeps, ScalarType.eq_of_keep? other keeps]
  | _ => rfl

/-- An operation that is refused leaves the scalars of a column. -/
private theorem fst_perform_of_refused {type : ScalarType} {capacity : Nat} {values : List Scalar}
    {operation : Operation Scalar} (small : type.hasOffsets → operation.Small) {error : BufferError}
    (refused : ((scalar (.ofScalars type capacity values)).perform operation).2 = some error) :
    ((scalar (.ofScalars type capacity values)).perform operation).1 =
      .scalar (.ofScalars type capacity values) := by
  cases keeps : operation.keep? type with
  | some kept =>
    rw [perform_ofScalars keeps small] at refused ⊢
    exact fst_guarded_of_some refused
  | none =>
    obtain ⟨_, same⟩ := perform_ofScalars_of_not_kept keeps capacity values
    rw [same]

/-- The buffer is that of the scalars of a list, which are all of its type. -/
def IsColumn (type : ScalarType) (capacity : Nat) (buffer : Buffer) (values : List Scalar) : Prop :=
  buffer = .scalar (.ofScalars type capacity values) ∧ ∀ value ∈ values, value.type = type

theorem isColumn_ofType (type : ScalarType) (capacity : Nat) :
    IsColumn type capacity (.ofType type capacity) [] := by
  refine ⟨?_, nofun⟩
  rw [ScalarBuffer.ofScalars_nil]
  rfl

/-- After any operations a column of another type than the longs holds the scalars that the accepted
ones make. -/
theorem isColumn_runOf (type : ScalarType) (other : type ≠ .long) (capacity : Nat)
    {operations : List (Operation Scalar)} (small : ∀ operation ∈ operations, operation.Small) :
    IsColumn type capacity (runOf perform (ofType type capacity) operations)
      ((acceptedOf perform (ofType type capacity) operations).foldl type.onList []) := by
  refine holds_runOf (IsColumn type capacity) type.onList ?_ ?_ (isColumn_ofType type capacity)
  · rintro _ values operation member ⟨rfl, typed⟩ accepted
    have keeps := keep?_of_accepted other accepted
    refine ⟨?_, ScalarType.type_of_mem_onList keeps typed⟩
    rw [perform_ofScalars keeps fun _ => small operation member] at accepted ⊢
    exact fst_guarded_of_none accepted
  · rintro _ values operation member error ⟨rfl, typed⟩ refused
    exact ⟨fst_perform_of_refused (fun _ => small operation member) refused, typed⟩

/-- A column of scalars hands them over and is left empty. -/
theorem freeze_ofScalars (type : ScalarType) (capacity : Nat) (values : List Scalar)
    (parts : List ColumnData) :
    (scalar (.ofScalars type capacity values)).freeze parts =
      (.ofType type capacity, .ok (.leaf (.ofScalars type values))) := by
  rw [freeze, ScalarBuffer.reset_ofScalars, ScalarBuffer.ofScalars_nil,
    ScalarBuffer.toLeaf?_ofScalars]
  rfl

end Buffer

namespace Scalar

/-- Scalars of the type of texts are those of a list of texts. -/
theorem exists_texts {values : List Scalar} (typed : ∀ value ∈ values, value.type = .string) :
    ∃ texts : List String, values = texts.map .string := by
  refine ⟨values.map toText, ?_⟩
  rw [List.map_map, List.map_congr_left (g := id), List.map_id]
  intro value member
  have := typed value member
  cases value <;> simp_all [type, toText]

/-- Scalars of the type of byte strings are those of a list of byte strings. -/
theorem exists_byteStrings {values : List Scalar} (typed : ∀ value ∈ values, value.type = .bytes) :
    ∃ strings : List ByteArray, values = strings.map .bytes := by
  refine ⟨values.map toBytes, ?_⟩
  rw [List.map_map, List.map_congr_left (g := id), List.map_id]
  intro value member
  have := typed value member
  cases value <;> simp_all [type, toBytes]

end Scalar

/-! ### Faithfulness -/

namespace ByteStrings

/-- Byte strings of a capacity stand for a list: the offsets rise from zero to the end of the data,
there is one more of them than values, and between two neighbours lies the value. An operation is
refused just if what it makes of the list has no room. -/
structure StandsFor (strings : ByteStrings) (capacity : Nat) (values : List ByteArray) : Prop where
  rise : OffsetsRise strings.offsets
  ends : strings.offsets.back? = some strings.data.size
  count_eq : strings.count = values.length
  get?_eq : ∀ index, strings.get? index = values[index]?
  refuses : ∀ operation : Operation ByteArray, operation.Small →
    (strings.perform operation).2 = refusal? capacity values operation

/-- A buffer of the values of a list stands for it. -/
theorem standsFor_ofList (capacity : Nat) (values : List ByteArray) :
    (ofList capacity values).StandsFor capacity values where
  rise := offsetsRise_offsetsOf _
  ends := by
    rw [ofList, List.back?_toArray, getLast?_offsetsOf, size_joined]
  count_eq := count_ofList capacity values
  get?_eq := get?_ofList capacity values
  refuses operation small := by
    rw [perform_ofList capacity values small, snd_guarded]

/-- Byte strings are a faithful list. After any operations whose sizes a machine word holds, they
stand for the values that the accepted operations make: a write keeps those before its index, puts
empty ones where some are missing and its own last. The buffers of texts and of byte strings,
written as scalars, refuse a scalar of another type and else only what has no room; they hand over
exactly what was written and are empty afterwards. -/
theorem faithful_of_run (capacity : Nat) :
    (∀ operations : List (Operation ByteArray), (∀ operation ∈ operations, operation.Small) →
      (runOf perform (empty capacity) operations).StandsFor capacity
        ((acceptedOf perform (empty capacity) operations).foldl
          (Operation.onList (cutAt .empty) .empty) [])) ∧
    (∀ operations : List (Operation Scalar), (∀ operation ∈ operations, operation.Small) →
      let accepted := acceptedOf Buffer.perform (.ofType .string capacity) operations
      let buffer := runOf Buffer.perform (.ofType .string capacity) operations
      ∃ (texts : List String) (strings : ByteStrings),
        accepted.foldl (Operation.onList (cutAt (.string "")) (.string "")) [] =
          texts.map .string ∧
        buffer = .scalar (.string strings) ∧ strings.StandsFor capacity (texts.map String.toUTF8) ∧
        (∀ operation : Operation Scalar, operation.Small →
          (buffer.perform operation).2 =
            ScalarType.string.error? capacity (texts.map .string) operation) ∧
        ∀ parts, buffer.freeze parts =
          (.ofType .string capacity, .ok (.leaf (.string texts.toArray)))) ∧
    (∀ operations : List (Operation Scalar), (∀ operation ∈ operations, operation.Small) →
      let accepted := acceptedOf Buffer.perform (.ofType .bytes capacity) operations
      let buffer := runOf Buffer.perform (.ofType .bytes capacity) operations
      ∃ (values : List ByteArray) (strings : ByteStrings),
        accepted.foldl (Operation.onList (cutAt (.bytes .empty)) (.bytes .empty)) [] =
          values.map .bytes ∧
        buffer = .scalar (.bytes strings) ∧ strings.StandsFor capacity values ∧
        (∀ operation : Operation Scalar, operation.Small →
          (buffer.perform operation).2 =
            ScalarType.bytes.error? capacity (values.map .bytes) operation) ∧
        ∀ parts, buffer.freeze parts =
          (.ofType .bytes capacity, .ok (.leaf (.bytes values.toArray)))) := by
  refine ⟨?_, ?_, ?_⟩
  · intro operations small
    rw [runOf_perform capacity small]
    exact standsFor_ofList capacity _
  · intro operations small accepted buffer
    obtain ⟨held, typed⟩ := Buffer.isColumn_runOf .string (by decide) capacity small
    obtain ⟨texts, same⟩ := Scalar.exists_texts typed
    have stored : (texts.map Scalar.string).map Scalar.textBytes = texts.map String.toUTF8 := by
      rw [List.map_map]
      rfl
    have sealed : (texts.map Scalar.string).map Scalar.toText = texts := by
      rw [List.map_map]
      exact List.map_id texts
    rw [same] at held
    have column : buffer = .scalar (.ofScalars .string capacity (texts.map .string)) := held
    refine ⟨texts, .ofList capacity (texts.map String.toUTF8), same, ?_,
      standsFor_ofList capacity _, ?_, ?_⟩
    · rw [← stored]
      exact column
    · intro operation small
      rw [column, Buffer.snd_perform_ofScalars (fun _ => small)]
    · intro parts
      rw [column, Buffer.freeze_ofScalars, Leaf.ofScalars, sealed]
  · intro operations small accepted buffer
    obtain ⟨held, typed⟩ := Buffer.isColumn_runOf .bytes (by decide) capacity small
    obtain ⟨values, same⟩ := Scalar.exists_byteStrings typed
    have stored : (values.map Scalar.bytes).map Scalar.toBytes = values := by
      rw [List.map_map]
      exact List.map_id values
    rw [same] at held
    have column : buffer = .scalar (.ofScalars .bytes capacity (values.map .bytes)) := held
    refine ⟨values, .ofList capacity values, same, ?_, standsFor_ofList capacity _, ?_, ?_⟩
    · rw [← stored]
      exact column
    · intro operation small
      rw [column, Buffer.snd_perform_ofScalars (fun _ => small)]
    · intro parts
      rw [column, Buffer.freeze_ofScalars, Leaf.ofScalars, stored]

/-- A text is written behind a gap, the gap is filled further, a number is refused, and an earlier
text is written anew, which drops all behind it. -/
theorem faithful_of_run_overwrite :
    let operations : List (Operation Scalar) :=
      [.set 1 (.string "é"), .fill 4, .set 0 (.int 5), .set 2 (.string "w")]
    (∀ operation ∈ operations, operation.Small) ∧
    acceptedOf Buffer.perform (.ofType .string 64) operations =
      [.set 1 (.string "é"), .fill 4, .set 2 (.string "w")] ∧
    ∀ parts, (runOf Buffer.perform (.ofType .string 64) operations).freeze parts =
      (.ofType .string 64, .ok (.leaf (.string #["", "é", "w"]))) := by
  intro operations
  have small : ∀ operation ∈ operations, operation.Small := by decide +kernel
  have accepted : acceptedOf Buffer.perform (.ofType .string 64) operations =
      [.set 1 (.string "é"), .fill 4, .set 2 (.string "w")] := by decide +kernel
  obtain ⟨texts, -, made, -, -, -, freezes⟩ := (faithful_of_run 64).2.1 operations small
  have same : texts.map Scalar.string = ["", "é", "w"].map Scalar.string := by
    rw [← made, accepted]
    rfl
  have written : texts = ["", "é", "w"] :=
    (List.map_inj_right fun _ _ => Scalar.string.inj).mp same
  refine ⟨small, accepted, ?_⟩
  rw [written] at freezes
  exact freezes

/-- Of the largest index and the largest count the sizes wrap around: what should be refused is
accepted, and byte strings are left with no offsets, or with one that is not zero. -/
theorem unfaithful_of_wrapped :
    let filled : List (Operation ByteArray) :=
      [.set 0 "abc".toUTF8, .fill 18446744073709551615]
    let written : List (Operation ByteArray) :=
      [.set 0 "abc".toUTF8, .set 18446744073709551615 "de".toUTF8]
    (acceptedOf perform (empty 64) filled = filled ∧
      (runOf perform (empty 64) filled).offsets = #[]) ∧
    acceptedOf perform (empty 64) written = written ∧
      (runOf perform (empty 64) written).offsets = #[5] := by
  decide +kernel

end ByteStrings

end Columnar
