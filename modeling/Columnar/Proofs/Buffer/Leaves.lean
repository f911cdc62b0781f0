import Columnar.Proofs.Buffer.Writes

/-!
# Leaves of scalar buffers

A scalar buffer becomes a leaf that shows just what is stored in it, whatever that is; only bytes
that are no text make no leaf of texts. Texts that were written as scalars always make one.
-/

namespace Columnar

/-- Byte strings that are text are the bytes of texts. -/
theorem exists_texts_iff {values : List ByteArray} :
    (∃ texts : List String, texts.map String.toUTF8 = values) ↔
      ∀ value ∈ values, value.IsValidUTF8 := by
  constructor
  · rintro ⟨texts, rfl⟩ value member
    obtain ⟨text, -, rfl⟩ := List.mem_map.mp member
    exact text.isValidUTF8
  · intro valid
    induction values with
    | nil => exact ⟨[], rfl⟩
    | cons value rest inductionHypothesis =>
      obtain ⟨here, there⟩ := List.forall_mem_cons.mp valid
      obtain ⟨texts, later⟩ := inductionHypothesis there
      exact ⟨String.fromUTF8 value here :: texts, congrArg (value :: ·) later⟩

namespace ByteStrings

theorem isSome_get?_iff {strings : ByteStrings} (begun : strings.offsets ≠ #[]) {index : Nat} :
    (strings.get? index).isSome ↔ index < strings.count := by
  have size : strings.offsets.size = strings.count + 1 := size_eq_countOf_succ begun
  unfold get?
  by_cases inside : index < strings.count
  · rw [Array.getElem?_eq_getElem (by omega), Array.getElem?_eq_getElem (i := index + 1) (by omega)]
    exact ⟨fun _ => inside, fun _ => rfl⟩
  · rw [Array.getElem?_eq_none (i := index + 1) (by omega)]
    constructor
    · intro found
      split at found
      · rename_i missing
        cases missing
      · cases found
    · exact fun before => absurd before inside

/-- All values are those at the indices, in order. -/
private theorem map_some_values {strings : ByteStrings} (begun : strings.offsets ≠ #[]) :
    strings.values.toList.map some = (List.range strings.count).map strings.get? := by
  rw [values, Array.toList_filterMap, Array.toList_range,
    List.map_filterMap_some_eq_filter_map_isSome, List.filter_eq_self]
  intro value member
  obtain ⟨index, inside, rfl⟩ := List.mem_map.mp member
  exact (isSome_get?_iff begun).mpr (List.mem_range.mp inside)

theorem size_values {strings : ByteStrings} (begun : strings.offsets ≠ #[]) :
    strings.values.size = strings.count := by
  simpa using congrArg List.length (map_some_values begun)

theorem getElem?_values {strings : ByteStrings} (begun : strings.offsets ≠ #[]) (index : Nat) :
    strings.values[index]? = strings.get? index := by
  have same := congrArg (·[index]?) (map_some_values begun)
  simp only [List.getElem?_map, Array.getElem?_toList] at same
  by_cases inside : index < strings.count
  · rw [List.getElem?_range inside, Array.getElem?_eq_getElem (by rwa [size_values begun])] at same
    rw [Array.getElem?_eq_getElem (by rwa [size_values begun])]
    exact Option.some.inj same
  · rw [Array.getElem?_eq_none (by rw [size_values begun]; omega)]
    exact (Option.not_isSome_iff_eq_none.mp ((isSome_get?_iff begun).not.mpr inside)).symm

/-- All bytes together are those of a text, and every offset is at a character of it or at its end.
-/
def CutsText (strings : ByteStrings) : Prop :=
  ∃ text : String, text.toUTF8 = strings.data ∧
    ∀ offset ∈ strings.offsets, String.Pos.Raw.isValid text ⟨offset⟩

/-- Where a text is cut at its characters, each value is text. -/
private theorem isValidUTF8_of_cutsText {strings : ByteStrings}
    (ordered : disordered strings.offsets = false) (cuts : strings.CutsText) {value : ByteArray}
    (member : value ∈ strings.values.toList) : value.IsValidUTF8 := by
  obtain ⟨begun, rising⟩ := disordered_eq_false_iff.mp ordered
  obtain ⟨text, whole, valid⟩ := cuts
  obtain ⟨index, found⟩ := List.mem_iff_getElem?.mp member
  rw [Array.getElem?_toList, getElem?_values begun, get?] at found
  split at found
  · rename_i first last begins ends
    obtain rfl := Option.some.inj found
    have firstValid := String.Pos.Raw.isValid_eq_true_iff.mp
      (valid first (Array.mem_of_getElem? begins))
    have lastValid := String.Pos.Raw.isValid_eq_true_iff.mp
      (valid last (Array.mem_of_getElem? ends))
    have order : first ≤ last := rising_iff.mp rising _ _ _ _ (Nat.le_succ index) begins ends
    rw [← whole]
    exact (String.Pos.Raw.isValidUTF8_extract_iff ⟨first⟩ ⟨last⟩ order lastValid.le_rawEndPos).mpr
      (.inr ⟨firstValid, lastValid⟩)
  · cases found

/-- Byte strings are sealed exactly if their offsets are in order and end within the bytes. -/
theorem toBytes?_eq_ok_iff {strings : ByteStrings} {values : Array ByteArray} :
    strings.toBytes? = .ok values ↔ disordered strings.offsets = false ∧
      strings.lastOffset ≤ strings.data.size ∧ values = strings.values := by
  unfold toBytes?
  by_cases ordered : disordered strings.offsets
  · simp [ordered]
  · by_cases past : strings.data.size < strings.lastOffset
    · simp [ordered, past, Nat.not_le.mpr past]
    · simp [ordered, past, Nat.not_lt.mp past, eq_comm]

/-- Texts are sealed exactly if their offsets are in order and cut a text, to the texts that have
the bytes of the values. -/
theorem toTexts?_eq_ok_iff {strings : ByteStrings} {texts : Array String} :
    strings.toTexts? = .ok texts ↔ disordered strings.offsets = false ∧ strings.CutsText ∧
      texts.toList.map String.toUTF8 = strings.values.toList := by
  have read : strings.values.mapM String.fromUTF8? = some texts ↔
      texts.toList.map String.toUTF8 = strings.values.toList := by
    rw [Array.mapM_eq_mapM_toList, ← mapM_fromUTF8?_eq_some_iff]
    cases strings.values.toList.mapM String.fromUTF8? with
    | none => exact ⟨nofun, nofun⟩
    | some list => exact ⟨fun same => Option.some.inj same ▸ rfl, fun same => by simp_all⟩
  have cut (text : String) :
      (strings.offsets.find? fun offset => !String.Pos.Raw.isValid text ⟨offset⟩) = none ↔
        ∀ offset ∈ strings.offsets, String.Pos.Raw.isValid text ⟨offset⟩ := by
    rw [Array.find?_eq_none]
    simp only [Bool.not_eq_true, Bool.not_eq_false']
  constructor
  · intro made
    unfold toTexts? at made
    split at made
    · cases made
    rename_i ordered
    split at made
    · cases made
    rename_i text whole
    split at made
    · cases made
    rename_i valid
    split at made
    · rename_i found decoded
      obtain rfl := Except.ok.inj made
      exact ⟨eq_false_of_ne_true ordered,
        ⟨text, fromUTF8?_eq_some_iff.mp whole, (cut text).mp valid⟩, read.mp decoded⟩
    · cases made
  · rintro ⟨ordered, ⟨text, whole, valid⟩, same⟩
    rw [toTexts?, ordered, if_neg Bool.false_ne_true]
    simp only [fromUTF8?_eq_some_iff.mpr whole, (cut text).mpr valid, read.mpr same]

/-- Where the offsets are in order, texts are sealed just if they cut a text. -/
theorem exists_toTexts?_iff {strings : ByteStrings} (ordered : disordered strings.offsets = false) :
    (∃ texts, strings.toTexts? = .ok texts) ↔ strings.CutsText := by
  simp only [toTexts?_eq_ok_iff]
  constructor
  · rintro ⟨texts, -, cuts, -⟩
    exact cuts
  · intro cuts
    obtain ⟨texts, same⟩ := exists_texts_iff.mpr fun value member =>
      isValidUTF8_of_cutsText ordered cuts member
    exact ⟨texts.toArray, ordered, cuts, same⟩

end ByteStrings

/-- The form in which a scalar is stored: a text as its bytes, all others as they are. -/
def Scalar.encoded : Scalar → Scalar
  | .string text => .bytes text.toUTF8
  | value => value

/-- A leaf shows what is stored in a scalar buffer: as many values of the same type, and each in the
form in which it is stored. -/
structure Leaf.Shows (leaf : Leaf) (column : ScalarBuffer) : Prop where
  type : leaf.type = column.type
  length : leaf.length = column.count
  get? : ∀ index, (leaf.get? index).map Scalar.encoded = column.stored? index

namespace ScalarBuffer

/-- The offsets that tell the values apart, where they can be of any length. -/
def offsets? : ScalarBuffer → Option (Array Nat)
  | .string strings | .bytes strings => some strings.offsets
  | .int _ | .long _ | .double _ | .bool _ => none

/-- What is stored in a buffer is what its type says: the offsets of texts cut a text, and those of
byte strings end within the bytes. -/
def Sealable : ScalarBuffer → Prop
  | .string strings => strings.CutsText
  | .bytes strings => strings.lastOffset ≤ strings.data.size
  | .int _ | .long _ | .double _ | .bool _ => True

/-- Texts become the leaf of the sealed texts. -/
private theorem toLeaf?_string_iff {strings : ByteStrings} {leaf : Leaf} :
    (string strings).toLeaf? = .ok leaf ↔ ∃ texts, strings.toTexts? = .ok texts ∧
      leaf = .string texts := by
  rw [toLeaf?]
  cases strings.toTexts? <;> simp [Except.map, eq_comm]

/-- Byte strings become the leaf of the sealed values. -/
private theorem toLeaf?_bytes_iff {strings : ByteStrings} {leaf : Leaf} :
    (bytes strings).toLeaf? = .ok leaf ↔ ∃ values, strings.toBytes? = .ok values ∧
      leaf = .bytes values := by
  rw [toLeaf?]
  cases strings.toBytes? <;> simp [Except.map, eq_comm]

/-- A scalar buffer whose offsets are in order becomes a leaf exactly if it stores what its type
says. -/
theorem exists_toLeaf?_iff {column : ScalarBuffer}
    (ordered : ∀ offsets, column.offsets? = some offsets → disordered offsets = false) :
    (∃ leaf, column.toLeaf? = .ok leaf) ↔ column.Sealable := by
  cases column with
  | string strings =>
    rw [Sealable, ← strings.exists_toTexts?_iff (ordered strings.offsets rfl)]
    simp only [toLeaf?_string_iff]
    exact ⟨fun ⟨_, texts, made, _⟩ => ⟨texts, made⟩, fun ⟨texts, made⟩ => ⟨_, texts, made, rfl⟩⟩
  | bytes strings =>
    have inOrder := ordered strings.offsets rfl
    simp only [toLeaf?_bytes_iff, ByteStrings.toBytes?_eq_ok_iff]
    exact ⟨fun ⟨_, _, ⟨_, within, _⟩, _⟩ => within,
      fun within => ⟨_, _, ⟨inOrder, within, rfl⟩, rfl⟩⟩
  | _ => exact ⟨fun _ => trivial, fun _ => ⟨_, rfl⟩⟩

/-- The leaf that a scalar buffer becomes shows what is stored in it. -/
theorem shows_of_toLeaf? {column : ScalarBuffer} {leaf : Leaf}
    (made : column.toLeaf? = .ok leaf) : leaf.Shows column := by
  cases column with
  | string strings =>
    obtain ⟨texts, read, rfl⟩ := toLeaf?_string_iff.mp made
    obtain ⟨ordered, -, same⟩ := ByteStrings.toTexts?_eq_ok_iff.mp read
    have begun := (disordered_eq_false_iff.mp ordered).1
    refine ⟨rfl, ?_, fun index => ?_⟩
    · have counted : texts.size = strings.values.size := by
        simpa using congrArg List.length same
      exact counted.trans (ByteStrings.size_values begun)
    · have stored := congrArg (·[index]?) same
      simp only [List.getElem?_map, Array.getElem?_toList, ByteStrings.getElem?_values begun]
        at stored
      rw [Leaf.get?, stored?, ← stored]
      cases texts[index]? <;> rfl
  | bytes strings =>
    obtain ⟨values, read, rfl⟩ := toLeaf?_bytes_iff.mp made
    obtain ⟨ordered, -, rfl⟩ := ByteStrings.toBytes?_eq_ok_iff.mp read
    have begun := (disordered_eq_false_iff.mp ordered).1
    refine ⟨rfl, ByteStrings.size_values begun, fun index => ?_⟩
    rw [Leaf.get?, stored?, ByteStrings.getElem?_values begun]
    exact Option.map_map ..
  | int cells | long cells | double cells | bool cells =>
    obtain rfl := Except.ok.inj made
    exact ⟨rfl, rfl, fun index => Option.map_map ..⟩

/-- The offsets of scalars that were written are in order, and these are what the type says. -/
theorem sealable_ofScalars (type : ScalarType) (capacity : Nat) (values : List Scalar) :
    (∀ offsets, (ofScalars type capacity values).offsets? = some offsets →
        disordered offsets = false) ∧ (ofScalars type capacity values).Sealable := by
  have ordered : ∀ offsets, (ofScalars type capacity values).offsets? = some offsets →
      disordered offsets = false := by
    intro offsets found
    cases type <;> cases found <;> exact disordered_offsetsOf _
  exact ⟨ordered, (exists_toLeaf?_iff ordered).mp ⟨_, toLeaf?_ofScalars type capacity values⟩⟩

end ScalarBuffer

/-- What was written by operations is in order and is what the type of the buffer says. -/
theorem Buffer.Reached.sealable {column : ScalarBuffer}
    (reached : (Buffer.scalar column).Reached) :
    (∀ offsets, column.offsets? = some offsets → disordered offsets = false) ∧
      column.Sealable := by
  obtain ⟨values, ⟨same, -⟩, -⟩ := reached.hasRoom
  rw [Buffer.scalar.inj same]
  exact ScalarBuffer.sealable_ofScalars column.type column.capacity values

end Columnar
