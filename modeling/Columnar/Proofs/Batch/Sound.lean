import Columnar.Proofs.Batch.WellFormed

/-!
# Sound batches

What is certain of the columns of every batch, wherever it comes from: offsets never decrease and
stay within the items, and the columns of a tuple are of one length. Unlike in a batch that was just
sealed, offsets need not begin at zero, and there may be items that no slot has. Cutting a batch to
some of its rows or columns keeps it sound.
-/

namespace Columnar

mutual

/-- Whether a column is sound: the offsets of every list in it never decrease and end within its
items, and the columns of every struct are as long as the struct. -/
def ColumnData.Sound : ColumnData → Prop
  | .leaf _ => True
  | .list offsets items =>
      offsets.toList.Pairwise (· ≤ ·) ∧ (∃ last, offsets.back? = some last ∧ last ≤ items.length) ∧
        items.Sound
  | .struct rows columns => columns.Sound rows

/-- Whether columns are sound and have a number of rows each. -/
def DataColumns.Sound (rows : Nat) : DataColumns → Prop
  | .nil => True
  | .cons _ data rest => data.length = rows ∧ data.Sound ∧ rest.Sound rows

end

/-- Whether the columns of a batch are sound and have the rows of the batch. -/
def Batch.Sound (batch : Batch) : Prop :=
  ∀ column ∈ batch.columns, column.length = batch.rows ∧ column.Sound

/-- Each of some sound columns is sound. -/
theorem DataColumns.Sound.of_mem {rows : Nat} {data : ColumnData} : ∀ {columns : DataColumns},
    columns.Sound rows → data ∈ columns.datas → data.length = rows ∧ data.Sound
  | .nil, _, member => nomatch member
  | .cons _ _ _, sound, member => by
      rcases List.mem_cons.mp member with rfl | later
      · exact ⟨sound.1, sound.2.1⟩
      · exact DataColumns.Sound.of_mem sound.2.2 later

/-! ### Sealed batches -/

mutual

/-- A well-formed column is sound. -/
theorem ColumnData.WellFormed.sound : ∀ {data : ColumnData}, data.WellFormed → data.Sound
  | .leaf _, _ => trivial
  | .list _ _, ⟨rise, covered, below⟩ =>
      ⟨rise.2, ⟨_, covered, Nat.le_refl _⟩, ColumnData.WellFormed.sound below⟩
  | .struct _ _, wellFormed => DataColumns.WellFormed.sound wellFormed

/-- Well-formed columns are sound. -/
theorem DataColumns.WellFormed.sound {rows : Nat} : ∀ {columns : DataColumns},
    columns.WellFormed rows → columns.Sound rows
  | .nil, _ => trivial
  | .cons _ _ _, ⟨counted, first, later⟩ =>
      ⟨counted, ColumnData.WellFormed.sound first, DataColumns.WellFormed.sound later⟩

end

/-- The batch of given rows is sound. -/
theorem Batch.sound_ofRows (schema : Schema) (rows : List Value) :
    (Batch.ofRows schema rows).Sound := by
  intro column member
  have wellFormed := DataColumns.wellFormed_ofRows schema (rows.map Value.items)
  rw [List.length_map] at wellFormed
  obtain ⟨counted, sound⟩ := wellFormed.of_mem member
  exact ⟨counted, sound.sound⟩

/-! ### Slots of sound lists -/

section Offsets

variable {offsets : Array Nat} {last : Nat}

/-- No offset lies past the last one. -/
private theorem le_of_back? (rising : offsets.toList.Pairwise (· ≤ ·))
    (ends : offsets.back? = some last) {index offset : Nat}
    (found : offsets[index]? = some offset) : offset ≤ last := by
  rw [Array.back?_eq_getElem?] at ends
  obtain ⟨within, -⟩ := Array.getElem?_eq_some_iff.mp found
  exact rising_iff.mp rising _ _ _ _ (Nat.le_sub_one_of_lt within) found ends

/-- Every slot of a sound list has its elements among the items. -/
theorem slotBounds_of_sound (rising : offsets.toList.Pairwise (· ≤ ·))
    (ends : offsets.back? = some last) {slot : Nat} (inside : slot < offsets.size - 1) :
    ∃ first stop, slotBounds offsets slot = .ok (first, stop) ∧ stop ≤ last := by
  have lower : offsets[slot]? = some offsets[slot] := Array.getElem?_eq_getElem (by omega)
  have upper : offsets[slot + 1]? = some offsets[slot + 1] := Array.getElem?_eq_getElem (by omega)
  refine ⟨offsets[slot], offsets[slot + 1], ?_, le_of_back? rising ends upper⟩
  rw [slotBounds, lower, upper]

/-- A range of the offsets of a sound list never decreases and stays within the items. -/
private theorem extract_of_sound (rising : offsets.toList.Pairwise (· ≤ ·))
    (ends : offsets.back? = some last) {offset length : Nat}
    (inside : offset + length ≤ offsets.size - 1) :
    let cut := offsets.extract offset (offset + length + 1)
    cut.size = length + 1 ∧ cut.toList.Pairwise (· ≤ ·) ∧
      ∃ stop, cut.back? = some stop ∧ stop ≤ last := by
  intro cut
  have filled : 0 < offsets.size := by
    rw [Array.back?_eq_getElem?] at ends
    obtain ⟨present, _⟩ := Array.getElem?_eq_some_iff.mp ends
    omega
  have size : cut.size = length + 1 := by
    simp only [cut, Array.size_extract]
    omega
  have there : offsets[offset + length]? = some offsets[offset + length] :=
    Array.getElem?_eq_getElem (by omega)
  refine ⟨size, ?_, offsets[offset + length], ?_, le_of_back? rising ends there⟩
  · rw [Array.toList_extract]
    exact rising.sublist ((List.take_sublist _ _).trans (List.drop_sublist _ _))
  · rw [Array.back?_eq_getElem?, size, Nat.add_sub_cancel, Array.getElem?_extract,
      if_pos (by omega)]
    exact there

end Offsets

/-! ### Cutting -/

private theorem Leaf.length_slice {values : Leaf} {offset length : Nat}
    (inside : offset + length ≤ values.length) : (values.slice offset length).length = length := by
  cases values <;> simp only [Leaf.length, Leaf.slice, Array.size_extract] at inside ⊢ <;> omega

mutual

/-- The rows of a range of a sound column are a sound column of that many rows. -/
theorem ColumnData.Sound.slice {offset length : Nat} : ∀ {data : ColumnData}, data.Sound →
    offset + length ≤ data.length →
    (data.slice offset length).length = length ∧ (data.slice offset length).Sound
  | .leaf _, _, inside => ⟨Leaf.length_slice inside, trivial⟩
  | .list offsets items, ⟨rising, ⟨last, ends, within⟩, below⟩, inside => by
      obtain ⟨size, rises, stop, endsAt, before⟩ := extract_of_sound rising ends inside
      refine ⟨?_, rises, ⟨stop, endsAt, Nat.le_trans before within⟩, below⟩
      rw [ColumnData.slice, ColumnData.length, size, Nat.add_sub_cancel]
  | .struct _ _, sound, inside => ⟨rfl, DataColumns.Sound.slice sound inside⟩

/-- The rows of a range of sound columns are sound columns of that many rows. -/
theorem DataColumns.Sound.slice {offset length rows : Nat} : ∀ {columns : DataColumns},
    columns.Sound rows → offset + length ≤ rows → (columns.slice offset length).Sound length
  | .nil, _, _ => trivial
  | .cons _ _ _, ⟨counted, first, later⟩, inside => by
      obtain ⟨cut, sound⟩ := ColumnData.Sound.slice first (counted.symm ▸ inside)
      exact ⟨cut, sound, DataColumns.Sound.slice later inside⟩

end

namespace Batch

/-- A range of the rows of a sound batch is sound. -/
theorem Sound.slice? {batch part : Batch} {offset length : Nat} (sound : batch.Sound)
    (cut : batch.slice? offset length = some part) : part.Sound := by
  rw [Batch.slice?] at cut
  split at cut
  · rename_i inside
    obtain rfl := Option.some.inj cut
    intro column member
    obtain ⟨whole, present, rfl⟩ := List.mem_map.mp member
    obtain ⟨counted, soundWhole⟩ := sound whole present
    exact soundWhole.slice (counted.symm ▸ inside)
  · cases cut

/-- What is made of all members of a list is made of some of them. -/
private theorem exists_of_mapM {ε α β : Type} {make : α → Except ε β} {list : List α}
    {results : List β} (made : list.mapM make = .ok results) {result : β}
    (member : result ∈ results) : ∃ item ∈ list, make item = .ok result := by
  have each := mapM_ok_iff.mp made
  clear made
  induction each with
  | nil => cases member
  | cons here _ inductionHypothesis =>
    rcases List.mem_cons.mp member with rfl | later
    · exact ⟨_, List.mem_cons_self, here⟩
    · obtain ⟨other, inside, there⟩ := inductionHypothesis later
      exact ⟨other, List.mem_cons_of_mem _ inside, there⟩

/-- Any of the columns of a sound batch are a sound batch. -/
theorem Sound.project? {batch part : Batch} {positions : List Nat} (sound : batch.Sound)
    (chosen : batch.project? positions = .ok part) : part.Sound := by
  obtain ⟨picked, each, made⟩ := bind_ok_iff.mp chosen
  cases made
  intro column member
  obtain ⟨pick, present, rfl⟩ := List.mem_map.mp member
  obtain ⟨position, _, found⟩ := exists_of_mapM each present
  split at found
  · rename_i field whole _ here
    obtain rfl := Except.ok.inj found
    exact sound whole (List.mem_of_getElem? here)
  · cases found

end Batch

end Columnar
