import Columnar.Batch.Assembly
import Columnar.Buffer.Slots
import Columnar.Proofs.Buffer.Cells
import Mathlib.Algebra.GroupWithZero.Nat

/-!
# Offsets of consecutive values

Values that are stored one after the other are told apart by their offsets, the sums of the sizes
before them. `Slots.ofSizes` is the one buffer of slots of given sizes, and committing a slot or
cutting slots leads from one such buffer to another.
-/

namespace Columnar

/-- The offsets of values of the given sizes: where each begins, and where the last one ends. -/
def offsetsOf (sizes : List Nat) : List Nat :=
  sizes.scanl (· + ·) 0

private theorem foldl_add_eq_sum (sizes : List Nat) : sizes.foldl (· + ·) 0 = sizes.sum := by
  rw [List.sum_eq_foldl]

@[simp] theorem length_offsetsOf (sizes : List Nat) : (offsetsOf sizes).length = sizes.length + 1 :=
  List.length_scanl

/-- An offset is the sum of the sizes before it. -/
theorem getElem?_offsetsOf {sizes : List Nat} {index : Nat} (within : index ≤ sizes.length) :
    (offsetsOf sizes)[index]? = some (sizes.take index).sum := by
  unfold offsetsOf
  have inside : index < (sizes.scanl (· + ·) 0).length := by
    rw [List.length_scanl]
    omega
  rw [List.getElem?_eq_getElem inside, List.getElem_scanl, foldl_add_eq_sum]

/-- The last offset is the size of all values together. -/
@[simp] theorem getLast?_offsetsOf (sizes : List Nat) :
    (offsetsOf sizes).getLast? = some sizes.sum := by
  rw [List.getLast?_eq_getElem?, length_offsetsOf, Nat.add_sub_cancel,
    getElem?_offsetsOf (Nat.le_refl _), List.take_length]

/-- Offsets cut after a value are the offsets of the values up to it. -/
@[simp] theorem take_offsetsOf (sizes : List Nat) (count : Nat) :
    (offsetsOf sizes).take (count + 1) = offsetsOf (sizes.take count) :=
  List.take_scanl 0 sizes count

/-- One more value adds one offset, after the size of all values before it. -/
theorem offsetsOf_append_singleton (sizes : List Nat) (size : Nat) :
    offsetsOf (sizes ++ [size]) = offsetsOf sizes ++ [sizes.sum + size] := by
  unfold offsetsOf
  rw [List.scanl_append, foldl_add_eq_sum]
  simp

/-- Values of size zero add offsets where the last value ends. -/
theorem offsetsOf_append_zeros (sizes : List Nat) (count : Nat) :
    offsetsOf (sizes ++ List.replicate count 0) =
      offsetsOf sizes ++ List.replicate count sizes.sum := by
  induction count with
  | zero => simp
  | succ count inductionHypothesis =>
    rw [List.replicate_succ', ← List.append_assoc, offsetsOf_append_singleton,
      inductionHypothesis, List.replicate_succ', List.append_assoc]
    simp

/-- No offset lies past the last one. -/
theorem le_sum_of_mem_offsetsOf {sizes : List Nat} {offset : Nat}
    (member : offset ∈ offsetsOf sizes) : offset ≤ sizes.sum := by
  obtain ⟨index, inside, rfl⟩ := List.getElem_of_mem member
  rw [length_offsetsOf] at inside
  have found : (offsetsOf sizes)[index]? = some (sizes.take index).sum :=
    getElem?_offsetsOf (Nat.le_of_lt_succ inside)
  obtain ⟨_, same⟩ := List.getElem?_eq_some_iff.mp found
  have parts : (sizes.take index).sum + (sizes.drop index).sum = sizes.sum := by
    rw [← List.sum_append, List.take_append_drop]
  omega

/-- Offsets never decrease just if none is larger than one behind it. -/
theorem rising_iff {offsets : Array Nat} :
    offsets.toList.Pairwise (· ≤ ·) ↔ ∀ earlier later low high : Nat, earlier ≤ later →
      offsets[earlier]? = some low → offsets[later]? = some high → low ≤ high := by
  rw [List.pairwise_iff_getElem]
  constructor
  · intro rising earlier later low high before lower upper
    obtain ⟨_, rfl⟩ := Array.getElem?_eq_some_iff.mp lower
    obtain ⟨_, rfl⟩ := Array.getElem?_eq_some_iff.mp upper
    rcases Nat.eq_or_lt_of_le before with rfl | before
    · exact Nat.le_refl _
    · exact rising earlier later (by simpa) (by simpa) before
  · intro rising earlier later _ _ before
    exact rising earlier later _ _ (Nat.le_of_lt before) (by simp) (by simp)

/-- Offsets decrease nowhere just if they never decrease. -/
theorem decreases_eq_false_iff : ∀ {offsets : List Nat},
    decreases offsets = false ↔ offsets.Pairwise (· ≤ ·)
  | [] => by simp [decreases]
  | [_] => by simp [decreases]
  | first :: second :: rest => by
      rw [decreases, Bool.or_eq_false_iff, decreases_eq_false_iff, decide_eq_false_iff_not,
        Nat.not_lt, @List.pairwise_cons _ _ first (second :: rest)]
      refine and_congr_left fun later => ⟨fun step offset member => ?_, fun all => ?_⟩
      · rcases List.mem_cons.mp member with rfl | further
        · exact step
        · exact Nat.le_trans step ((List.pairwise_cons.mp later).1 offset further)
      · exact all second List.mem_cons_self

/-- Where offsets never decrease, no element lies between the bounds of two slots. -/
theorem slot_unique {offsets : Array Nat} (rising : offsets.toList.Pairwise (· ≤ ·))
    {one other first last start stop element : Nat}
    (begins : offsets[one]? = some first) (ends : offsets[one + 1]? = some last)
    (beginsAlso : offsets[other]? = some start) (endsAlso : offsets[other + 1]? = some stop)
    (inside : first ≤ element ∧ element < last) (within : start ≤ element ∧ element < stop) :
    one = other := by
  rcases Nat.lt_trichotomy one other with before | same | after
  · have apart := rising_iff.mp rising _ _ _ _ before ends beginsAlso
    omega
  · exact same
  · have apart := rising_iff.mp rising _ _ _ _ after endsAlso begins
    omega

/-- Whether offsets begin at zero and never decrease. -/
def OffsetsRise (offsets : Array Nat) : Prop :=
  offsets[0]? = some 0 ∧ offsets.toList.Pairwise (· ≤ ·)

/-- The offsets of any sizes begin at zero and never decrease. -/
theorem offsetsRise_offsetsOf (sizes : List Nat) : OffsetsRise (offsetsOf sizes).toArray := by
  constructor
  · rw [List.getElem?_toArray, getElem?_offsetsOf (Nat.zero_le _)]
    rfl
  · rw [List.pairwise_iff_getElem]
    intro earlier later _ within before
    rw [length_offsetsOf] at within
    have first : (offsetsOf sizes)[earlier]? = some (sizes.take earlier).sum :=
      getElem?_offsetsOf (by omega)
    have second : (offsetsOf sizes)[later]? = some (sizes.take later).sum :=
      getElem?_offsetsOf (by omega)
    obtain ⟨_, first⟩ := List.getElem?_eq_some_iff.mp first
    obtain ⟨_, second⟩ := List.getElem?_eq_some_iff.mp second
    rw [first, second]
    -- The sizes before the later offset go on from those before the earlier one.
    obtain ⟨more, parts⟩ : sizes.take earlier <+: sizes.take later :=
      List.take_prefix_take_left (Nat.le_of_lt before)
    rw [← parts, List.sum_append]
    exact Nat.le_add_right _ _

/-- Offsets are in order just if there are some and they never decrease. -/
theorem disordered_eq_false_iff {offsets : Array Nat} :
    disordered offsets = false ↔ offsets ≠ #[] ∧ offsets.toList.Pairwise (· ≤ ·) := by
  rw [disordered, Bool.or_eq_false_iff, decreases_eq_false_iff, ← Bool.not_eq_true,
    Array.isEmpty_iff]

/-- The offsets of any sizes are in order. -/
theorem disordered_offsetsOf (sizes : List Nat) :
    disordered (offsetsOf sizes).toArray = false := by
  refine disordered_eq_false_iff.mpr ⟨fun none => ?_, (offsetsRise_offsetsOf sizes).2⟩
  have size := congrArg Array.size none
  rw [List.size_toArray, length_offsetsOf] at size
  cases size

/-- There is one offset more than there are sizes. -/
theorem countOf_offsetsOf (sizes : List Nat) : countOf (offsetsOf sizes).toArray = sizes.length :=
  countOf_of_size (by rw [List.size_toArray, length_offsetsOf])

/-- The offsets of sizes end with all sizes together. -/
theorem endOf_offsetsOf (sizes : List Nat) : endOf (offsetsOf sizes).toArray = sizes.sum := by
  simp [endOf]

/-- As many values as there are, or one more, leave no gap. -/
theorem exact_of_le {count total : Nat} (next : total ≤ count + 1) : Exact (count + 1) total :=
  Or.inl next

theorem exact_offsetsOf {sizes : List Nat} {total : Nat} (exact : Exact (sizes.length + 1) total) :
    Exact (offsetsOf sizes).toArray.size total := by
  rwa [List.size_toArray, length_offsetsOf]

/-- More values get the offset behind the last one. -/
theorem resize_offsetsOf {sizes : List Nat} {total : Nat} (more : sizes.length ≤ total)
    (exact : Exact (sizes.length + 1) total) :
    resize (offsetsOf sizes).toArray total =
      (offsetsOf (sizes ++ List.replicate (total - sizes.length) 0)).toArray := by
  have size : (offsetsOf sizes).toArray.size = sizes.length + 1 := by
    rw [List.size_toArray, length_offsetsOf]
  rw [resize_eq (exact_offsetsOf exact) (by omega), size, endOf_offsetsOf, offsetsOf_append_zeros,
    Nat.add_sub_add_right]
  simp

namespace Slots

/-- The slots that hold so many elements each, in order. -/
def ofSizes (capacity : Nat) (sizes : List Nat) : Slots :=
  ⟨capacity, (offsetsOf sizes).toArray⟩

@[simp] theorem capacity_ofSizes (capacity : Nat) (sizes : List Nat) :
    (ofSizes capacity sizes).capacity = capacity := rfl

@[simp] theorem count_ofSizes (capacity : Nat) (sizes : List Nat) :
    (ofSizes capacity sizes).count = sizes.length :=
  countOf_offsetsOf sizes

@[simp] theorem lastOffset_ofSizes (capacity : Nat) (sizes : List Nat) :
    (ofSizes capacity sizes).lastOffset = sizes.sum :=
  endOf_offsetsOf sizes

/-- Cutting slots keeps the sizes of those that stay. -/
@[simp] theorem truncate_ofSizes (capacity count : Nat) (sizes : List Nat) :
    (ofSizes capacity sizes).truncate count = ofSizes capacity (sizes.take count) := by
  unfold truncate
  rw [count_ofSizes]
  split
  · simp [ofSizes]
  · rename_i enough
    rw [List.take_of_length_le (by omega)]

/-- What a commit of the next slot is refused for: its offsets first, then its end. -/
def commitShortage? (capacity : Nat) (sizes : List Nat) : Option Shortage :=
  (shortage? ((sizes.length + 1) * offsetBytes) capacity).or (shortage? sizes.sum maxOffset)

/-- Committing the slot after the last one appends it, unless there is no room. -/
theorem commit_ofSizes (capacity : Nat) (sizes : List Nat) (size : Nat) :
    (ofSizes capacity sizes).commit sizes.length (sizes.sum + size) =
      guarded (commitShortage? capacity (sizes ++ [size]))
        (ofSizes capacity sizes) (ofSizes capacity (sizes ++ [size])) := by
  have measured :
      (shortage? (offsetsSize (ofSizes capacity sizes).offsets (sizes.length + 1)) capacity).or
          (shortage? (sizes.sum + size) maxOffset) =
        commitShortage? capacity (sizes ++ [size]) := by
    rw [ofSizes, offsetsSize_eq (exact_offsetsOf (exact_of_le (Nat.le_refl _)))]
    simp [commitShortage?]
  have stored : offsetsFor (ofSizes capacity sizes).offsets sizes.length = sizes.length + 1 :=
    offsetsFor_eq (exact_offsetsOf (exact_of_le (Nat.le_succ _)))
  have nothingToPad :
      (ofSizes capacity sizes).fill sizes.length = (ofSizes capacity sizes, none) := by
    simp [fill]
  have kept : (offsetsOf sizes).take (sizes.length + 1) = offsetsOf sizes := by
    rw [take_offsetsOf, List.take_length]
  unfold commit
  simp only [capacity_ofSizes, measured]
  cases commitShortage? capacity (sizes ++ [size]) with
  | some shortage => rfl
  | none =>
    simp only [stored, nothingToPad]
    simp [ofSizes, kept, offsetsOf_append_singleton]

end Slots

end Columnar
