import Columnar.Proofs.Buffer.ScalarBuffer

/-!
# What a buffer measures

Scalars fit into the buffer of a column when all of its parts are within its limit: the cells, or
the bytes and their offsets. A buffer measures exactly that before it writes, and what it reports as
short is one of its parts.
-/

namespace Columnar

/-- Whether a shortage is one of a buffer of the given capacity: more was requested than there may
be, for the capacity itself or for what an offset can tell. -/
def Shortage.Genuine (capacity : Nat) (shortage : Shortage) : Prop :=
  shortage.capacity < shortage.requested ∧
    (shortage.capacity = capacity ∨ shortage.capacity = maxOffset)

/-- Whether so many offsets and so many bytes or elements fit. -/
def offsetsFit (capacity count last : Nat) : Prop :=
  (count + 1) * offsetBytes ≤ capacity ∧ last ≤ maxOffset

/-- Whether byte strings fit: their offsets, and all their bytes together. -/
def stringsFit (capacity : Nat) (values : List ByteArray) : Prop :=
  offsetsFit capacity values.length (values.map ByteArray.size).sum ∧
    (values.map ByteArray.size).sum ≤ capacity

/-- Whether scalars fit into the buffer of a column of a type. -/
def ScalarType.Fits (capacity : Nat) : ScalarType → List Scalar → Prop
  | .integer, values => values.length * 4 ≤ capacity
  | .long, values => values.length * 8 ≤ capacity
  | .double, values => values.length * 8 ≤ capacity
  | .boolean, values => (values.length + 7) / 8 ≤ capacity
  | .string, values => stringsFit capacity (values.map Scalar.textBytes)
  | .bytes, values => stringsFit capacity (values.map Scalar.toBytes)

instance (capacity count last : Nat) : Decidable (offsetsFit capacity count last) :=
  inferInstanceAs (Decidable (_ ∧ _))

instance (capacity : Nat) (values : List ByteArray) : Decidable (stringsFit capacity values) :=
  inferInstanceAs (Decidable (_ ∧ _))

instance (capacity : Nat) (type : ScalarType) (values : List Scalar) :
    Decidable (type.Fits capacity values) :=
  match type with
  | .integer | .long | .double | .boolean => inferInstanceAs (Decidable (_ ≤ _))
  | .string | .bytes => inferInstanceAs (Decidable (stringsFit _ _))

/-! ### Fewer values fit as well -/

theorem offsetsFit_mono {capacity count last count' last' : Nat} (fewer : count' ≤ count)
    (shorter : last' ≤ last) (fits : offsetsFit capacity count last) :
    offsetsFit capacity count' last' := by
  obtain ⟨offsets, small⟩ := fits
  unfold offsetsFit at *
  unfold offsetBytes at *
  omega

private theorem stringsFit_ofAppend {capacity : Nat} {values others : List ByteArray}
    (fits : stringsFit capacity (values ++ others)) : stringsFit capacity values := by
  obtain ⟨offsets, data⟩ := fits
  rw [List.map_append, List.sum_append] at offsets data
  rw [List.length_append] at offsets
  exact ⟨offsetsFit_mono (Nat.le_add_right _ _) (Nat.le_add_right _ _) offsets, by omega⟩

theorem ScalarType.fits_ofAppend {capacity : Nat} {type : ScalarType} {values others : List Scalar}
    (fits : type.Fits capacity (values ++ others)) : type.Fits capacity values := by
  cases type with
  | string =>
    simp only [ScalarType.Fits, List.map_append] at fits
    exact stringsFit_ofAppend fits
  | bytes =>
    simp only [ScalarType.Fits, List.map_append] at fits
    exact stringsFit_ofAppend fits
  | _ =>
    simp only [ScalarType.Fits, List.length_append] at fits ⊢
    omega

/-! ### What the buffers measure -/

/-- What a check of a buffer tells: nothing is short exactly when what it measures fits, and a
shortage is one of that buffer. -/
structure Measures (capacity : Nat) (fits : Prop) (fault : Option Shortage) : Prop where
  none_iff : fault = none ↔ fits
  genuine : ∀ shortage, fault = some shortage → shortage.Genuine capacity

namespace Measures

variable {capacity : Nat} {fits others : Prop} {fault fault' : Option Shortage}

/-- Two checks one after the other measure both. -/
theorem or (first : Measures capacity fits fault) (second : Measures capacity others fault') :
    Measures capacity (fits ∧ others) (fault.or fault') where
  none_iff := by
    rw [← first.none_iff, ← second.none_iff]
    exact Option.or_eq_none_iff
  genuine := by
    intro shortage found
    rcases Option.or_eq_some_iff.mp found with here | ⟨_, there⟩
    · exact first.genuine shortage here
    · exact second.genuine shortage there

theorem congr (same : fits ↔ others) (measures : Measures capacity fits fault) :
    Measures capacity others fault where
  none_iff := measures.none_iff.trans same
  genuine := measures.genuine

/-- What does not fit is short of something. -/
theorem not_fits (measures : Measures capacity fits fault) {shortage : Shortage}
    (found : fault = some shortage) : ¬fits := by
  intro fit
  rw [measures.none_iff.mpr fit] at found
  cases found

theorem ofCapacity (requested capacity : Nat) :
    Measures capacity (requested ≤ capacity) (shortage? requested capacity) where
  none_iff := shortage?_eq_none_iff
  genuine := by
    intro shortage found
    obtain ⟨exceeds, rfl⟩ := shortage?_eq_some_iff.mp found
    exact ⟨exceeds, Or.inl rfl⟩

theorem ofOffset (last capacity : Nat) :
    Measures capacity (last ≤ maxOffset) (shortage? last maxOffset) where
  none_iff := shortage?_eq_none_iff
  genuine := by
    intro shortage found
    obtain ⟨exceeds, rfl⟩ := shortage?_eq_some_iff.mp found
    exact ⟨exceeds, Or.inr rfl⟩

end Measures

/-- Committing a slot measures the offsets of the array. -/
theorem Slots.measures_commit (capacity : Nat) (sizes : List Nat) :
    Measures capacity (offsetsFit capacity sizes.length sizes.sum)
      (Slots.commitShortage? capacity sizes) :=
  (Measures.ofCapacity _ _).or (Measures.ofOffset _ _)

private theorem ByteStrings.measures_write (capacity : Nat) (values : List ByteArray) :
    Measures capacity (stringsFit capacity values) (writeShortage? capacity values) :=
  ((Measures.ofCapacity _ _).or ((Measures.ofCapacity _ _).or (Measures.ofOffset _ _))).congr
    ⟨fun ⟨data, offsets⟩ => ⟨offsets, data⟩, fun ⟨offsets, data⟩ => ⟨data, offsets⟩⟩

/-- Writing a scalar measures the whole buffer of the column. -/
theorem ScalarType.measures_write (capacity : Nat) (type : ScalarType) (values : List Scalar) :
    Measures capacity (type.Fits capacity values) (type.writeShortage? capacity values) := by
  cases type with
  | string => exact ByteStrings.measures_write capacity _
  | bytes => exact ByteStrings.measures_write capacity _
  | _ => exact Measures.ofCapacity _ _

private theorem ByteStrings.measures_pad {capacity : Nat} {values : List ByteArray}
    (room : values = [] ∨ stringsFit capacity values) :
    Measures capacity (stringsFit capacity (values ++ [.empty]))
      (Columnar.shortage? ((values.length + 2) * offsetBytes) capacity) := by
  have data : (values.map ByteArray.size).sum ≤ capacity ∧
      (values.map ByteArray.size).sum ≤ maxOffset := by
    rcases room with rfl | ⟨⟨_, small⟩, within⟩
    · exact ⟨Nat.zero_le _, Nat.zero_le _⟩
    · exact ⟨within, small⟩
  refine (Measures.ofCapacity _ _).congr ?_
  have two : values.length + 1 + 1 = values.length + 2 := rfl
  unfold stringsFit offsetsFit
  simp only [two, List.map_append, List.sum_append, List.length_append, List.map_cons, List.map_nil,
    List.length_singleton, List.sum_cons, List.sum_nil, ByteArray.size_empty]
  omega

private theorem ByteStrings.measures_pad_map {capacity : Nat} {values : List Scalar}
    {read : Scalar → ByteArray} {blank : Scalar} (reads : read blank = .empty)
    (room : values = [] ∨ stringsFit capacity (values.map read)) :
    Measures capacity (stringsFit capacity ((values ++ [blank]).map read))
      (Columnar.shortage? ((values.length + 2) * offsetBytes) capacity) := by
  rw [← List.map_eq_nil_iff (f := read)] at room
  have measured := ByteStrings.measures_pad room
  rwa [List.length_map, ← reads, ← List.map_singleton, ← List.map_append] at measured

/-- Padding measures only what the blank value needs. With room for what there is, that is all. -/
theorem ScalarType.measures_pad {capacity : Nat} {type : ScalarType} {values : List Scalar}
    (room : values = [] ∨ type.Fits capacity values) :
    Measures capacity (type.Fits capacity (values ++ [type.blank]))
      (type.padShortage? capacity (values.length + 1)) := by
  have lengths : (values ++ [type.blank]).length = values.length + 1 := by simp
  cases type with
  | string => exact ByteStrings.measures_pad_map rfl room
  | bytes => exact ByteStrings.measures_pad_map rfl room
  | _ =>
    simp only [ScalarType.Fits, lengths]
    exact Measures.ofCapacity _ _

end Columnar
