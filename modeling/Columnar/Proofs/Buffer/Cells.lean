import Columnar.Buffer.Cells
import Columnar.Proofs.Buffer.Operations

/-!
# Cells as lists

A buffer of cells is the list of its values. Each operation is told by what it does to that list.
-/

namespace Columnar

namespace Cells

variable {α : Type}

/-- The buffer that holds the values of a list. -/
def ofList (capacity : Nat) (values : List α) : Cells α :=
  ⟨capacity, values.toArray⟩

@[simp] theorem capacity_ofList (capacity : Nat) (values : List α) :
    (ofList capacity values).capacity = capacity := rfl

@[simp] theorem count_ofList (capacity : Nat) (values : List α) :
    (ofList capacity values).count = values.length := by
  simp [count, ofList]

/-- Cutting a buffer keeps the first values. -/
@[simp] theorem truncate_ofList (capacity count : Nat) (values : List α) :
    (ofList capacity values).truncate count = ofList capacity (values.take count) := by
  simp [truncate, ofList]

variable [Cell α]

/-- What so many values are refused for. -/
def shortage? (α : Type) [Cell α] (capacity count : Nat) : Option Shortage :=
  Columnar.shortage? (Cell.bytesFor α count) capacity

/-- Padding appends blanks to the list. -/
@[simp] theorem pad_ofList (capacity count : Nat) (values : List α) :
    (ofList capacity values).pad count = ofList capacity (padTo Cell.blank count values) := by
  simp [pad, ofList, padTo]

/-- Writing replaces what is there, or appends to the list with blanks in between, unless there is
no room. -/
theorem set_ofList (capacity : Nat) (values : List α) (index : Nat) (value : α) :
    (ofList capacity values).set index value =
      guarded (shortage? α capacity (max values.length (index + 1)))
        (ofList capacity values) (ofList capacity (replaceAt Cell.blank values index value)) := by
  have written : (ofList capacity values).put index value =
      ofList capacity (replaceAt Cell.blank values index value) := by
    rw [put, count_ofList, replaceAt]
    split
    · simp [ofList]
    · rename_i beyond
      rw [cutAt_of_ge Cell.blank (Nat.not_lt.mp beyond), pad_ofList]
      simp [ofList]
  unfold set shortage?
  rw [count_ofList, capacity_ofList, written]
  cases Columnar.shortage? (Cell.bytesFor α (max values.length (index + 1))) capacity <;> rfl

/-- Filling pads the list with blanks, unless there is no room; only what is too short needs any. -/
theorem fill_ofList (capacity count : Nat) (values : List α) :
    (ofList capacity values).fill count =
      guarded (if values.length < count then shortage? α capacity count else none)
        (ofList capacity values) (ofList capacity (padTo Cell.blank count values)) := by
  unfold fill shortage?
  rw [count_ofList, capacity_ofList, pad_ofList]
  split
  · cases Columnar.shortage? (Cell.bytesFor α count) capacity <;> rfl
  · rename_i enough
    rw [padTo_of_le Cell.blank (Nat.not_lt.mp enough)]
    rfl

end Cells

end Columnar
