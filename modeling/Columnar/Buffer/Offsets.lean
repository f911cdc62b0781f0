import Columnar.Buffer.Capacity
import Columnar.Word

/-!
# Offsets

Values of different sizes are stored one after the other, with one more offset than there are
values: where each begins, and where the last one ends. How many values there are and how many bytes
their offsets take is counted in machine words.
-/

namespace Columnar

/-- A size that belongs to `total` values, where `stored` offsets are stored. It is exact as long as
no gap is left, for what is stored fits into memory; past a gap it is a machine word. -/
def sizePast (stored total size : Nat) : Nat :=
  if total ≤ stored then size else toWord size

/-- Without a gap a size is exact, and so it is if a machine word holds it. -/
theorem sizePast_eq {stored total size : Nat} (small : total ≤ stored ∨ size < wordRange) :
    sizePast stored total size = size := by
  rw [sizePast]
  split
  · rfl
  · exact toWord_of_lt (small.resolve_left ‹_›)

/-- The number of values that there are offsets for. If there is no offset at all, the difference
wraps around to the largest machine word. -/
def countOf (offsets : Array Nat) : Nat :=
  match offsets.size with
  | 0 => wordRange - 1
  | values + 1 => values

theorem countOf_of_size {offsets : Array Nat} {values : Nat} (size : offsets.size = values + 1) :
    countOf offsets = values := by
  rw [countOf, size]

/-- Where there are offsets, there is one more of them than values. -/
theorem size_eq_countOf_succ {offsets : Array Nat} (begun : offsets ≠ #[]) :
    offsets.size = countOf offsets + 1 := by
  have some : 0 < offsets.size := Array.size_pos_iff.mpr begun
  have counted : countOf offsets = offsets.size - 1 := countOf_of_size (by omega)
  omega

/-- The last offset, where the last value ends. -/
def endOf (offsets : Array Nat) : Nat :=
  offsets.back?.getD 0

/-- The bytes of the offsets of so many values. -/
def offsetsSize (offsets : Array Nat) (total : Nat) : Nat :=
  sizePast offsets.size total ((total + 1) * offsetBytes)

/-- Whether the size of the offsets of `total` values is exact where `stored` offsets are stored,
because they leave no gap or because a machine word holds it. -/
def Exact (stored total : Nat) : Prop :=
  total ≤ stored ∨ (total + 1) * offsetBytes < wordRange

/-- Where one more value is measured exactly, so are the values before it. -/
theorem Exact.of_succ {stored total : Nat} (exact : Exact stored (total + 1)) :
    Exact stored total := by
  refine exact.imp (fun next => by omega) fun small => ?_
  unfold offsetBytes at *
  omega

theorem offsetsSize_eq {offsets : Array Nat} {total : Nat} (exact : Exact offsets.size total) :
    offsetsSize offsets total = (total + 1) * offsetBytes :=
  sizePast_eq exact

/-- How many offsets so many values have. It is a machine word, so that the largest number of values
has none. -/
def offsetsFor (offsets : Array Nat) (total : Nat) : Nat :=
  sizePast offsets.size total (total + 1)

theorem offsetsFor_eq {offsets : Array Nat} {total : Nat} (exact : Exact offsets.size total) :
    offsetsFor offsets total = total + 1 := by
  refine sizePast_eq (exact.imp_right fun small => ?_)
  unfold offsetBytes at small
  omega

/-- The offsets of so many values: those that there are, cut off, or followed by more of the last
one. -/
def resize (offsets : Array Nat) (total : Nat) : Array Nat :=
  let size := offsetsFor offsets total
  offsets.shrink size ++ Array.replicate (size - offsets.size) (endOf offsets)

/-- More values get their offsets behind those that there are. -/
theorem resize_eq {offsets : Array Nat} {total : Nat} (exact : Exact offsets.size total)
    (more : offsets.size ≤ total + 1) :
    resize offsets total =
      offsets ++ Array.replicate (total + 1 - offsets.size) (endOf offsets) := by
  rw [resize, offsetsFor_eq exact, Array.shrink_eq_take, Array.take_eq_extract,
    Array.extract_eq_self_of_le more]

end Columnar
