import Columnar.Buffer.Capacity
import Columnar.Value

/-!
# Cells

A buffer of values that all take the same room: numbers, and booleans of one bit each. A value is
written at any index; a gap before it is padded with blanks, and a value already there is replaced.
Sizes are exact: cells up to an index whose size no machine word holds cannot be had at all.
-/

namespace Columnar

/-- What a buffer of cells has to know of its values. -/
class Cell (α : Type) where
  /-- The value of a cell nothing was written to. -/
  blank : α
  /-- The bytes that a number of cells take. -/
  bytesFor : Nat → Nat

instance : Cell Int32 where
  blank := 0
  bytesFor count := count * 4

instance : Cell Int64 where
  blank := 0
  bytesFor count := count * 8

instance : Cell Double where
  blank := .zero
  bytesFor count := count * 8

instance : Cell Bool where
  blank := false
  bytesFor count := (count + 7) / 8

/-- A buffer of cells, limited to `capacity` bytes. -/
structure Cells (α : Type) where
  capacity : Nat
  values : Array α
  deriving DecidableEq

namespace Cells

variable {α : Type}

/-- A buffer without values. -/
def empty (capacity : Nat) : Cells α :=
  ⟨capacity, #[]⟩

/-- The number of values. -/
def count (cells : Cells α) : Nat :=
  cells.values.size

/-- The value at an index. -/
def get? (cells : Cells α) (index : Nat) : Option α :=
  cells.values[index]?

/-- Drops every value from the index `count` on. -/
def truncate (cells : Cells α) (count : Nat) : Cells α :=
  { cells with values := cells.values.shrink count }

/-- Drops all values. -/
def reset (cells : Cells α) : Cells α :=
  empty cells.capacity

variable [Cell α]

/-- The bytes in use. -/
def bytes (cells : Cells α) : Nat :=
  Cell.bytesFor α cells.count

/-- Appends blanks up to `count` values. -/
def pad (cells : Cells α) (count : Nat) : Cells α :=
  { cells with
    values := cells.values ++ Array.replicate (count - cells.values.size) Cell.blank }

/-- Replaces the value at an index, or pads up to the index and appends the value. -/
def put (cells : Cells α) (index : Nat) (value : α) : Cells α :=
  if index < cells.count then { cells with values := cells.values.setIfInBounds index value }
  else
    let padded := cells.pad index
    { padded with values := padded.values.push value }

/-- Writes a value at an index if the values there are afterwards fit. -/
def set (cells : Cells α) (index : Nat) (value : α) : Cells α × Option Shortage :=
  match shortage? (Cell.bytesFor α (max cells.count (index + 1))) cells.capacity with
  | some shortage => (cells, some shortage)
  | none => (cells.put index value, none)

/-- Pads with blanks up to `count` values if these fit. A buffer that has as many is left alone. -/
def fill (cells : Cells α) (count : Nat) : Cells α × Option Shortage :=
  if cells.count < count then
    match shortage? (Cell.bytesFor α count) cells.capacity with
    | some shortage => (cells, some shortage)
    | none => (cells.pad count, none)
  else (cells, none)

end Cells

end Columnar
