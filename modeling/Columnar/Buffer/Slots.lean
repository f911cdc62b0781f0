import Columnar.Buffer.Offsets

/-!
# Slots

The offsets of an array column. Slot `i` holds the elements from offset `i` to offset `i + 1` of
the entries, which are stored elsewhere. Slots are committed with their end; a slot that was
skipped is empty, and committing a slot anew drops the slots after it. Of the largest slot numbers
the sizes wrap around, and what was committed before can then be lost with all offsets.
-/

namespace Columnar

/-- The slots of an array column, their offsets limited to `capacity` bytes. -/
structure Slots where
  capacity : Nat
  offsets : Array Nat
  deriving DecidableEq

namespace Slots

/-- No slots. The one offset is where the first slot will begin. -/
def empty (capacity : Nat) : Slots :=
  ⟨capacity, #[0]⟩

/-- The number of slots. -/
def count (slots : Slots) : Nat :=
  countOf slots.offsets

/-- The end of the last slot. -/
def lastOffset (slots : Slots) : Nat :=
  endOf slots.offsets

/-- Where a slot begins, and the end of the slot before it. -/
def offset? (slots : Slots) (slot : Nat) : Option Nat :=
  slots.offsets[slot]?

/-- The bytes in use. -/
def bytes (slots : Slots) : Nat :=
  slots.offsets.size * offsetBytes

/-- Drops every slot from `count` on. -/
def truncate (slots : Slots) (count : Nat) : Slots :=
  if count < slots.count then { slots with offsets := slots.offsets.shrink (count + 1) } else slots

/-- Drops all slots. -/
def reset (slots : Slots) : Slots :=
  empty slots.capacity

/-- Appends empty slots up to `count` slots. -/
def pad (slots : Slots) (count : Nat) : Slots :=
  { slots with offsets := resize slots.offsets count }

/-- Pads with empty slots up to `count` slots if the offsets fit. Slots that are as many are left
alone. -/
def fill (slots : Slots) (count : Nat) : Slots × Option Shortage :=
  if slots.count < count then
    match shortage? (offsetsSize slots.offsets count) slots.capacity with
    | some shortage => (slots, some shortage)
    | none => (slots.pad count, none)
  else (slots, none)

/-- Ends `slot` at the entry index `last`, as the last slot there is. The offsets are measured
first, then the new offset itself. -/
def commit (slots : Slots) (slot last : Nat) : Slots × Option Shortage :=
  let size := offsetsSize slots.offsets (slot + 1)
  match (shortage? size slots.capacity).or (shortage? last maxOffset) with
  | some shortage => (slots, some shortage)
  | none =>
      let kept := offsetsFor slots.offsets slot
      match slots.fill slot with
      | (slots, some shortage) => (slots, some shortage)
      | (slots, none) => ({ slots with offsets := (slots.offsets.shrink kept).push last }, none)

end Slots

end Columnar
