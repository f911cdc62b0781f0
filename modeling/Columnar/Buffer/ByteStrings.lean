import Columnar.Buffer.Offsets
import Columnar.Value

/-!
# Byte strings

A buffer of values of any length: all bytes one after the other, and offsets that say where each
value ends and the next begins. Values are appended; writing at an index that has a value drops
that value and all after it. An index is not checked against anything but the capacity: of the
largest ones the sizes wrap around, and a buffer can then be left with no offsets, or with one that
begins behind its bytes. What becomes of such a buffer is told as far as it is not out of bounds.
-/

namespace Columnar

/-- A buffer of byte strings. Value `i` is the data from offset `i` to offset `i + 1`, and the data
and the offsets are each limited to `capacity` bytes. -/
structure ByteStrings where
  capacity : Nat
  offsets : Array Nat
  data : ByteArray
  deriving DecidableEq

namespace ByteStrings

/-- A buffer without values. Its one offset is where the first value will begin. -/
def empty (capacity : Nat) : ByteStrings :=
  ⟨capacity, #[0], .empty⟩

/-- The number of values. -/
def count (strings : ByteStrings) : Nat :=
  countOf strings.offsets

/-- The end of the last value. -/
def lastOffset (strings : ByteStrings) : Nat :=
  endOf strings.offsets

/-- Where a value written at an index begins: at the start of the value there, else after the last
value. -/
def start (strings : ByteStrings) (index : Nat) : Nat :=
  if index < strings.count then strings.offsets[index]?.getD 0 else strings.lastOffset

/-- The value at an index. -/
def get? (strings : ByteStrings) (index : Nat) : Option ByteArray :=
  match strings.offsets[index]?, strings.offsets[index + 1]? with
  | some first, some last => some (strings.data.extract first last)
  | _, _ => none

/-- All values in order. -/
def values (strings : ByteStrings) : Array ByteArray :=
  (Array.range strings.count).filterMap strings.get?

/-- The bytes in use by the larger of the two parts. -/
def bytes (strings : ByteStrings) : Nat :=
  max strings.data.size (strings.offsets.size * offsetBytes)

/-- Drops every value from the index `count` on, with its data. -/
def truncate (strings : ByteStrings) (count : Nat) : ByteStrings :=
  if count < strings.count then
    match strings with
    | ⟨capacity, offsets, data⟩ =>
        let kept := offsets.shrink (count + 1)
        ⟨capacity, kept, data.extract 0 (endOf kept)⟩
  else strings

/-- Drops all values. -/
def reset (strings : ByteStrings) : ByteStrings :=
  empty strings.capacity

/-- Appends empty values up to `count` values. -/
def pad (strings : ByteStrings) (count : Nat) : ByteStrings :=
  { strings with offsets := resize strings.offsets count }

/-- Appends one value that ends at the offset `last`. -/
def push (strings : ByteStrings) (value : ByteArray) (last : Nat) : ByteStrings :=
  ⟨strings.capacity, strings.offsets.push last, strings.data ++ value⟩

/-- Puts a value at an index as the last one: what was there and after it is dropped, and a gap
before it becomes empty values. -/
def put (strings : ByteStrings) (index : Nat) (value : ByteArray) : ByteStrings :=
  let last := strings.start index + value.size
  if index < strings.count then (strings.truncate index).push value last
  else (strings.pad index).push value last

/-- The shortage that a value of `length` bytes meets at an index. The data is measured first, then
the offsets, and last the new offset itself. -/
def shortage? (strings : ByteStrings) (index length : Nat) : Option Shortage :=
  let last := strings.start index + length
  (Columnar.shortage? last strings.capacity).or <|
    (Columnar.shortage? (offsetsSize strings.offsets (index + 1)) strings.capacity).or <|
      Columnar.shortage? last maxOffset

/-- Writes a value at an index if what is stored afterwards fits. -/
def set (strings : ByteStrings) (index : Nat) (value : ByteArray) :
    ByteStrings × Option Shortage :=
  match strings.shortage? index value.size with
  | some shortage => (strings, some shortage)
  | none => (strings.put index value, none)

/-- Pads with empty values up to `count` values if the offsets fit. A buffer that has as many is
left alone. -/
def fill (strings : ByteStrings) (count : Nat) : ByteStrings × Option Shortage :=
  if strings.count < count then
    match Columnar.shortage? (offsetsSize strings.offsets count) strings.capacity with
    | some shortage => (strings, some shortage)
    | none => (strings.pad count, none)
  else (strings, none)

end ByteStrings

end Columnar
