import Columnar.Buffer.ScalarBuffer
import Columnar.Buffer.Slots

/-!
# Buffers

One buffer per column of a schema: values for a scalar, slots for an array, and for a tuple the
count that its columns share. Arrays and tuples name the buffers of their parts by number.
-/

namespace Columnar

/-- Why a buffer refuses a value. -/
inductive BufferError where
  /-- The buffer of a scalar column refuses it. -/
  | refused (error : WriteError)
  /-- The column is not a scalar. -/
  | noScalars (given : ScalarType)
  deriving DecidableEq

/-- The message of a refused value. -/
def BufferError.message : BufferError → String
  | .refused (.shortage shortage) => shortage.message
  | .refused (.wrongType held given) =>
      s!"vector holds Some({held.name}) values, got {given.name}"
  | .noScalars given => s!"vector holds None values, got {given.name}"

/-- The buffer of one column. -/
inductive Buffer where
  | scalar (values : ScalarBuffer)
  /-- The slots of an array whose elements are in the buffer `entry`. -/
  | slots (entry : Nat) (slots : Slots)
  /-- The count of a tuple whose columns are in the buffers `children`. -/
  | group (names : List String) (children : List Nat) (count : Nat)
  deriving DecidableEq

namespace Buffer

/-- The empty buffer of a scalar column. -/
def ofType (type : ScalarType) (capacity : Nat) : Buffer :=
  .scalar (.ofType type capacity)

/-- The buffer of an array without slots. -/
def ofEntry (entry capacity : Nat) : Buffer :=
  .slots entry (.empty capacity)

/-- The buffer of a tuple without values. -/
def ofChildren (names : List String) (children : List Nat) : Buffer :=
  .group names children 0

/-- The scalar type of the values, for a scalar column. -/
def type? : Buffer → Option ScalarType
  | .scalar values => some values.type
  | _ => none

/-- The buffers of the parts, in order. -/
def children : Buffer → List Nat
  | .scalar _ => []
  | .slots entry _ => [entry]
  | .group _ parts _ => parts

/-- The number of values or slots. -/
def count : Buffer → Nat
  | .scalar values => values.count
  | .slots _ ends => ends.count
  | .group _ _ shared => shared

/-- The bytes in use. A tuple has no bytes of its own. -/
def usedBytes : Buffer → Nat
  | .scalar values => values.usedBytes
  | .slots _ ends => ends.bytes
  | .group _ _ _ => 0

/-- The limit in bytes. A tuple has none. -/
def capacity? : Buffer → Option Nat
  | .scalar values => some values.capacity
  | .slots _ ends => some ends.capacity
  | .group _ _ _ => none

/-- Whether the bytes in use have reached the limit. -/
def isExhausted (buffer : Buffer) : Bool :=
  match buffer.capacity? with
  | some limit => limit ≤ buffer.usedBytes
  | none => false

/-- Writes a scalar at an index. Only a scalar column takes one. -/
def set (buffer : Buffer) (index : Nat) (value : Scalar) : Buffer × Option BufferError :=
  match buffer with
  | .scalar values =>
      let (values, error) := values.set index value
      (.scalar values, error.map .refused)
  | buffer => (buffer, some (.noScalars value.type))

/-- Pads up to `total` values or slots. The count of a tuple is raised without limit. -/
def fill (buffer : Buffer) (total : Nat) : Buffer × Option Shortage :=
  match buffer with
  | .scalar values =>
      let (values, shortage) := values.fill total
      (.scalar values, shortage)
  | .slots entry ends =>
      let (ends, shortage) := ends.fill total
      (.slots entry ends, shortage)
  | .group names parts shared => (.group names parts (max shared total), none)

/-- Drops every value or slot from `total` on. -/
def truncate (total : Nat) : Buffer → Buffer
  | .scalar values => .scalar (values.truncate total)
  | .slots entry ends => .slots entry (ends.truncate total)
  | .group names parts shared => .group names parts (min shared total)

/-- Drops all values or slots. -/
def reset : Buffer → Buffer
  | .scalar values => .scalar values.reset
  | .slots entry ends => .slots entry ends.reset
  | .group names parts _ => .group names parts 0

/-- Hands the values over as column data, given the data of the parts, and leaves the buffer empty.
A buffer that gets as far as putting its column together is empty even when that fails. -/
def freeze (buffer : Buffer) (parts : List ColumnData) :
    Buffer × Except AssemblyError ColumnData :=
  match buffer with
  | .scalar values => (.scalar values.reset, values.toLeaf?.map .leaf)
  | .slots entry ends =>
      match parts with
      | [] => (.slots entry ends, .error .noItems)
      | items :: _ => (.slots entry ends.reset, ColumnData.ofItems? ends.offsets items)
  | .group names ids _ => (.group names ids 0, ColumnData.ofColumns? names parts)

end Buffer

end Columnar
