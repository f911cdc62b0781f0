import Columnar.Buffer.ByteStrings
import Columnar.Buffer.Cells
import Columnar.Batch.Assembly

/-!
# Scalar buffers

The buffer of a scalar column of any type. Integers are also taken by a buffer of longs; every
other value has to be of the type of the buffer.
-/

namespace Columnar

/-- Why the buffer of a scalar column refuses a value. -/
inductive WriteError where
  /-- There is not enough room. -/
  | shortage (shortage : Shortage)
  /-- The value is of another type than the column. -/
  | wrongType (held given : ScalarType)
  deriving DecidableEq

/-- The buffer of a scalar column. -/
inductive ScalarBuffer where
  | int (cells : Cells Int32)
  | long (cells : Cells Int64)
  | double (cells : Cells Double)
  | bool (cells : Cells Bool)
  | string (strings : ByteStrings)
  | bytes (strings : ByteStrings)
  deriving DecidableEq

namespace ByteStrings

/-- The values as those of a sealed column. The offsets must be in order, and the last one must lie
within the bytes. -/
def toBytes? (strings : ByteStrings) : Except AssemblyError (Array ByteArray) :=
  if disordered strings.offsets then .error .decreasingOffsets
  else if strings.data.size < strings.lastOffset then
    .error (.offsetPastBytes strings.lastOffset strings.data.size)
  else .ok strings.values

/-- The values as those of a sealed text column. The offsets must be in order, all bytes together
must be a text, and every offset must be at a character of it or at its end. -/
def toTexts? (strings : ByteStrings) : Except AssemblyError (Array String) :=
  if disordered strings.offsets then .error .decreasingOffsets
  else
    match String.fromUTF8? strings.data with
    | none => .error .notText
    | some text =>
        match strings.offsets.find? fun offset => !String.Pos.Raw.isValid text ⟨offset⟩ with
        | some offset =>
            .error (if offset < strings.data.size then .splitText offset
              else .offsetPastText offset strings.data.size)
        | none =>
            match strings.values.mapM String.fromUTF8? with
            | some texts => .ok texts
            | none => .error .notText

end ByteStrings

namespace ScalarBuffer

/-- The empty buffer for a scalar type. -/
def ofType (type : ScalarType) (capacity : Nat) : ScalarBuffer :=
  match type with
  | .integer => .int (.empty capacity)
  | .long => .long (.empty capacity)
  | .double => .double (.empty capacity)
  | .boolean => .bool (.empty capacity)
  | .string => .string (.empty capacity)
  | .bytes => .bytes (.empty capacity)

/-- The scalar type of the values. -/
def type : ScalarBuffer → ScalarType
  | .int _ => .integer
  | .long _ => .long
  | .double _ => .double
  | .bool _ => .boolean
  | .string _ => .string
  | .bytes _ => .bytes

/-- The number of values. -/
def count : ScalarBuffer → Nat
  | .int cells => cells.count
  | .long cells => cells.count
  | .double cells => cells.count
  | .bool cells => cells.count
  | .string strings => strings.count
  | .bytes strings => strings.count

/-- The bytes in use. -/
def usedBytes : ScalarBuffer → Nat
  | .int cells => cells.bytes
  | .long cells => cells.bytes
  | .double cells => cells.bytes
  | .bool cells => cells.bytes
  | .string strings => strings.bytes
  | .bytes strings => strings.bytes

/-- The limit in bytes. -/
def capacity : ScalarBuffer → Nat
  | .int cells => cells.capacity
  | .long cells => cells.capacity
  | .double cells => cells.capacity
  | .bool cells => cells.capacity
  | .string strings => strings.capacity
  | .bytes strings => strings.capacity

/-- Whether the bytes in use have reached the limit. -/
def isExhausted (buffer : ScalarBuffer) : Bool :=
  buffer.capacity ≤ buffer.usedBytes

/-- The value stored at an index. A text is stored as its UTF-8 bytes. -/
def stored? (buffer : ScalarBuffer) (index : Nat) : Option Scalar :=
  match buffer with
  | .int cells => (cells.get? index).map .int
  | .long cells => (cells.get? index).map .long
  | .double cells => (cells.get? index).map .double
  | .bool cells => (cells.get? index).map .bool
  | .string strings => (strings.get? index).map .bytes
  | .bytes strings => (strings.get? index).map .bytes

/-- Writes a value at an index. The type is compared before any room is measured. -/
def set (buffer : ScalarBuffer) (index : Nat) (value : Scalar) :
    ScalarBuffer × Option WriteError :=
  match buffer, value with
  | .int cells, .int value =>
      let (cells, shortage) := cells.set index value
      (.int cells, shortage.map .shortage)
  | .long cells, .long value =>
      let (cells, shortage) := cells.set index value
      (.long cells, shortage.map .shortage)
  | .long cells, .int value =>
      let (cells, shortage) := cells.set index value.toInt64
      (.long cells, shortage.map .shortage)
  | .double cells, .double value =>
      let (cells, shortage) := cells.set index value
      (.double cells, shortage.map .shortage)
  | .bool cells, .bool value =>
      let (cells, shortage) := cells.set index value
      (.bool cells, shortage.map .shortage)
  | .string strings, .string value =>
      let (strings, shortage) := strings.set index value.toUTF8
      (.string strings, shortage.map .shortage)
  | .bytes strings, .bytes value =>
      let (strings, shortage) := strings.set index value
      (.bytes strings, shortage.map .shortage)
  | buffer, value => (buffer, some (.wrongType buffer.type value.type))

/-- Pads with the defaults of the type up to `count` values: zero, false, or empty. -/
def fill (buffer : ScalarBuffer) (count : Nat) : ScalarBuffer × Option Shortage :=
  match buffer with
  | .int cells =>
      let (cells, shortage) := cells.fill count
      (.int cells, shortage)
  | .long cells =>
      let (cells, shortage) := cells.fill count
      (.long cells, shortage)
  | .double cells =>
      let (cells, shortage) := cells.fill count
      (.double cells, shortage)
  | .bool cells =>
      let (cells, shortage) := cells.fill count
      (.bool cells, shortage)
  | .string strings =>
      let (strings, shortage) := strings.fill count
      (.string strings, shortage)
  | .bytes strings =>
      let (strings, shortage) := strings.fill count
      (.bytes strings, shortage)

/-- Drops every value from the index `count` on. -/
def truncate (count : Nat) : ScalarBuffer → ScalarBuffer
  | .int cells => .int (cells.truncate count)
  | .long cells => .long (cells.truncate count)
  | .double cells => .double (cells.truncate count)
  | .bool cells => .bool (cells.truncate count)
  | .string strings => .string (strings.truncate count)
  | .bytes strings => .bytes (strings.truncate count)

/-- Drops all values. -/
def reset : ScalarBuffer → ScalarBuffer
  | .int cells => .int cells.reset
  | .long cells => .long cells.reset
  | .double cells => .double cells.reset
  | .bool cells => .bool cells.reset
  | .string strings => .string strings.reset
  | .bytes strings => .bytes strings.reset

/-- The values as a sealed column. Texts are read back from their bytes. -/
def toLeaf? : ScalarBuffer → Except AssemblyError Leaf
  | .int cells => .ok (.int cells.values)
  | .long cells => .ok (.long cells.values)
  | .double cells => .ok (.double cells.values)
  | .bool cells => .ok (.bool cells.values)
  | .string strings => strings.toTexts?.map .string
  | .bytes strings => strings.toBytes?.map .bytes

end ScalarBuffer

end Columnar
