import Columnar.Batch.Assembly

/-!
# Refusals

Every reason for which an operation on a draft, a sealed set or a reader is refused. A refusal
names its cause; its message is derived from it.
-/

namespace Columnar

/-- A write that goes past a limit. -/
inductive Overflow where
  /-- The batch has as many rows as it may have. -/
  | rowLimit (rows : Nat)
  /-- A buffer of the column would need more bytes than it may have. -/
  | buffer (column : String) (requested capacity : Nat)
  deriving DecidableEq

namespace Overflow

/-- The message of an overflow. -/
def message : Overflow → String
  | .rowLimit rows => s!"row overflow: batch is limited to {rows} rows"
  | .buffer column requested capacity =>
      s!"buffer overflow on column `{column}`: {requested} bytes requested, capacity is {capacity}"

end Overflow

/-- A call at the wrong time or place. -/
inductive Misuse where
  /-- A write after the batch was sealed. -/
  | sealed
  /-- A second attempt to seal the batch. -/
  | alreadyDone
  /-- The buffers were given up. -/
  | released
  /-- A read while the reader is on no row. -/
  | noCurrentRow
  /-- A jump past the last row. -/
  | rowOutOfRange (index rows : Nat)
  /-- An element index past the end of the current array. -/
  | elementOutOfRange (index size : Nat)
  deriving DecidableEq

namespace Misuse

/-- The message of a misuse. -/
def message : Misuse → String
  | .sealed => "row set is sealed; no further writes are accepted"
  | .alreadyDone => "done() was already called"
  | .released => "row set buffers were released"
  | .noCurrentRow => "reader is not positioned on a row"
  | .rowOutOfRange index rows => s!"row {index} out of range (rows={rows})"
  | .elementOutOfRange index size => s!"element {index} out of range (size={size})"

end Misuse

/-- Why columns do not follow a schema. -/
inductive BindingError where
  /-- A tuple has more or fewer columns than its schema. -/
  | columnCount (path : String) (expected found : Nat)
  /-- A scalar column has another type. -/
  | scalarType (path : String) (found expected : Arrow.DataType)
  /-- The column of an array is no list. -/
  | notList (path : String)
  /-- The column of a tuple is no struct. -/
  | notStruct (path : String)
  /-- A chosen column is not there. -/
  | projection (position columns : Nat)
  deriving DecidableEq

namespace BindingError

/-- The text of a binding error. -/
def text : BindingError → String
  | .columnCount path expected found =>
      s!"expected {expected} columns under `{path}`, found {found}"
  | .scalarType path found expected =>
      s!"column `{path}` has type {found.text}, expected {expected.text}"
  | .notList path => s!"column `{path}` is not a list"
  | .notStruct path => s!"column `{path}` is not a struct"
  | .projection position columns =>
      s!"project index {position} out of bounds, max field {columns}"

/-- The message of a binding error. -/
def message (error : BindingError) : String :=
  "Schema error: " ++ error.text

end BindingError

/-- Why an operation is refused. -/
inductive Refusal where
  | mismatch (mismatch : Mismatch)
  | overflow (overflow : Overflow)
  | misuse (misuse : Misuse)
  | assembly (error : AssemblyError)
  | binding (error : BindingError)
  /-- A look-up past the end of stored data. -/
  | outOfBounds (index length : Nat)
  deriving DecidableEq

namespace Refusal

/-- The message of a refusal. -/
def message : Refusal → String
  | .mismatch cause => "schema mismatch: " ++ cause.message
  | .overflow cause => cause.message
  | .misuse cause => "protocol misuse: " ++ cause.message
  | .assembly cause => "arrow error: " ++ cause.message
  | .binding cause => "arrow error: " ++ cause.message
  | .outOfBounds index length => s!"index {index} out of bounds, length {length}"

end Refusal

end Columnar
