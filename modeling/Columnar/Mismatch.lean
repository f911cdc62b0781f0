import Columnar.Value

/-!
# Mismatches

What can be wrong about a request that names a column or a type: the column is not there, or it is
not what the request takes it for.
-/

namespace Columnar

/-- A request that does not agree with the schema. Columns are named by their path from the row,
the names joined by dots. -/
inductive Mismatch where
  /-- No column of the tuple has the name. -/
  | noSuchColumn (name : String)
  /-- The tuple has fewer columns than the position asks for. -/
  | columnOutOfRange (position columns : Nat)
  /-- The column has another shape than the one asked for. -/
  | wrongKind (column : String) (requested actual : Kind)
  /-- The scalar column holds another type than the one asked for. -/
  | wrongScalarType (column : String) (requested actual : ScalarType)
  deriving DecidableEq

namespace Mismatch

/-- The message of a mismatch. -/
def message : Mismatch → String
  | .noSuchColumn name => s!"no such column: {name}"
  | .columnOutOfRange position columns =>
      s!"column position {position} out of range (columns={columns})"
  | .wrongKind column requested actual =>
      s!"column `{column}` is {actual.name}, not {requested.name}"
  | .wrongScalarType column requested actual =>
      s!"column `{column}` holds {actual.name} values, not {requested.name}"

end Mismatch

end Columnar
