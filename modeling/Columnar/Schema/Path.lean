import Columnar.Schema.Basic

/-!
# Paths

Ways from the row down to a column, step by step: into a column of a tuple, or into the entry of an
array. Messages name a column by the names on the way to it; the entry of an array has no name of
its own.
-/

namespace Columnar

/-- One step of the way to a column. -/
inductive Step where
  /-- From a tuple to one of its columns. -/
  | column (index : ColumnIndex)
  /-- From an array to its entry. -/
  | entry
  deriving DecidableEq

/-- The text that names a column below the column that `parent` names. Below the empty text a name
stands alone. -/
def childPath (parent name : String) : String :=
  if parent.isEmpty then name else parent ++ "." ++ name

end Columnar
