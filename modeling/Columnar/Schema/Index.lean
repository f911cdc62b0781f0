import Columnar.Schema.Check

/-!
# Schemas with a name index

A schema is built together with an index of its names, so that a column is found by its name without
looking through the others.
-/

namespace Columnar

/-- A schema with the name index that it was built with. The tuples below it are kept without
theirs, which is a function of their columns (`nameIndex?`). -/
structure IndexedSchema where
  columns : Schema
  index : NameIndex
  deriving DecidableEq

/-- The columns of one tuple with their name index, taking the tuples below them as already
checked. -/
def Schema.indexed? (schema : Schema) : Except SchemaError IndexedSchema := do
  let index ← schema.nameIndex?
  pure ⟨schema, index⟩

namespace IndexedSchema

/-- The schema of a list of columns whose own schemas are already checked. -/
def ofColumns? (columns : List Column) : Except SchemaError IndexedSchema :=
  (Schema.ofList columns).indexed?

/-- The position of the column with a name, or the mismatch that there is none. -/
def resolve (schema : IndexedSchema) (name : String) : Except Mismatch Nat :=
  match schema.index.lookup name with
  | some position => .ok position
  | none => .error (.noSuchColumn name)

/-- The column at a position, or the mismatch that the position is out of range. -/
def column (schema : IndexedSchema) (position : Nat) : Except Mismatch Column :=
  schema.columns.column position

/-- The position an index points at. -/
def position (schema : IndexedSchema) : ColumnIndex → Except Mismatch Nat
  | .name sought => schema.resolve sought
  | .position sought => (schema.column sought).map fun _ => sought

end IndexedSchema

end Columnar
