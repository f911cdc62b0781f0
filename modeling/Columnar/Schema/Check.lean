import Columnar.Schema.Basic
import Columnar.Arrow.DataType

/-!
# Checking schemas

A schema is well formed when the names of each tuple differ and no tuple below the root is empty.
Checks run from the inside out and from left to right, and the first fault found is the one
reported. The names of a tuple are entered into an index while they are checked.
-/

namespace Columnar

/-- Why a list of columns is no schema. -/
inductive SchemaError where
  /-- Two columns of one tuple share the name. -/
  | duplicateColumn (name : String)
  /-- The column is a tuple without columns, or an array of such. -/
  | emptyTuple (name : String)
  /-- No column type corresponds to the Arrow type of the column. -/
  | unsupportedType (name : String) (type : Arrow.DataType)
  deriving DecidableEq

namespace SchemaError

/-- The message of a schema error. -/
def message : SchemaError → String
  | .duplicateColumn name => s!"duplicate column name: {name}"
  | .emptyTuple name => s!"tuple column `{name}` has no columns"
  | .unsupportedType name type => s!"unsupported data type for column `{name}`: {type.text}"

end SchemaError

/-- Whether a column type is an empty tuple, directly or below arrays. -/
def ColumnType.isHollow : ColumnType → Bool
  | .scalar _ => false
  | .array element => element.isHollow
  | .tuple columns => columns.isEmpty

/-- The positions of columns by their names. An entry hides those of its name behind it. -/
abbrev NameIndex := List (String × Nat)

namespace Schema

/-- Enters the columns of one tuple into a name index, from left to right, the first of them with
`position`. An empty tuple is reported before a name that is in the index already. -/
def indexAfter (index : NameIndex) (position : Nat) : Schema → Except SchemaError NameIndex
  | .nil => .ok index
  | .cons name type rest =>
      if type.isHollow then .error (.emptyTuple name)
      else if (index.lookup name).isSome then .error (.duplicateColumn name)
      else rest.indexAfter ((name, position) :: index) (position + 1)

/-- The name index of the columns of one tuple, taking the tuples below them as already checked. -/
def nameIndex? (schema : Schema) : Except SchemaError NameIndex :=
  schema.indexAfter [] 0

/-- Checks the columns of one tuple, taking the tuples below them as already checked. -/
def check (schema : Schema) : Except SchemaError Unit := do
  let _ ← schema.nameIndex?
  pure ()

/-- Columns are entered when the first one is no empty tuple and has a new name, and the others are
entered behind it. -/
theorem indexAfter_cons_eq_ok_iff {index after : NameIndex} {position : Nat} {name : String}
    {type : ColumnType} {rest : Schema} :
    (cons name type rest).indexAfter index position = .ok after ↔
      type.isHollow = false ∧ index.lookup name = none ∧
        rest.indexAfter ((name, position) :: index) (position + 1) = .ok after := by
  rw [indexAfter]
  cases hollow : type.isHollow with
  | true => simp
  | false => cases found : index.lookup name <;> simp

/-- Columns pass the check just when they have a name index. -/
theorem check_eq_ok_iff {schema : Schema} :
    schema.check = .ok () ↔ ∃ index, schema.nameIndex? = .ok index := by
  rw [check]
  cases entered : schema.nameIndex? with
  | ok index => exact ⟨fun _ => ⟨index, rfl⟩, fun _ => rfl⟩
  | error cause =>
    constructor
    · intro passed
      cases passed
    · rintro ⟨_, found⟩
      cases found

end Schema

mutual

/-- Checks every tuple below a column type, the innermost first. -/
def ColumnType.checkBelow : ColumnType → Except SchemaError Unit
  | .scalar _ => .ok ()
  | .array element => element.checkBelow
  | .tuple columns => do
      columns.checkBelow
      columns.check

/-- Checks every tuple below the columns of a schema, column by column. -/
def Schema.checkBelow : Schema → Except SchemaError Unit
  | .nil => .ok ()
  | .cons _ type rest => do
      type.checkBelow
      rest.checkBelow

end

/-- Checks a schema at every depth: first the tuples below its columns, then its own columns. -/
def Schema.checkAll (schema : Schema) : Except SchemaError Unit := do
  schema.checkBelow
  schema.check

end Columnar
