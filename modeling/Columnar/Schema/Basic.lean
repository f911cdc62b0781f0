import Columnar.Mismatch

/-!
# Schemas

A schema is an ordered list of named columns, and a column is a scalar, an array of one element
type, or a tuple with a schema of its own. Columns are found by name or by position.
-/

namespace Columnar

mutual

/-- The type of a column. -/
inductive ColumnType where
  | scalar (type : ScalarType)
  | array (element : ColumnType)
  | tuple (columns : Schema)
  deriving DecidableEq

/-- The columns of a tuple, in order, each with its name. -/
inductive Schema where
  | nil
  | cons (name : String) (type : ColumnType) (rest : Schema)
  deriving DecidableEq

end

/-- One column of a schema. -/
structure Column where
  name : String
  type : ColumnType
  deriving DecidableEq

/-- A way to point at a column of a tuple. -/
inductive ColumnIndex where
  | name (name : String)
  | position (position : Nat)
  deriving DecidableEq

namespace ColumnIndex

/-- The mismatch of an index that no column of a tuple with `columns` columns answers to. -/
def missing (columns : Nat) : ColumnIndex → Mismatch
  | .name sought => .noSuchColumn sought
  | .position sought => .columnOutOfRange sought columns

end ColumnIndex

namespace ColumnType

/-- The shape of a column type. -/
def kind : ColumnType → Kind
  | .scalar _ => .scalar
  | .array _ => .array
  | .tuple _ => .tuple

/-- The scalar type of a scalar column. -/
def scalarType? : ColumnType → Option ScalarType
  | .scalar type => some type
  | _ => none

/-- The element type of an array column. -/
def element? : ColumnType → Option ColumnType
  | .array element => some element
  | _ => none

/-- The schema below a column: that of a tuple, or that of the elements of an array of tuples. -/
def childSchema? : ColumnType → Option Schema
  | .tuple columns => some columns
  | .array (.tuple columns) => some columns
  | _ => none

end ColumnType

namespace Schema

/-- The columns of a schema as a list. -/
def toList : Schema → List Column
  | .nil => []
  | .cons name type rest => ⟨name, type⟩ :: rest.toList

/-- The schema with the columns of a list. -/
def ofList : List Column → Schema
  | [] => .nil
  | column :: rest => .cons column.name column.type (ofList rest)

/-- The columns of a list come back in order. -/
@[simp] theorem toList_ofList (columns : List Column) : (ofList columns).toList = columns := by
  induction columns with
  | nil => rfl
  | cons column rest inductionHypothesis => simp [ofList, toList, inductionHypothesis]

/-- A schema is rebuilt from its columns. -/
@[simp] theorem ofList_toList (schema : Schema) : ofList schema.toList = schema := by
  match schema with
  | .nil => rfl
  | .cons name type rest => simp [ofList, toList, ofList_toList rest]

/-- The number of columns. -/
def length : Schema → Nat
  | .nil => 0
  | .cons _ _ rest => rest.length + 1

/-- A schema has as many columns as its list. -/
theorem length_toList (schema : Schema) : schema.toList.length = schema.length := by
  match schema with
  | .nil => rfl
  | .cons name type rest => simp [toList, length, length_toList rest]

/-- Whether a schema has no columns. -/
def isEmpty : Schema → Bool
  | .nil => true
  | .cons _ _ _ => false

/-- The column names, in order. -/
def names (schema : Schema) : List String :=
  schema.toList.map Column.name

/-- The position of the first column with a name. -/
def positionOf? (name : String) : Schema → Option Nat
  | .nil => none
  | .cons candidate _ rest =>
      if candidate = name then some 0 else (rest.positionOf? name).map (· + 1)

/-- The column at a position. -/
def get? : Schema → Nat → Option Column
  | .nil, _ => none
  | .cons name type _, 0 => some ⟨name, type⟩
  | .cons _ _ rest, position + 1 => rest.get? position

/-- The position of the column with a name, or the mismatch that there is none. -/
def resolve (schema : Schema) (name : String) : Except Mismatch Nat :=
  match schema.positionOf? name with
  | some position => .ok position
  | none => .error (.noSuchColumn name)

/-- The column at a position, or the mismatch that the position is out of range. -/
def column (schema : Schema) (position : Nat) : Except Mismatch Column :=
  match schema.get? position with
  | some column => .ok column
  | none => .error (.columnOutOfRange position schema.length)

/-- The position an index points at. -/
def position (schema : Schema) : ColumnIndex → Except Mismatch Nat
  | .name sought => schema.resolve sought
  | .position sought => (schema.column sought).map fun _ => sought

/-- The schema below the column that an index points at, if that column has one. -/
def childSchema (schema : Schema) (index : ColumnIndex) : Except Mismatch (Option Schema) := do
  let position ← schema.position index
  let column ← schema.column position
  pure column.type.childSchema?

/-- The schema that a list of indexes leads to, column by column, if each column on the way has a
schema below it. -/
def descend (schema : Schema) : List ColumnIndex → Except Mismatch (Option Schema)
  | [] => .ok (some schema)
  | index :: rest => do
      match ← schema.childSchema index with
      | some child => child.descend rest
      | none => pure none

end Schema

end Columnar
