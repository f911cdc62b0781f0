import Columnar.Refusal
import Columnar.Schema.Path

/-!
# Views

The columns of a sealed batch as a reader sees them, as a tree in the form of the schema. An array
remembers the element its entry was moved to, with the slot for which that was done: in any other
slot the entry is at the first element.
-/

namespace Columnar

/-- The element of a slot that an array's entry was moved to. -/
structure Selection where
  slot : Nat
  element : Nat
  deriving DecidableEq

mutual

/-- A column being read. -/
inductive View where
  | scalar (path : String) (values : Leaf)
  | array (path : String) (offsets : Array Nat) (selected : Option Selection) (entry : View)
  | tuple (path : String) (columns : Views)
  deriving DecidableEq

/-- The columns of a tuple being read, in order, each with its name. -/
inductive Views where
  | nil
  | cons (name : String) (view : View) (rest : Views)
  deriving DecidableEq

end

/-- Tuples have as many columns as their schema. -/
def checkCount (path : String) (expected found : Nat) : Except BindingError Unit :=
  if found = expected then .ok () else .error (.columnCount path expected found)

mutual

/-- The view of a column, which must have the shape of its type. Names play no part in that. -/
def View.ofData (path : String) : ColumnType → ColumnData → Except BindingError View
  | .scalar type, .leaf values =>
      if values.type = type then .ok (.scalar path values)
      else .error (.scalarType path values.type.toArrow type.toArrow)
  | .scalar type, data => .error (.scalarType path data.type type.toArrow)
  | .array element, .list offsets items => do
      let entry ← View.ofData path element items
      pure (.array path offsets none entry)
  | .array _, _ => .error (.notList path)
  | .tuple schema, .struct _ columns => do
      checkCount path schema.length columns.count
      let views ← Views.ofDatas path schema columns.datas
      pure (.tuple path views)
  | .tuple _, _ => .error (.notStruct path)

/-- The views of the columns below a path, one for each column of the schema. -/
def Views.ofDatas (parent : String) : Schema → List ColumnData → Except BindingError Views
  | .cons name type rest, data :: datas => do
      let view ← View.ofData (childPath parent name) type data
      let views ← Views.ofDatas parent rest datas
      pure (.cons name view views)
  | _, _ => .ok .nil

end

/-- The view of the rows of a batch. -/
def View.ofBatch (schema : Schema) (columns : List ColumnData) : Except BindingError View := do
  checkCount "" schema.length columns.length
  let views ← Views.ofDatas "" schema columns
  pure (.tuple "" views)

namespace Views

/-- The number of columns. -/
def length : Views → Nat
  | .nil => 0
  | .cons _ _ rest => rest.length + 1

/-- The column names, in order. -/
def names : Views → List String
  | .nil => []
  | .cons name _ rest => name :: rest.names

/-- The column that an index points at. -/
def get? : Views → ColumnIndex → Option View
  | .nil, _ => none
  | .cons name view rest, .name sought =>
      if name = sought then some view else rest.get? (.name sought)
  | .cons _ view _, .position 0 => some view
  | .cons _ _ rest, .position (position + 1) => rest.get? (.position position)

/-- Changes the column that an index points at. If there is none, the mismatch `missing` is the
refusal. -/
def update (change : View → Except Refusal View) (missing : Mismatch) :
    Views → ColumnIndex → Except Refusal Views
  | .nil, _ => .error (.mismatch missing)
  | .cons name view rest, .name sought =>
      if name = sought then do
        let view ← change view
        pure (.cons name view rest)
      else do
        let rest ← rest.update change missing (.name sought)
        pure (.cons name view rest)
  | .cons name view rest, .position 0 => do
      let view ← change view
      pure (.cons name view rest)
  | .cons name view rest, .position (position + 1) => do
      let rest ← rest.update change missing (.position position)
      pure (.cons name view rest)

/-- Changes the column that an index points at, if there is one. -/
def modify (change : View → View) : Views → ColumnIndex → Views
  | .nil, _ => .nil
  | .cons name view rest, .name sought =>
      if name = sought then .cons name (change view) rest
      else .cons name view (rest.modify change (.name sought))
  | .cons name view rest, .position 0 => .cons name (change view) rest
  | .cons name view rest, .position (position + 1) =>
      .cons name view (rest.modify change (.position position))

end Views

namespace View

/-- The shape of a column. -/
def kind : View → Kind
  | .scalar _ _ => .scalar
  | .array _ _ _ _ => .array
  | .tuple _ _ => .tuple

/-- The path of a column. -/
def path : View → String
  | .scalar path _ => path
  | .array path _ _ _ => path
  | .tuple path _ => path

/-- The mismatch of taking a column for one of another shape. -/
def wrongKind (view : View) (requested : Kind) : Mismatch :=
  .wrongKind view.path requested view.kind

/-- The values of a scalar. -/
def asScalar : View → Except Mismatch Leaf
  | .scalar _ values => .ok values
  | view => .error (view.wrongKind .scalar)

/-- The columns of a tuple. -/
def asTuple : View → Except Mismatch Views
  | .tuple _ columns => .ok columns
  | view => .error (view.wrongKind .tuple)

end View

end Columnar
