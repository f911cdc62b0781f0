import Columnar.Buffer.ScalarBuffer
import Columnar.Buffer.Slots
import Columnar.Schema.Path

/-!
# Draft columns

The columns of a batch that is being written, as a tree in the form of the schema. Every node
knows its path; a scalar has its values, an array its slots and the number of elements written
for them, and a tuple the count that its columns share.
-/

namespace Columnar

mutual

/-- A column being written. -/
inductive Node where
  | scalar (path : String) (values : ScalarBuffer)
  /-- An array. The elements up to the last slot's end are saved with their rows; those from there
  up to `elements` belong to the current slot. -/
  | array (path : String) (slots : Slots) (elements : Nat) (entry : Node)
  | tuple (path : String) (count : Nat) (columns : Nodes)
  deriving DecidableEq

/-- The columns of a tuple being written, in order, each with its name. -/
inductive Nodes where
  | nil
  | cons (name : String) (node : Node) (rest : Nodes)
  deriving DecidableEq

end

mutual

/-- The empty column of a type, its buffers limited to `capacity` bytes. -/
def Node.ofType (capacity : Nat) (path : String) : ColumnType → Node
  | .scalar type => .scalar path (.ofType type capacity)
  | .array element => .array path (.empty capacity) 0 (Node.ofType capacity path element)
  | .tuple columns => .tuple path 0 (Nodes.ofSchema capacity path columns)

/-- The empty columns of a schema below the path `parent`. -/
def Nodes.ofSchema (capacity : Nat) (parent : String) : Schema → Nodes
  | .nil => .nil
  | .cons name type rest =>
      .cons name (Node.ofType capacity (childPath parent name) type)
        (Nodes.ofSchema capacity parent rest)

end

namespace Nodes

/-- The number of columns. -/
def length : Nodes → Nat
  | .nil => 0
  | .cons _ _ rest => rest.length + 1

/-- The column names, in order. -/
def names : Nodes → List String
  | .nil => []
  | .cons name _ rest => name :: rest.names

/-- The column that an index points at. -/
def get? : Nodes → ColumnIndex → Option Node
  | .nil, _ => none
  | .cons name node rest, .name sought =>
      if name = sought then some node else rest.get? (.name sought)
  | .cons _ node _, .position 0 => some node
  | .cons _ _ rest, .position (position + 1) => rest.get? (.position position)

end Nodes

namespace Node

/-- The shape of a column. -/
def kind : Node → Kind
  | .scalar _ _ => .scalar
  | .array _ _ _ _ => .array
  | .tuple _ _ _ => .tuple

/-- The path of a column. -/
def path : Node → String
  | .scalar path _ => path
  | .array path _ _ _ => path
  | .tuple path _ _ => path

/-- Whether a column is a scalar. As the entry of an array such a column takes an element with
every value written, and has no elements to save. -/
def isScalar : Node → Bool
  | .scalar _ _ => true
  | _ => false

/-- The columns of a tuple. Other columns have none below them. -/
def columns : Node → Nodes
  | .tuple _ _ columns => columns
  | _ => .nil

/-- The mismatch of taking a column for one of another shape. -/
def wrongKind (node : Node) (requested : Kind) : Mismatch :=
  .wrongKind node.path requested node.kind

/-- The values of a scalar. -/
def asScalar : Node → Except Mismatch ScalarBuffer
  | .scalar _ values => .ok values
  | node => .error (node.wrongKind .scalar)

/-- The entry of an array. -/
def asArray : Node → Except Mismatch Node
  | .array _ _ _ entry => .ok entry
  | node => .error (node.wrongKind .array)

/-- The columns of a tuple, for a node that is to be one. -/
def asTuple : Node → Except Mismatch Nodes
  | .tuple _ _ columns => .ok columns
  | node => .error (node.wrongKind .tuple)

/-- The column of a tuple that an index points at. -/
def column (node : Node) (index : ColumnIndex) : Except Mismatch Node := do
  let columns ← node.asTuple
  match columns.get? index with
  | some child => pure child
  | none => throw (index.missing columns.length)

/-- The column one step below. -/
def child (node : Node) : Step → Except Mismatch Node
  | .column index => node.column index
  | .entry => node.asArray

/-- The column at the end of a path. -/
def find (node : Node) : List Step → Except Mismatch Node
  | [] => .ok node
  | step :: rest => do
      let child ← node.child step
      child.find rest

/-- The elements written for the current slot of an array. -/
def elementIndex : Node → Nat
  | .array _ slots elements _ => elements - slots.lastOffset
  | _ => 0

end Node

mutual

/-- Whether some buffer of a column has reached its limit. -/
def Node.anyExhausted : Node → Bool
  | .scalar _ values => values.isExhausted
  | .array _ slots _ entry => slots.capacity ≤ slots.bytes || entry.anyExhausted
  | .tuple _ _ columns => columns.anyExhausted

/-- Whether some buffer of some column has reached its limit. -/
def Nodes.anyExhausted : Nodes → Bool
  | .nil => false
  | .cons _ node rest => node.anyExhausted || rest.anyExhausted

end

mutual

/-- The elements written for the current slot of every array, an array before those inside it. -/
def Node.elementIndices : Node → List Nat
  | .scalar _ _ => []
  | .array path slots elements entry =>
      (Node.array path slots elements entry).elementIndex :: entry.elementIndices
  | .tuple _ _ columns => columns.elementIndices

/-- The elements written for the current slot of every array of the columns, in schema order. -/
def Nodes.elementIndices : Nodes → List Nat
  | .nil => []
  | .cons _ node rest => node.elementIndices ++ rest.elementIndices

end

end Columnar
