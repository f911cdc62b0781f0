import Columnar.Draft.Commit

/-!
# Edits

Writing into the columns of a draft: a scalar at its place, a whole value with all its elements, or
the end of an element. An edit that meets a closed gate, a value of the wrong kind or a lack of
room stops there, and what it wrote before stays written.
-/

namespace Columnar

/-- The refusal of a value that does not fit into a scalar column. -/
def WriteError.refusal (error : WriteError) (column : String) : Refusal :=
  match error with
  | .shortage cause => cause.refusal column
  | .wrongType held given => .mismatch (.wrongScalarType column given held)

/-- What is done to a column. -/
inductive Edit where
  /-- Writes a scalar into a scalar column. -/
  | set (value : Scalar)
  /-- Writes a value of the shape of the column, saving every element of its arrays. -/
  | put (value : Value)
  /-- Saves the current element of an array. -/
  | saveElement
  deriving DecidableEq

/-- Writes a scalar at a position of a scalar column, if the gate is open. -/
def ScalarBuffer.write (gate : Option Refusal) (path : String) (position : Nat)
    (values : ScalarBuffer) (value : Scalar) : ScalarBuffer × Option Refusal :=
  match gate with
  | some refusal => (values, some refusal)
  | none =>
      let (values, error) := values.set position value
      (values, error.map fun cause => cause.refusal path)

namespace Node

/-- Saves the element of an array that is at position `elements` of its entry, if the gate is open.
A scalar entry has saved its element when the value was written. -/
def saveElement (gate : Option Refusal) (elements : Nat) (entry : Node) :
    Nat × Node × Option Refusal :=
  match gate with
  | some refusal => (elements, entry, some refusal)
  | none =>
      if entry.isScalar then (elements, entry, none)
      else
        match entry.commit elements with
        | (entry, some refusal) => (elements, entry, some refusal)
        | (entry, none) => (elements + 1, entry, none)

/-- The elements of an array after an edit of its entry. An accepted value of a scalar entry is an
element. -/
def elementsAfter (elements : Nat) (entry : Node) (refusal : Option Refusal) : Nat :=
  if entry.isScalar && refusal.isNone then elements + 1 else elements

end Node

mutual

/-- Writes a value at a position of a column of its shape. -/
def Node.put (gate : Option Refusal) :
    (value : Value) → (position : Nat) → (node : Node) → Node × Option Refusal
  | .scalar value, position, .scalar path values =>
      let (values, refusal) := values.write gate path position value
      (.scalar path values, refusal)
  | .array items, _, .array path slots elements entry =>
      let (elements, entry, refusal) := Node.putElements gate items elements entry
      (.array path slots elements entry, refusal)
  | .tuple items, position, .tuple path count columns =>
      if columns.length < items.length then
        (.tuple path count columns,
          some (.mismatch (.columnOutOfRange columns.length columns.length)))
      else
        let (columns, refusal) := Nodes.put gate items position columns
        (.tuple path count columns, refusal)
  | value, _, node => (node, some (.mismatch (node.wrongKind value.kind)))

/-- Writes values as elements of an array from position `elements` of its entry on, and saves each
of them. -/
def Node.putElements (gate : Option Refusal) :
    (items : List Value) → (elements : Nat) → (entry : Node) → Nat × Node × Option Refusal
  | [], elements, entry => (elements, entry, none)
  | item :: rest, elements, entry =>
      match Node.put gate item elements entry with
      | (entry, some refusal) => (elements, entry, some refusal)
      | (entry, none) =>
          let elements := Node.elementsAfter elements entry none
          match Node.saveElement gate elements entry with
          | (elements, entry, some refusal) => (elements, entry, some refusal)
          | (elements, entry, none) => Node.putElements gate rest elements entry

/-- Writes values at a position of the leading columns of a tuple, one for each. -/
def Nodes.put (gate : Option Refusal) :
    (items : List Value) → (position : Nat) → (columns : Nodes) → Nodes × Option Refusal
  | item :: items, position, .cons name node rest =>
      match Node.put gate item position node with
      | (node, some refusal) => (.cons name node rest, some refusal)
      | (node, none) =>
          let (rest, refusal) := Nodes.put gate items position rest
          (.cons name node rest, refusal)
  | _, _, columns => (columns, none)

end

namespace Node

/-- Does an edit at a position of a column of the kind that the edit is for. -/
def editHere (gate : Option Refusal) (edit : Edit) (position : Nat) (node : Node) :
    Node × Option Refusal :=
  match edit, node with
  | .set value, .scalar path values =>
      let (values, refusal) := values.write gate path position value
      (.scalar path values, refusal)
  | .set _, node => (node, some (.mismatch (node.wrongKind .scalar)))
  | .put value, node => node.put gate value position
  | .saveElement, .array path slots elements entry =>
      let (elements, entry, refusal) := saveElement gate elements entry
      (.array path slots elements entry, refusal)
  | .saveElement, node => (node, some (.mismatch (node.wrongKind .array)))

end Node

/-- Changes the column that an index points at. If there is none, the mismatch `missing` is the
refusal. -/
def Nodes.update (change : Node → Node × Option Refusal) (missing : Mismatch) :
    Nodes → ColumnIndex → Nodes × Option Refusal
  | .nil, _ => (.nil, some (.mismatch missing))
  | .cons name node rest, .name sought =>
      if name = sought then
        let (node, refusal) := change node
        (.cons name node rest, refusal)
      else
        let (rest, refusal) := rest.update change missing (.name sought)
        (.cons name node rest, refusal)
  | .cons name node rest, .position 0 =>
      let (node, refusal) := change node
      (.cons name node rest, refusal)
  | .cons name node rest, .position (position + 1) =>
      let (rest, refusal) := rest.update change missing (.position position)
      (.cons name node rest, refusal)

/-- Does an edit at the end of a path, which starts at a position of a column. The entry of an
array is at the position of the element being written. -/
def Node.edit (gate : Option Refusal) (edit : Edit) :
    (path : List Step) → (position : Nat) → (node : Node) → Node × Option Refusal
  | [], position, node => node.editHere gate edit position
  | .column index :: rest, position, .tuple path count columns =>
      let missing := index.missing columns.length
      let (columns, refusal) :=
        columns.update (fun child => Node.edit gate edit rest position child) missing index
      (.tuple path count columns, refusal)
  | .column _ :: _, _, node => (node, some (.mismatch (node.wrongKind .tuple)))
  | .entry :: rest, _, .array path slots elements entry =>
      let (entry, refusal) := Node.edit gate edit rest elements entry
      (.array path slots (Node.elementsAfter elements entry refusal) entry, refusal)
  | .entry :: _, _, node => (node, some (.mismatch (node.wrongKind .array)))

end Columnar
