import Columnar.Draft.Edit
import Columnar.Draft.Layout

/-!
# The type of a column

A column being written tells its type, and no operation on it changes that: values are written, cut
and closed, and the columns stay those of the schema.
-/

namespace Columnar

mutual

/-- The type of a column. -/
def Node.type : Node → ColumnType
  | .scalar _ values => .scalar values.type
  | .array _ _ _ entry => .array entry.type
  | .tuple _ _ columns => .tuple columns.schema

/-- The schema of columns. -/
def Nodes.schema : Nodes → Schema
  | .nil => .nil
  | .cons name node rest => .cons name node.type rest.schema

end

theorem Node.isScalar_type (node : Node) : node.type.isScalar = node.isScalar := by
  cases node <;> rfl

@[simp] theorem Nodes.length_schema : ∀ columns : Nodes, columns.schema.length = columns.length
  | .nil => rfl
  | .cons _ _ rest => congrArg (· + 1) (Nodes.length_schema rest)

namespace ScalarBuffer

@[simp] theorem type_truncate (buffer : ScalarBuffer) (count : Nat) :
    (buffer.truncate count).type = buffer.type := by
  cases buffer <;> rfl

@[simp] theorem type_fill (buffer : ScalarBuffer) (count : Nat) :
    (buffer.fill count).1.type = buffer.type := by
  cases buffer <;> rfl

@[simp] theorem type_set (buffer : ScalarBuffer) (index : Nat) (value : Scalar) :
    (buffer.set index value).1.type = buffer.type := by
  cases buffer <;> cases value <;> rfl

@[simp] theorem type_write (gate : Option Refusal) (path : String) (position : Nat)
    (buffer : ScalarBuffer) (value : Scalar) :
    (buffer.write gate path position value).1.type = buffer.type := by
  cases gate with
  | some _ => rfl
  | none => exact type_set buffer position value

end ScalarBuffer

mutual

/-- Cutting a column keeps its type. -/
@[simp] theorem Node.type_truncate : ∀ (node : Node) (count : Nat),
    (node.truncate count).type = node.type
  | .scalar _ values, count => congrArg ColumnType.scalar (values.type_truncate count)
  | .array _ _ _ entry, _ => congrArg ColumnType.array (Node.type_truncate entry _)
  | .tuple _ _ columns, count => congrArg ColumnType.tuple (Nodes.schema_truncate columns count)

/-- Cutting columns keeps their schema. -/
@[simp] theorem Nodes.schema_truncate : ∀ (columns : Nodes) (count : Nat),
    (columns.truncate count).schema = columns.schema
  | .nil, _ => rfl
  | .cons name node rest, count => by
      simp only [Nodes.truncate, Nodes.schema, Node.type_truncate node count,
        Nodes.schema_truncate rest count]

end

mutual

/-- Closing a slot keeps the type of a column, also where it stops in the middle. -/
@[simp] theorem Node.type_commit : ∀ (node : Node) (slot : Nat),
    (node.commit slot).1.type = node.type
  | .scalar _ values, slot => congrArg ColumnType.scalar (values.type_fill (slot + 1))
  | .array _ _ _ entry, _ => congrArg ColumnType.array (Node.type_truncate entry _)
  | .tuple _ _ columns, slot => by
      have below := Nodes.schema_commit columns slot
      simp only [Node.commit]
      generalize columns.commit slot = outcome at below ⊢
      obtain ⟨after, refusal⟩ := outcome
      cases refusal <;> exact congrArg ColumnType.tuple below

/-- Closing a slot keeps the schema of columns. -/
@[simp] theorem Nodes.schema_commit : ∀ (columns : Nodes) (slot : Nat),
    (columns.commit slot).1.schema = columns.schema
  | .nil, _ => rfl
  | .cons name node rest, slot => by
      have first := Node.type_commit node slot
      have others := Nodes.schema_commit rest slot
      simp only [Nodes.commit]
      generalize node.commit slot = outcome at first ⊢
      obtain ⟨after, refusal⟩ := outcome
      cases refusal with
      | some _ => exact congrArg (Schema.cons name · rest.schema) first
      | none =>
        simp only [Nodes.schema, others]
        exact congrArg (Schema.cons name · rest.schema) first

end

namespace Node

@[simp] theorem type_saveElement (gate : Option Refusal) (elements : Nat) (entry : Node) :
    (saveElement gate elements entry).2.1.type = entry.type := by
  cases gate with
  | some _ => rfl
  | none =>
    have committed := type_commit entry elements
    simp only [saveElement]
    split
    · rfl
    · generalize entry.commit elements = outcome at committed ⊢
      obtain ⟨after, refusal⟩ := outcome
      cases refusal <;> exact committed

end Node

mutual

/-- Writing a whole value keeps the type of a column, also where it stops in the middle. -/
@[simp] theorem Node.type_put (gate : Option Refusal) : ∀ (value : Value) (position : Nat)
    (node : Node), (node.put gate value position).1.type = node.type
  | .scalar value, position, .scalar path values =>
      congrArg ColumnType.scalar (values.type_write gate path position value)
  | .array items, _, .array _ _ elements entry =>
      congrArg ColumnType.array (Node.type_putElements gate items elements entry)
  | .tuple items, position, .tuple _ _ columns => by
      simp only [Node.put]
      split
      · rfl
      · exact congrArg ColumnType.tuple (Nodes.schema_put gate items position columns)
  | .scalar _, _, .array _ _ _ _ | .scalar _, _, .tuple _ _ _
  | .array _, _, .scalar _ _ | .array _, _, .tuple _ _ _
  | .tuple _, _, .scalar _ _ | .tuple _, _, .array _ _ _ _ => rfl

/-- Writing elements keeps the type of the entry. -/
@[simp] theorem Node.type_putElements (gate : Option Refusal) : ∀ (items : List Value)
    (elements : Nat) (entry : Node),
    (Node.putElements gate items elements entry).2.1.type = entry.type
  | [], _, _ => rfl
  | item :: rest, elements, entry => by
      have first := Node.type_put gate item elements entry
      simp only [Node.putElements]
      generalize entry.put gate item elements = outcome at first ⊢
      obtain ⟨written, refusal⟩ := outcome
      cases refusal with
      | some _ => exact first
      | none =>
        simp only
        have saved := Node.type_saveElement gate (Node.elementsAfter elements written none) written
        generalize Node.saveElement gate (Node.elementsAfter elements written none) written =
          outcome at saved ⊢
        obtain ⟨after, closed, refusal⟩ := outcome
        cases refusal with
        | some _ => exact saved.trans first
        | none => exact (Node.type_putElements gate rest after closed).trans (saved.trans first)

/-- Writing into the leading columns keeps the schema. -/
@[simp] theorem Nodes.schema_put (gate : Option Refusal) : ∀ (items : List Value)
    (position : Nat) (columns : Nodes),
    (Nodes.put gate items position columns).1.schema = columns.schema
  | [], _, _ => rfl
  | _ :: _, _, .nil => rfl
  | item :: items, position, .cons name node rest => by
      have first := Node.type_put gate item position node
      have others := Nodes.schema_put gate items position rest
      simp only [Nodes.put]
      generalize node.put gate item position = outcome at first ⊢
      obtain ⟨after, refusal⟩ := outcome
      cases refusal with
      | some _ => exact congrArg (Schema.cons name · rest.schema) first
      | none =>
        simp only [Nodes.schema, others]
        exact congrArg (Schema.cons name · rest.schema) first

end

/-- Changing one column in a way that keeps its type keeps the schema. -/
theorem Nodes.schema_update {change : Node → Node × Option Refusal}
    (keeps : ∀ node, (change node).1.type = node.type) (missing : Mismatch) :
    ∀ (columns : Nodes) (index : ColumnIndex),
      (columns.update change missing index).1.schema = columns.schema
  | .nil, _ => rfl
  | .cons name node rest, .position 0 => congrArg (Schema.cons name · rest.schema) (keeps node)
  | .cons name node rest, .position (position + 1) =>
      congrArg (Schema.cons name node.type) (schema_update keeps missing rest (.position position))
  | .cons name node rest, .name sought => by
      simp only [Nodes.update]
      split
      · exact congrArg (Schema.cons name · rest.schema) (keeps node)
      · exact congrArg (Schema.cons name node.type)
          (schema_update keeps missing rest (.name sought))

namespace Node

/-- An edit of a column keeps its type. -/
@[simp] theorem type_editHere (gate : Option Refusal) (change : Edit) (position : Nat)
    (node : Node) : (node.editHere gate change position).1.type = node.type := by
  cases change with
  | put value => exact type_put gate value position node
  | set value =>
    cases node with
    | scalar path values =>
      exact congrArg ColumnType.scalar (values.type_write gate path position value)
    | array _ _ _ _ => rfl
    | tuple _ _ _ => rfl
  | saveElement =>
    cases node with
    | array _ _ elements entry =>
      exact congrArg ColumnType.array (type_saveElement gate elements entry)
    | scalar _ _ => rfl
    | tuple _ _ _ => rfl

/-- An edit at the end of a path keeps the type of the column that the path starts at. -/
@[simp] theorem type_edit (gate : Option Refusal) (change : Edit) (steps : List Step)
    (position : Nat) (node : Node) :
    (node.edit gate change steps position).1.type = node.type := by
  induction steps generalizing node position with
  | nil => exact type_editHere gate change position node
  | cons step rest inductionHypothesis =>
    cases step with
    | column index =>
      cases node with
      | tuple _ _ columns =>
        exact congrArg ColumnType.tuple
          (Nodes.schema_update (inductionHypothesis position) _ columns index)
      | scalar _ _ => rfl
      | array _ _ _ _ => rfl
    | entry =>
      cases node with
      | array _ _ elements entry =>
        exact congrArg ColumnType.array (inductionHypothesis elements entry)
      | scalar _ _ => rfl
      | tuple _ _ _ => rfl

/-- An edit makes no other column a scalar. -/
@[simp] theorem isScalar_edit (gate : Option Refusal) (change : Edit) (steps : List Step)
    (position : Nat) (node : Node) :
    (node.edit gate change steps position).1.isScalar = node.isScalar := by
  rw [← isScalar_type, type_edit, isScalar_type]

end Node

end Columnar
