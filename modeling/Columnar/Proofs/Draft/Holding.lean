import Columnar.Draft.Basic
import Columnar.Proofs.Buffer.ScalarBuffer
import Columnar.Proofs.Row.Pending
import Columnar.Proofs.Values

/-!
# Columns that hold given values

`Node.holding` is the one column that holds given saved values and a value in progress: the values
of every slot lie one after the other in the columns below, and those in progress behind them.
Cutting such a column leads to another one, whatever is in progress at whatever depth.
-/

namespace Columnar

mutual

/-- The column that holds saved values and, in the slot after them, a value in progress. -/
def Node.holding (capacity : Nat) (path : String) : ColumnType → List Value → Pending → Node
  | .scalar type, saved, pending =>
      .scalar path
        (.ofScalars type capacity (saved.map (Value.leaf type) ++ pending.written.toList))
  | .array element, saved, pending =>
      let items := saved.flatMap Value.items ++ pending.closed
      .array path (.ofSizes capacity (Value.sizes saved)) items.length
        (Node.holding capacity path element items pending.current)
  | .tuple columns, saved, pending =>
      .tuple path saved.length
        (Nodes.holding capacity path columns (saved.map Value.items) pending.columns)

/-- The columns that hold saved rows and, in the slot after them, a row in progress. -/
def Nodes.holding (capacity : Nat) (parent : String) :
    Schema → List (List Value) → List Pending → Nodes
  | .nil, _, _ => .nil
  | .cons name type rest, rows, pendings =>
      .cons name
        (Node.holding capacity (childPath parent name) type (rows.map Value.firstItem)
          (Pending.first pendings))
        (Nodes.holding capacity parent rest (rows.map List.tail) pendings.tail)

end

/-- The column that holds saved values and has nothing in progress. -/
def Node.saved (capacity : Nat) (path : String) (type : ColumnType) (saved : List Value) : Node :=
  .holding capacity path type saved (.ofType type)

/-- The columns that hold saved rows and have nothing in progress. -/
def Nodes.saved (capacity : Nat) (parent : String) (schema : Schema) (rows : List (List Value)) :
    Nodes :=
  .holding capacity parent schema rows (Pending.ofSchema schema)

/-- A tuple that is closed behind the values adds its items to theirs. -/
theorem map_items_append (columns : Schema) (saved : List Value) (pending : Pending) :
    (saved ++ [pending.close (.tuple columns)]).map Value.items =
      saved.map Value.items ++ [Pending.closeEach columns pending.columns] := by
  rw [List.map_append]
  rfl

theorem Node.saved_scalar (capacity : Nat) (path : String) (type : ScalarType)
    (values : List Value) :
    Node.saved capacity path (.scalar type) values =
      .scalar path (.ofScalars type capacity (values.map (Value.leaf type))) := by
  simp [Node.saved, Node.holding, Pending.ofType, Pending.written]

theorem Node.saved_array (capacity : Nat) (path : String) (element : ColumnType)
    (values : List Value) :
    Node.saved capacity path (.array element) values =
      .array path (.ofSizes capacity (Value.sizes values)) (values.flatMap Value.items).length
        (.saved capacity path element (values.flatMap Value.items)) := by
  simp [Node.saved, Node.holding, Pending.ofType, Pending.closed, Pending.current]

theorem Node.saved_tuple (capacity : Nat) (path : String) (columns : Schema)
    (values : List Value) :
    Node.saved capacity path (.tuple columns) values =
      .tuple path values.length (.saved capacity path columns (values.map Value.items)) := rfl

theorem Nodes.saved_cons (capacity : Nat) (parent name : String) (type : ColumnType) (rest : Schema)
    (rows : List (List Value)) :
    Nodes.saved capacity parent (.cons name type rest) rows =
      .cons name (.saved capacity (childPath parent name) type (rows.map Value.firstItem))
        (.saved capacity parent rest (rows.map List.tail)) := rfl

@[simp] theorem Nodes.length_holding (capacity : Nat) (parent : String) :
    ∀ (schema : Schema) (rows : List (List Value)) (pendings : List Pending),
      (Nodes.holding capacity parent schema rows pendings).length = schema.length
  | .nil, _, _ => rfl
  | .cons _ _ rest, _, _ => congrArg (· + 1) (Nodes.length_holding capacity parent rest _ _)

@[simp] theorem Node.isScalar_holding (capacity : Nat) (path : String) (type : ColumnType)
    (saved : List Value) (pending : Pending) :
    (Node.holding capacity path type saved pending).isScalar = type.isScalar := by
  cases type <;> rfl

mutual

/-- The empty column of a type holds no values. -/
theorem Node.ofType_eq_saved (capacity : Nat) : ∀ (path : String) (type : ColumnType),
    Node.ofType capacity path type = Node.saved capacity path type []
  | path, .scalar type => by
      rw [Node.ofType, Node.saved_scalar, List.map_nil, ScalarBuffer.ofScalars_nil]
  | path, .array element => by
      rw [Node.ofType, Node.ofType_eq_saved capacity path element, Node.saved_array]
      rfl
  | path, .tuple columns => by
      rw [Node.ofType, Nodes.ofSchema_eq_saved capacity path columns]
      rfl

/-- The empty columns of a schema hold no rows. -/
theorem Nodes.ofSchema_eq_saved (capacity : Nat) : ∀ (parent : String) (schema : Schema),
    Nodes.ofSchema capacity parent schema = Nodes.saved capacity parent schema []
  | _, .nil => rfl
  | parent, .cons name type rest => by
      rw [Nodes.ofSchema, Node.ofType_eq_saved capacity (childPath parent name) type,
        Nodes.ofSchema_eq_saved capacity parent rest]
      rfl

end

/-- Whether cutting a column back to any number of the values leaves just these, with nothing in
progress. What the column holds behind them does not matter. -/
def Node.Keeps (capacity : Nat) (path : String) (type : ColumnType) (values : List Value)
    (node : Node) : Prop :=
  ∀ count, count ≤ values.length →
    node.truncate count = .saved capacity path type (values.take count)

/-- Whether cutting columns back to any number of the rows leaves just these, with nothing in
progress. -/
def Nodes.Keeps (capacity : Nat) (parent : String) (schema : Schema) (rows : List (List Value))
    (columns : Nodes) : Prop :=
  ∀ count, count ≤ rows.length →
    columns.truncate count = .saved capacity parent schema (rows.take count)

variable {capacity : Nat} {path parent : String}

/-- What keeps values keeps the first of them. -/
theorem Node.Keeps.ofAppend {type : ColumnType} {values others : List Value} {node : Node}
    (keeps : node.Keeps capacity path type (values ++ others)) :
    node.Keeps capacity path type values := by
  intro count within
  have enough : count ≤ (values ++ others).length := by
    rw [List.length_append]
    omega
  rw [keeps count enough, List.take_append_of_le_length within]

/-- A scalar column keeps the values before those in progress. -/
theorem Node.keeps_scalar (type : ScalarType) (values : List Value) (others : List Scalar) :
    (Node.scalar path (.ofScalars type capacity (values.map (Value.leaf type) ++ others))).Keeps
      capacity path (.scalar type) values := by
  intro count within
  have front : (values.map (Value.leaf type) ++ others).take count =
      (values.map (Value.leaf type)).take count :=
    List.take_append_of_le_length (by simpa using within)
  rw [Node.truncate, ScalarBuffer.truncate_ofScalars, front, Node.saved_scalar, List.map_take]

/-- An array keeps values if its entry keeps their elements, however many more it counts. -/
theorem Node.keeps_array {element : ColumnType} {values : List Value} {others : List Value}
    {elements : Nat} {entry : Node}
    (keeps : entry.Keeps capacity path element (values.flatMap Value.items ++ others)) :
    (Node.array path (.ofSizes capacity (Value.sizes values)) elements entry).Keeps capacity path
      (.array element) values := by
  intro count within
  have parts : values.flatMap Value.items =
      (values.take count).flatMap Value.items ++ (values.drop count).flatMap Value.items := by
    rw [← List.flatMap_append, List.take_append_drop]
  rw [parts, List.append_assoc] at keeps
  have below := keeps ((values.take count).flatMap Value.items).length (by
    rw [List.length_append]
    omega)
  rw [List.take_left] at below
  simp only [Node.truncate, Slots.truncate_ofSizes, Slots.lastOffset_ofSizes, Value.take_sizes,
    Value.sum_sizes, below]
  rw [Node.saved_array]

/-- A tuple keeps values if its columns keep their items. -/
theorem Node.keeps_tuple {schema : Schema} {values : List Value} {columns : Nodes}
    (keeps : columns.Keeps capacity path schema (values.map Value.items)) :
    (Node.tuple path values.length columns).Keeps capacity path (.tuple schema) values := by
  intro count within
  rw [Node.truncate, keeps count (by simpa using within), Node.saved_tuple, List.length_take,
    List.map_take]
  exact congrArg (Node.tuple path · _) (Nat.min_comm _ _)

/-- Columns keep rows if the first column keeps the first items and the others the rest. -/
theorem Nodes.keeps_cons {name : String} {type : ColumnType} {rest : Schema}
    {rows : List (List Value)} {node : Node} {others : Nodes}
    (keeps : node.Keeps capacity (childPath parent name) type (rows.map Value.firstItem))
    (keepOthers : others.Keeps capacity parent rest (rows.map List.tail)) :
    (Nodes.cons name node others).Keeps capacity parent (.cons name type rest) rows := by
  intro count within
  rw [Nodes.truncate, keeps count (by simpa using within), keepOthers count (by simpa using within),
    Nodes.saved_cons, List.map_take, List.map_take]

mutual

/-- A column keeps the values that it holds, whatever is in progress at whatever depth. -/
theorem Node.keeps_holding (capacity : Nat) : ∀ (path : String) (type : ColumnType)
    (saved : List Value) (pending : Pending),
    (Node.holding capacity path type saved pending).Keeps capacity path type saved
  | _, .scalar type, saved, pending => Node.keeps_scalar type saved pending.written.toList
  | path, .array element, _, pending =>
      Node.keeps_array (Node.keeps_holding capacity path element _ pending.current)
  | path, .tuple columns, _, pending =>
      Node.keeps_tuple (Nodes.keeps_holding capacity path columns _ pending.columns)

/-- Columns keep the rows that they hold. -/
theorem Nodes.keeps_holding (capacity : Nat) : ∀ (parent : String) (schema : Schema)
    (rows : List (List Value)) (pendings : List Pending),
    (Nodes.holding capacity parent schema rows pendings).Keeps capacity parent schema rows
  | _, .nil, _, _ => fun _ _ => rfl
  | parent, .cons name type rest, _, _ =>
      Nodes.keeps_cons (Node.keeps_holding capacity (childPath parent name) type _ _)
        (Nodes.keeps_holding capacity parent rest _ _)

end

theorem Node.keeps_saved (capacity : Nat) (path : String) (type : ColumnType)
    (values : List Value) :
    (Node.saved capacity path type values).Keeps capacity path type values :=
  Node.keeps_holding capacity path type values (.ofType type)

end Columnar
