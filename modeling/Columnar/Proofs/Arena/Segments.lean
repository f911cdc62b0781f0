import Columnar.Proofs.Arena.Basic
import Columnar.Proofs.Draft.InPlace

/-!
# Segments of an arena

A column and all columns below it have consecutive numbers, its own the last of them, and so do the
columns of a tuple one after the other. The cursors of arrays are consecutive too, that of an array
before those below it. What is registered for a column lies in an arena between what was registered
before and what was registered after, and so does what is registered for each column below.
-/

namespace Columnar

/-! ### Numbers and places of a schema -/

mutual

/-- The number of columns below a column. -/
def ColumnType.inner : ColumnType → Nat
  | .scalar _ => 0
  | .array element => element.inner + 1
  | .tuple columns => columns.size

/-- The number of columns at every depth. -/
def Schema.size : Schema → Nat
  | .nil => 0
  | .cons _ type rest => type.inner + 1 + rest.size

end

mutual

/-- The number of arrays, at every depth, that a column comes to. -/
def ColumnType.arrays : ColumnType → Nat
  | .scalar _ => 0
  | .array element => element.arrays + 1
  | .tuple columns => columns.arrays

/-- The number of arrays at every depth. -/
def Schema.arrays : Schema → Nat
  | .nil => 0
  | .cons _ type rest => type.arrays + rest.arrays

end

/-- The numbers of columns, when the columns below the first are numbered from `start` on. -/
def Schema.numbers (start : Nat) : Schema → List Nat
  | .nil => []
  | .cons _ type rest => (start + type.inner) :: rest.numbers (start + type.inner + 1)

mutual

/-- The places of a column and of all below it, numbered from `start` on, with the cursors of arrays
from `cursor` on. -/
def ColumnType.placements (path : String) (position : Nat) (appends : Bool) (start cursor : Nat) :
    ColumnType → List Placement
  | .scalar _ => [⟨path, position, none, appends, []⟩]
  | .array element =>
      element.placements path cursor element.isScalar start (cursor + 1) ++
        [⟨path, position, some cursor, false, [start + element.inner]⟩]
  | .tuple columns =>
      columns.placements path position start cursor ++
        [⟨path, position, none, false, columns.numbers start⟩]

/-- The places of columns and of all below them. -/
def Schema.placements (parent : String) (position start cursor : Nat) : Schema → List Placement
  | .nil => []
  | .cons name type rest =>
      type.placements (childPath parent name) position false start cursor ++
        rest.placements parent position (start + type.inner + 1) (cursor + type.arrays)

end

@[simp] theorem Schema.length_numbers : ∀ (schema : Schema) (start : Nat),
    (schema.numbers start).length = schema.length
  | .nil, _ => rfl
  | .cons _ _ rest, _ => congrArg (· + 1) (Schema.length_numbers rest _)

mutual

@[simp] theorem ColumnType.length_placements : ∀ (type : ColumnType) (path : String)
    (position : Nat) (appends : Bool) (start cursor : Nat),
    (type.placements path position appends start cursor).length = type.inner + 1
  | .scalar _, _, _, _, _, _ => rfl
  | .array element, _, _, _, _, _ => by
      rw [ColumnType.placements, List.length_append, ColumnType.length_placements element]
      rfl
  | .tuple columns, _, _, _, _, _ => by
      rw [ColumnType.placements, List.length_append, Schema.length_placements columns]
      rfl

@[simp] theorem Schema.length_placements : ∀ (schema : Schema) (parent : String)
    (position start cursor : Nat),
    (schema.placements parent position start cursor).length = schema.size
  | .nil, _, _, _, _ => rfl
  | .cons _ type rest, _, _, _, _ => by
      rw [Schema.placements, List.length_append, ColumnType.length_placements type,
        Schema.length_placements rest]
      rfl

end

/-! ### Buffers and counts of columns -/

mutual

/-- The buffers of a column and of all below it, numbered from `start` on. -/
def Node.buffers (start : Nat) : Node → List Buffer
  | .scalar _ values => [.scalar values]
  | .array _ slots _ entry => entry.buffers start ++ [.slots (start + entry.type.inner) slots]
  | .tuple _ count columns =>
      columns.buffers start ++ [.group columns.schema.names (columns.schema.numbers start) count]

/-- The buffers of columns and of all below them. -/
def Nodes.buffers (start : Nat) : Nodes → List Buffer
  | .nil => []
  | .cons _ node rest => node.buffers start ++ rest.buffers (start + node.type.inner + 1)

end

mutual

/-- What the cursors of the arrays of a column tell, an array before those below it. -/
def Node.counts : Node → List Nat
  | .scalar _ _ => []
  | .array _ _ elements entry => elements :: entry.counts
  | .tuple _ _ columns => columns.counts

/-- What the cursors of the arrays of columns tell. -/
def Nodes.counts : Nodes → List Nat
  | .nil => []
  | .cons _ node rest => node.counts ++ rest.counts

end

mutual

@[simp] theorem Node.length_buffers : ∀ (node : Node) (start : Nat),
    (node.buffers start).length = node.type.inner + 1
  | .scalar _ _, _ => rfl
  | .array _ _ _ entry, _ => by
      rw [Node.buffers, List.length_append, Node.length_buffers entry]
      rfl
  | .tuple _ _ columns, _ => by
      rw [Node.buffers, List.length_append, Nodes.length_buffers columns]
      rfl

@[simp] theorem Nodes.length_buffers : ∀ (columns : Nodes) (start : Nat),
    (columns.buffers start).length = columns.schema.size
  | .nil, _ => rfl
  | .cons _ node rest, _ => by
      rw [Nodes.buffers, List.length_append, Node.length_buffers node, Nodes.length_buffers rest]
      rfl

end

mutual

@[simp] theorem Node.length_counts : ∀ node : Node, node.counts.length = node.type.arrays
  | .scalar _ _ => rfl
  | .array _ _ _ entry => congrArg (· + 1) (Node.length_counts entry)
  | .tuple _ _ columns => Nodes.length_counts columns

@[simp] theorem Nodes.length_counts : ∀ columns : Nodes,
    columns.counts.length = columns.schema.arrays
  | .nil => rfl
  | .cons _ node rest => by
      rw [Nodes.counts, List.length_append, Node.length_counts node, Nodes.length_counts rest]
      rfl

end

/-! ### What is before and after -/

/-- The parts of a list on both sides of another part. -/
structure Sides (α : Type) where
  before : List α
  after : List α

namespace Sides

variable {α : Type}

/-- The whole list, with a part in the middle. -/
def around (sides : Sides α) (middle : List α) : List α :=
  sides.before ++ (middle ++ sides.after)

/-- The sides of what is in front of a part that belongs to the middle. -/
def addAfter (sides : Sides α) (part : List α) : Sides α :=
  ⟨sides.before, part ++ sides.after⟩

/-- The sides of what is behind a part that belongs to the middle. -/
def addBefore (sides : Sides α) (part : List α) : Sides α :=
  ⟨sides.before ++ part, sides.after⟩

theorem around_addAfter (sides : Sides α) (middle part : List α) :
    (sides.addAfter part).around middle = sides.around (middle ++ part) := by
  simp [around, addAfter]

theorem around_addBefore (sides : Sides α) (middle part : List α) :
    (sides.addBefore part).around middle = sides.around (part ++ middle) := by
  simp [around, addBefore]

/-- What is found behind some part of the middle. -/
theorem getElem?_around (sides : Sides α) (front : List α) (item : α) :
    (sides.around (front ++ [item]))[sides.before.length + front.length]? = some item := by
  have split : sides.around (front ++ [item]) = (sides.before ++ front) ++ item :: sides.after := by
    simp [around]
  rw [split, ← List.length_append, List.getElem?_append_right (Nat.le_refl _), Nat.sub_self]
  rfl

/-- What is behind some part of the middle is replaced there. -/
theorem set_around (sides : Sides α) (front : List α) (item other : α) :
    (sides.around (front ++ [item])).set (sides.before.length + front.length) other =
      sides.around (front ++ [other]) := by
  simp [around, ← List.append_assoc]

/-- What begins the middle is found there. -/
theorem getElem?_around_head (sides : Sides α) (item : α) (rest : List α) :
    (sides.around (item :: rest))[sides.before.length]? = some item := by
  simp [around]

/-- What begins the middle is replaced there. -/
theorem set_around_head (sides : Sides α) (item other : α) (rest : List α) :
    (sides.around (item :: rest)).set sides.before.length other =
      sides.around (other :: rest) := by
  simp [around]

end Sides

/-- What an arena has on both sides of what is registered for a column. -/
structure Around where
  buffers : Sides Buffer
  placements : Sides Placement
  counts : Sides Nat
  top : List Nat
  aligned : placements.before.length = buffers.before.length

namespace Around

/-- The number that the next buffer has. -/
def start (around : Around) : Nat :=
  around.buffers.before.length

/-- The number that the next cursor has. -/
def cursor (around : Around) : Nat :=
  around.counts.before.length

/-- The arena with something in the middle. -/
def fill (around : Around) (buffers : List Buffer) (placements : List Placement)
    (counts : List Nat) : Arena :=
  ⟨⟨(around.buffers.around buffers).toArray⟩, (around.placements.around placements).toArray,
    (around.counts.around counts).toArray, around.top⟩

/-- The arena with a column that is written at a cursor. -/
def holding (around : Around) (path : String) (position : Nat) (appends : Bool) (node : Node) :
    Arena :=
  around.fill (node.buffers around.start)
    (node.type.placements path position appends around.start around.cursor) node.counts

/-- The arena with columns that are written at a cursor. -/
def holdingEach (around : Around) (parent : String) (position : Nat) (columns : Nodes) : Arena :=
  around.fill (columns.buffers around.start)
    (columns.schema.placements parent position around.start around.cursor) columns.counts

/-- What is around the entry of an array. -/
def inArray (around : Around) (path : String) (position : Nat) (slots : Slots) (elements : Nat)
    (element : ColumnType) : Around where
  buffers := around.buffers.addAfter [.slots (around.start + element.inner) slots]
  placements := around.placements.addAfter
    [⟨path, position, some around.cursor, false, [around.start + element.inner]⟩]
  counts := around.counts.addBefore [elements]
  top := around.top
  aligned := around.aligned

/-- What is around the columns of a tuple. -/
def inTuple (around : Around) (path : String) (position count : Nat) (schema : Schema) :
    Around where
  buffers := around.buffers.addAfter [.group schema.names (schema.numbers around.start) count]
  placements := around.placements.addAfter
    [⟨path, position, none, false, schema.numbers around.start⟩]
  counts := around.counts
  top := around.top
  aligned := around.aligned

/-- What is around the first column, with the others after it. -/
def beforeRest (around : Around) (parent : String) (position : Nat) (first : ColumnType)
    (rest : Nodes) : Around where
  buffers := around.buffers.addAfter (rest.buffers (around.start + first.inner + 1))
  placements := around.placements.addAfter (rest.schema.placements parent position
    (around.start + first.inner + 1) (around.cursor + first.arrays))
  counts := around.counts.addAfter rest.counts
  top := around.top
  aligned := around.aligned

/-- What is around the other columns, with the first before them. -/
def afterFirst (around : Around) (parent name : String) (position : Nat) (first : Node) :
    Around where
  buffers := around.buffers.addBefore (first.buffers around.start)
  placements := around.placements.addBefore (first.type.placements (childPath parent name) position
    false around.start around.cursor)
  counts := around.counts.addBefore first.counts
  top := around.top
  aligned := by simp [Sides.addBefore, around.aligned]

@[simp] theorem start_inArray (around : Around) (path : String) (position : Nat) (slots : Slots)
    (elements : Nat) (element : ColumnType) :
    (around.inArray path position slots elements element).start = around.start := rfl

@[simp] theorem cursor_inArray (around : Around) (path : String) (position : Nat) (slots : Slots)
    (elements : Nat) (element : ColumnType) :
    (around.inArray path position slots elements element).cursor = around.cursor + 1 :=
  List.length_append

@[simp] theorem start_inTuple (around : Around) (path : String) (position count : Nat)
    (schema : Schema) : (around.inTuple path position count schema).start = around.start := rfl

@[simp] theorem cursor_inTuple (around : Around) (path : String) (position count : Nat)
    (schema : Schema) : (around.inTuple path position count schema).cursor = around.cursor := rfl

@[simp] theorem start_beforeRest (around : Around) (parent : String) (position : Nat)
    (first : ColumnType) (rest : Nodes) :
    (around.beforeRest parent position first rest).start = around.start := rfl

@[simp] theorem cursor_beforeRest (around : Around) (parent : String) (position : Nat)
    (first : ColumnType) (rest : Nodes) :
    (around.beforeRest parent position first rest).cursor = around.cursor := rfl

@[simp] theorem start_afterFirst (around : Around) (parent name : String) (position : Nat)
    (first : Node) :
    (around.afterFirst parent name position first).start =
      around.start + first.type.inner + 1 := by
  simp [start, afterFirst, Sides.addBefore, Nat.add_assoc]

@[simp] theorem cursor_afterFirst (around : Around) (parent name : String) (position : Nat)
    (first : Node) :
    (around.afterFirst parent name position first).cursor =
      around.cursor + first.type.arrays := by
  simp [cursor, afterFirst, Sides.addBefore]

/-! ### Looking at a column below -/

/-- An array is registered around its entry. -/
theorem holding_array (own : String) (appends : Bool) {around : Around} {path : String}
    {position elements : Nat} {slots : Slots} {entry : Node} {element : ColumnType}
    (typed : entry.type = element) :
    around.holding path position appends (.array own slots elements entry) =
      (around.inArray path position slots elements element).holding path around.cursor
        element.isScalar entry := by
  subst typed
  simp only [holding, fill, start_inArray, cursor_inArray, Node.buffers, Node.counts, Node.type,
    ColumnType.placements]
  simp only [inArray, Sides.around_addAfter, Sides.around_addBefore, List.singleton_append]

/-- A tuple is registered around its columns. -/
theorem holding_tuple (own : String) (appends : Bool) {around : Around} {path : String}
    {position count : Nat} {columns : Nodes} {schema : Schema}
    (typed : columns.schema = schema) :
    around.holding path position appends (.tuple own count columns) =
      (around.inTuple path position count schema).holdingEach path position columns := by
  subst typed
  simp only [holding, holdingEach, fill, start_inTuple, cursor_inTuple, Node.buffers, Node.counts,
    Node.type, ColumnType.placements]
  simp only [inTuple, Sides.around_addAfter]

/-- Columns are registered around the first of them. -/
theorem holdingEach_first {around : Around} {parent name : String} {position : Nat}
    {first : Node} {type : ColumnType} {rest : Nodes} (typed : first.type = type) :
    around.holdingEach parent position (.cons name first rest) =
      (around.beforeRest parent position type rest).holding (childPath parent name) position
        false first := by
  subst typed
  simp only [holding, holdingEach, fill, start_beforeRest, cursor_beforeRest, Nodes.buffers,
    Nodes.counts, Nodes.schema, Schema.placements]
  simp only [beforeRest, Sides.around_addAfter]

/-- Columns are registered around those behind the first. -/
theorem holdingEach_rest (around : Around) (parent name : String) (position : Nat) (first : Node)
    (rest : Nodes) :
    around.holdingEach parent position (.cons name first rest) =
      (around.afterFirst parent name position first).holdingEach parent position rest := by
  simp only [holdingEach, fill, start_afterFirst, cursor_afterFirst, Nodes.buffers,
    Nodes.counts, Nodes.schema, Schema.placements]
  simp only [afterFirst, Sides.around_addBefore]

end Around

/-! ### The last of the numbers -/

/-- The buffer of a column itself. -/
def Node.buffer (start : Nat) : Node → Buffer
  | .scalar _ values => .scalar values
  | .array _ slots _ entry => .slots (start + entry.type.inner) slots
  | .tuple _ count columns => .group columns.schema.names (columns.schema.numbers start) count

/-- The buffers of all columns below a column. -/
def Node.innerBuffers (start : Nat) : Node → List Buffer
  | .scalar _ _ => []
  | .array _ _ _ entry => entry.buffers start
  | .tuple _ _ columns => columns.buffers start

theorem Node.buffers_eq (node : Node) (start : Nat) :
    node.buffers start = node.innerBuffers start ++ [node.buffer start] := by
  cases node <;> rfl

@[simp] theorem Node.length_innerBuffers (node : Node) (start : Nat) :
    (node.innerBuffers start).length = node.type.inner := by
  cases node with
  | scalar _ _ => rfl
  | array _ _ _ entry => exact entry.length_buffers start
  | tuple _ _ columns => exact columns.length_buffers start

/-- The place of a column itself. -/
def ColumnType.placement (path : String) (position : Nat) (appends : Bool) (start cursor : Nat) :
    ColumnType → Placement
  | .scalar _ => ⟨path, position, none, appends, []⟩
  | .array element => ⟨path, position, some cursor, false, [start + element.inner]⟩
  | .tuple columns => ⟨path, position, none, false, columns.numbers start⟩

/-- The places of all columns below a column. -/
def ColumnType.innerPlacements (path : String) (position start cursor : Nat) :
    ColumnType → List Placement
  | .scalar _ => []
  | .array element => element.placements path cursor element.isScalar start (cursor + 1)
  | .tuple columns => columns.placements path position start cursor

theorem ColumnType.placements_eq (type : ColumnType) (path : String) (position : Nat)
    (appends : Bool) (start cursor : Nat) :
    type.placements path position appends start cursor =
      type.innerPlacements path position start cursor ++
        [type.placement path position appends start cursor] := by
  cases type <;> rfl

@[simp] theorem ColumnType.length_innerPlacements (type : ColumnType) (path : String)
    (position start cursor : Nat) :
    (type.innerPlacements path position start cursor).length = type.inner := by
  cases type with
  | scalar _ => rfl
  | array element => exact element.length_placements ..
  | tuple columns => exact columns.length_placements ..

namespace Around

variable (around : Around) (path : String) (position : Nat) (appends : Bool)

/-- The buffer of a column is found at the last of its numbers. -/
@[simp] theorem get?_holding (node : Node) :
    (around.holding path position appends node).store.get? (around.start + node.type.inner) =
      some (node.buffer around.start) := by
  have found : (around.buffers.around (node.buffers around.start))[
      around.start + node.type.inner]? = some (node.buffer around.start) := by
    rw [node.buffers_eq, ← node.length_innerBuffers around.start]
    exact around.buffers.getElem?_around _ _
  simpa [holding, fill, Store.get?] using found

/-- The place of a column is found at the last of its numbers. -/
@[simp] theorem placement_holding (node : Node) :
    (around.holding path position appends node).placements[around.start + node.type.inner]? =
      some (node.type.placement path position appends around.start around.cursor) := by
  have found : (around.placements.around (node.type.placements path position appends around.start
      around.cursor))[around.start + node.type.inner]? =
        some (node.type.placement path position appends around.start around.cursor) := by
    rw [node.type.placements_eq,
      ← node.type.length_innerPlacements path position around.start around.cursor, start,
      ← around.aligned]
    exact around.placements.getElem?_around _ _
  simpa [holding, fill] using found

/-- The cursor of an array is found before those below it. -/
@[simp] theorem cursors_holding (own : String) (slots : Slots) (elements : Nat) (entry : Node) :
    (around.holding path position appends (.array own slots elements entry)).cursors[
      around.cursor]? = some elements := by
  have found : (around.counts.around (elements :: entry.counts))[around.cursor]? = some elements :=
    around.counts.getElem?_around_head elements entry.counts
  simpa [holding, fill, Node.counts] using found

/-- Another buffer in the place of that of a column makes another column of it. -/
theorem put_holding (node other : Node) (type : other.type = node.type)
    (inner : other.innerBuffers around.start = node.innerBuffers around.start)
    (counts : other.counts = node.counts) :
    (around.holding path position appends node).put (around.start + node.type.inner)
        (other.buffer around.start) =
      around.holding path position appends other := by
  have replaced : (around.buffers.around (node.buffers around.start)).set
      (around.start + node.type.inner) (other.buffer around.start) =
        around.buffers.around (other.buffers around.start) := by
    rw [node.buffers_eq, other.buffers_eq, inner, ← node.length_innerBuffers around.start]
    exact around.buffers.set_around _ _ _
  simp only [holding, fill, Arena.put, Store.replace, List.setIfInBounds_toArray, type, counts,
    replaced]

/-- Another number of elements in the cursor of an array. -/
theorem setCursor_holding (own : String) (slots : Slots) (elements other : Nat) (entry : Node) :
    (around.holding path position appends (.array own slots elements entry)).setCursor
        (some around.cursor) other =
      around.holding path position appends (.array own slots other entry) := by
  have replaced : (around.counts.around (elements :: entry.counts)).set around.cursor other =
      around.counts.around (other :: entry.counts) :=
    around.counts.set_around_head elements other entry.counts
  simp only [holding, fill, Arena.setCursor, Node.counts, Node.buffers, Node.type,
    List.setIfInBounds_toArray, replaced]

end Around

end Columnar
