import Columnar.Proofs.Arena.Segments

/-!
# Registering

Registering the columns of a schema puts the buffers, the places and the cursors of the empty
columns behind those that are there, in the order that the layout of a draft tells.
-/

namespace Columnar

mutual

@[simp] theorem Node.type_ofType (capacity : Nat) : ∀ (path : String) (type : ColumnType),
    (Node.ofType capacity path type).type = type
  | _, .scalar type => by cases type <;> rfl
  | path, .array element => congrArg ColumnType.array (Node.type_ofType capacity path element)
  | path, .tuple columns => congrArg ColumnType.tuple (Nodes.schema_ofSchema capacity path columns)

@[simp] theorem Nodes.schema_ofSchema (capacity : Nat) : ∀ (parent : String) (schema : Schema),
    (Nodes.ofSchema capacity parent schema).schema = schema
  | _, .nil => rfl
  | parent, .cons name type rest => by
      rw [Nodes.ofSchema, Nodes.schema, Node.type_ofType capacity _ type,
        Nodes.schema_ofSchema capacity parent rest]

end

/-! ### In an arena -/

namespace Around

/-- Nothing comes after. -/
structure IsLast (around : Around) : Prop where
  buffers : around.buffers.after = []
  placements : around.placements.after = []
  counts : around.counts.after = []

variable {around : Around}

/-- A buffer is registered behind what is there. -/
theorem IsLast.register (last : around.IsLast) (buffers : List Buffer)
    (placements : List Placement) (counts : List Nat) (buffer : Buffer) (placement : Placement) :
    (around.fill buffers placements counts).register buffer placement =
      (around.fill (buffers ++ [buffer]) (placements ++ [placement]) counts,
        around.start + buffers.length) := by
  simp [Arena.register, Store.push, Store.size, fill, Sides.around, last.buffers, last.placements,
    start]

/-- A cursor is added behind those that are there. -/
theorem IsLast.addCursor (last : around.IsLast) :
    (around.fill [] [] []).addCursor = (around.fill [] [] [0], around.cursor) := by
  simp [Arena.addCursor, fill, Sides.around, last.counts, cursor]

/-- What is around what comes behind a cursor. -/
def afterCursor (around : Around) (elements : Nat) : Around :=
  { around with counts := around.counts.addBefore [elements] }

theorem fill_afterCursor (around : Around) (elements : Nat) (buffers : List Buffer)
    (placements : List Placement) (counts : List Nat) :
    (around.afterCursor elements).fill buffers placements counts =
      around.fill buffers placements (elements :: counts) := by
  simp [fill, afterCursor, Sides.around_addBefore]

theorem IsLast.afterCursor (last : around.IsLast) (elements : Nat) :
    (around.afterCursor elements).IsLast :=
  ⟨last.buffers, last.placements, last.counts⟩

theorem IsLast.afterFirst (last : around.IsLast) (parent name : String) (position : Nat)
    (first : Node) : (around.afterFirst parent name position first).IsLast :=
  ⟨last.buffers, last.placements, last.counts⟩

/-- A column that is there comes before what follows. -/
theorem fill_afterFirst (around : Around) (parent name : String) (position : Nat) (first : Node) :
    (around.afterFirst parent name position first).fill [] [] [] =
      around.holding (childPath parent name) position false first := by
  simp [fill, holding, Around.afterFirst, Sides.around_addBefore]

end Around

mutual

/-- Registering a column adds its empty buffers. -/
theorem ColumnType.register_eq (capacity : Nat) : ∀ (type : ColumnType) (around : Around)
    (path : String) (position : Nat) (appends : Bool), around.IsLast →
    type.register capacity path position appends (around.fill [] [] []) =
      (around.holding path position appends (.ofType capacity path type),
        around.start + type.inner)
  | .scalar type, around, path, position, appends, last => by
      rw [ColumnType.register, last.register]
      cases type <;> rfl
  | .array element, around, path, position, appends, last => by
      have below := ColumnType.register_eq capacity element _ path around.cursor element.isScalar
        (last.afterCursor 0)
      rw [Around.fill_afterCursor] at below
      simp only [ColumnType.register, last.addCursor, below, Around.holding,
        Around.fill_afterCursor, last.register]
      simp [Node.ofType, Node.buffers, Node.counts, Node.type, ColumnType.placements,
        ColumnType.inner, Buffer.ofEntry, Around.afterCursor, Around.start, Around.cursor,
        Sides.addBefore]
  | .tuple columns, around, path, position, appends, last => by
      have below := Schema.register_eq capacity columns _ path position last
      simp only [ColumnType.register, below, Around.holdingEach, last.register]
      simp [Around.holding, Node.ofType, Node.buffers, Node.counts, Node.type,
        ColumnType.placements, ColumnType.inner, Buffer.ofChildren]

/-- Registering columns adds their empty buffers. -/
theorem Schema.register_eq (capacity : Nat) : ∀ (schema : Schema) (around : Around)
    (parent : String) (position : Nat), around.IsLast →
    schema.register capacity parent position (around.fill [] [] []) =
      (around.holdingEach parent position (.ofSchema capacity parent schema),
        schema.numbers around.start)
  | .nil, _, _, _, _ => rfl
  | .cons name type rest, around, parent, position, last => by
      have first := ColumnType.register_eq capacity type _ (childPath parent name) position false
        last
      have others := Schema.register_eq capacity rest _ parent position
        (last.afterFirst parent name position (.ofType capacity (childPath parent name) type))
      rw [Around.fill_afterFirst] at others
      simp only [Schema.register, first, others, Nodes.ofSchema, Around.holdingEach_rest,
        Around.start_afterFirst, Node.type_ofType, Schema.numbers]

end

/-! ### In a layout -/

mutual

/-- A layout gets the places and the cursors of a column. -/
theorem ColumnType.layOut_eq : ∀ (type : ColumnType) (path : String) (position : Nat)
    (appends : Bool) (placements : List Placement) (cursors : Nat),
    type.layOut path position appends ⟨placements.toArray, cursors⟩ =
      (⟨(placements ++ type.placements path position appends placements.length cursors).toArray,
        cursors + type.arrays⟩, placements.length + type.inner)
  | .scalar _, _, _, _, _, _ => by
      simp [ColumnType.layOut, Layout.place, Layout.size, ColumnType.placements, ColumnType.arrays,
        ColumnType.inner]
  | .array element, path, position, appends, placements, cursors => by
      have below := ColumnType.layOut_eq element path cursors element.isScalar placements
        (cursors + 1)
      simp only [ColumnType.layOut, Layout.addCursor, below]
      simp [Layout.place, Layout.size, ColumnType.placements, ColumnType.arrays, ColumnType.inner]
      omega
  | .tuple columns, path, position, appends, placements, cursors => by
      have below := Schema.layOut_eq columns path position placements cursors
      simp only [ColumnType.layOut, below]
      simp [Layout.place, Layout.size, ColumnType.placements, ColumnType.arrays, ColumnType.inner]

/-- A layout gets the places and the cursors of columns. -/
theorem Schema.layOut_eq : ∀ (schema : Schema) (parent : String) (position : Nat)
    (placements : List Placement) (cursors : Nat),
    schema.layOut parent position ⟨placements.toArray, cursors⟩ =
      (⟨(placements ++ schema.placements parent position placements.length cursors).toArray,
        cursors + schema.arrays⟩, schema.numbers placements.length)
  | .nil, _, _, _, _ => by
      simp [Schema.layOut, Schema.placements, Schema.arrays, Schema.numbers]
  | .cons name type rest, parent, position, placements, cursors => by
      have first := ColumnType.layOut_eq type (childPath parent name) position false placements
        cursors
      have others := Schema.layOut_eq rest parent position
        (placements ++ type.placements (childPath parent name) position false placements.length
          cursors) (cursors + type.arrays)
      simp only [Schema.layOut, first, others]
      simp [Schema.placements, Schema.arrays, Schema.numbers, Nat.add_assoc]

end

/-! ### The whole arena -/

/-- What is around the columns of a schema, with the number of the row in the first cursor. -/
def Around.row (schema : Schema) (row : Nat) : Around :=
  ⟨⟨[], []⟩, ⟨[], []⟩, ⟨[row], []⟩, schema.numbers 0, rfl⟩

/-- The arena of columns that are written for a row. -/
def Nodes.arena (columns : Nodes) (row : Nat) : Arena :=
  (Around.row columns.schema row).holdingEach "" Layout.rowCursor columns

/-- The arena of a draft. -/
def Draft.arena (draft : Draft) : Arena :=
  draft.columns.arena draft.row

/-- What is registered for a schema is the arena of a draft that begins. -/
theorem Arena.ofSchema_eq (schema : Schema) (limits : Limits) :
    Arena.ofSchema schema limits = (Draft.ofSchema schema limits).arena := by
  have registered := Schema.register_eq limits.bufferBytes schema (.row .nil 0) ""
    Layout.rowCursor ⟨rfl, rfl, rfl⟩
  have begun : (Around.row .nil 0).fill [] [] [] = Arena.empty := rfl
  rw [begun] at registered
  simp only [Arena.ofSchema, registered, Draft.arena, Draft.ofSchema, Nodes.arena,
    Nodes.schema_ofSchema]
  rfl

/-- The places and the number of cursors of an arena are those of the layout of its schema. -/
theorem Nodes.layout_arena (columns : Nodes) (row : Nat) :
    ((columns.arena row).layout, (columns.arena row).top) = Layout.ofSchema columns.schema := by
  have laidOut := Schema.layOut_eq columns.schema "" Layout.rowCursor [] 1
  rw [Layout.ofSchema]
  refine Eq.trans ?_ laidOut.symm
  simp [Arena.layout, Nodes.arena, Around.holdingEach, Around.fill, Around.row, Sides.around,
    Around.start, Around.cursor, Nat.add_comm]

end Columnar
