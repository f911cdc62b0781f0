import Columnar.Proofs.Arena.Registering
import Columnar.Proofs.Buffer.Forest
import Columnar.Proofs.Places

/-!
# Numbers in an arena

Every column of a schema has a number, and every number belongs to one column. The buffers name each
number once, but for those of the columns of the row, and only numbers that are smaller than their
own. Every cursor but that of the rows belongs to one array.
-/

namespace Columnar

/-! ### Parts and cursors -/

mutual

/-- The places of a column name every number but the last, each once. -/
theorem ColumnType.children_perm : ∀ (type : ColumnType) (path : String) (position : Nat)
    (appends : Bool) (start cursor : Nat),
    ((type.placements path position appends start cursor).flatMap Placement.children).Perm
      (List.range' start type.inner)
  | .scalar _, _, _, _, _, _ => .refl _
  | .array element, path, _, _, start, cursor => by
      have below := ColumnType.children_perm element path cursor element.isScalar start (cursor + 1)
      rw [ColumnType.placements, List.flatMap_append, ColumnType.inner, List.range'_concat,
        Nat.one_mul]
      exact below.append (.refl _)
  | .tuple columns, path, position, _, start, cursor => by
      have below := Schema.children_perm columns path position start cursor
      rw [ColumnType.placements, List.flatMap_append, List.flatMap_singleton]
      exact below

/-- The places of columns name every number, with those of the columns themselves, each once. -/
theorem Schema.children_perm : ∀ (schema : Schema) (parent : String) (position start cursor : Nat),
    ((schema.placements parent position start cursor).flatMap Placement.children ++
      schema.numbers start).Perm (List.range' start schema.size)
  | .nil, _, _, _, _ => .refl _
  | .cons name type rest, parent, position, start, cursor => by
      have first := ColumnType.children_perm type (childPath parent name) position false start
        cursor
      have others := Schema.children_perm rest parent position (start + type.inner + 1)
        (cursor + type.arrays)
      have own : (List.range' start (type.inner + 1)) =
          List.range' start type.inner ++ [start + type.inner] := by
        rw [List.range'_concat, Nat.one_mul]
      have whole := (first.append (.refl [start + type.inner])).append others
      rw [← own, Nat.add_assoc start, List.range'_append_1] at whole
      refine List.Perm.trans ?_ whole
      rw [Schema.placements, List.flatMap_append, Schema.numbers, List.append_assoc,
        List.append_assoc, List.singleton_append, Nat.add_assoc start]
      exact List.perm_middle.append_left _

end

mutual

/-- The arrays of a column keep each of its cursors once. -/
theorem ColumnType.elements_perm : ∀ (type : ColumnType) (path : String) (position : Nat)
    (appends : Bool) (start cursor : Nat),
    ((type.placements path position appends start cursor).filterMap Placement.elements?).Perm
      (List.range' cursor type.arrays)
  | .scalar _, _, _, _, _, _ => .refl _
  | .array element, path, _, _, start, cursor => by
      have below := ColumnType.elements_perm element path cursor element.isScalar start (cursor + 1)
      rw [ColumnType.placements, List.filterMap_append, ColumnType.arrays, List.range'_succ]
      exact (List.perm_append_singleton cursor _).trans (below.cons cursor)
  | .tuple columns, path, position, _, start, cursor => by
      have below := Schema.elements_perm columns path position start cursor
      rw [ColumnType.placements, List.filterMap_append]
      simpa [ColumnType.arrays] using below

/-- The arrays of columns keep each of their cursors once. -/
theorem Schema.elements_perm : ∀ (schema : Schema) (parent : String) (position start cursor : Nat),
    ((schema.placements parent position start cursor).filterMap Placement.elements?).Perm
      (List.range' cursor schema.arrays)
  | .nil, _, _, _, _ => .refl _
  | .cons name type rest, parent, position, start, cursor => by
      have first := ColumnType.elements_perm type (childPath parent name) position false start
        cursor
      have others := Schema.elements_perm rest parent position (start + type.inner + 1)
        (cursor + type.arrays)
      rw [Schema.placements, List.filterMap_append, Schema.arrays, ← List.range'_append_1]
      exact first.append others

end

mutual

/-- The buffers of a column name the parts that its places name. -/
theorem Node.children_buffers : ∀ (node : Node) (path : String) (position : Nat) (appends : Bool)
    (start cursor : Nat),
    (node.buffers start).map Buffer.children =
      (node.type.placements path position appends start cursor).map Placement.children
  | .scalar _ _, _, _, _, _, _ => rfl
  | .array _ _ _ entry, path, _, _, start, cursor => by
      have below := Node.children_buffers entry path cursor entry.type.isScalar start (cursor + 1)
      rw [Node.buffers, Node.type, ColumnType.placements, List.map_append, List.map_append, below]
      rfl
  | .tuple _ _ columns, path, position, _, start, cursor => by
      have below := Nodes.children_buffers columns path position start cursor
      rw [Node.buffers, Node.type, ColumnType.placements, List.map_append, List.map_append, below]
      rfl

/-- The buffers of columns name the parts that their places name. -/
theorem Nodes.children_buffers : ∀ (columns : Nodes) (parent : String)
    (position start cursor : Nat),
    (columns.buffers start).map Buffer.children =
      (columns.schema.placements parent position start cursor).map Placement.children
  | .nil, _, _, _, _ => rfl
  | .cons name node rest, parent, position, start, cursor => by
      rw [Nodes.buffers, Nodes.schema, Schema.placements, List.map_append, List.map_append,
        Node.children_buffers node (childPath parent name) position false start cursor,
        Nodes.children_buffers rest parent position (start + node.type.inner + 1)
          (cursor + node.type.arrays)]

end

namespace Nodes

variable (columns : Nodes) (row : Nat)

@[simp] theorem size_arena : (columns.arena row).store.size = columns.schema.size := by
  simp [Nodes.arena, Around.holdingEach, Around.fill, Around.row, Sides.around, Store.size]

@[simp] theorem size_placements_arena :
    (columns.arena row).placements.size = columns.schema.size := by
  simp [Nodes.arena, Around.holdingEach, Around.fill, Around.row, Sides.around]

/-- Each number is named once, as a part or as a column of the row. -/
theorem children_arena :
    ((columns.arena row).store.buffers.toList.flatMap Buffer.children ++
      (columns.arena row).top).Perm (List.range (columns.arena row).store.size) := by
  have named := Schema.children_perm columns.schema "" Layout.rowCursor 0 1
  have same : (columns.buffers 0).flatMap Buffer.children =
      (columns.schema.placements "" Layout.rowCursor 0 1).flatMap Placement.children := by
    rw [List.flatMap_def, List.flatMap_def, children_buffers]
  rw [size_arena, List.range_eq_range']
  simpa [Nodes.arena, Around.holdingEach, Around.fill, Around.row, Sides.around, Around.start, same]
    using named

/-- Each cursor but that of the rows is kept by one array. -/
theorem cursors_arena :
    ((columns.arena row).placements.toList.filterMap Placement.elements?).Perm
      (List.range' 1 ((columns.arena row).cursors.size - 1)) := by
  have kept := Schema.elements_perm columns.schema "" Layout.rowCursor 0 1
  simpa [Nodes.arena, Around.holdingEach, Around.fill, Around.row, Sides.around, Around.start,
    Around.cursor] using kept

end Nodes

/-! ### Addresses -/

mutual

/-- The addresses of a column, counted from itself, and of all columns below it, the parts before
the whole. -/
def ColumnType.addresses : ColumnType → List (List Step)
  | .scalar _ => [[]]
  | .array element => element.addresses.map (.entry :: ·) ++ [[]]
  | .tuple columns => columns.addressesFrom 0 ++ [[]]

/-- The addresses of columns, the first of which has a given position, and of all columns below
them. -/
def Schema.addressesFrom (position : Nat) : Schema → List (List Step)
  | .nil => []
  | .cons _ type rest =>
      type.addresses.map (.column (.position position) :: ·) ++ rest.addressesFrom (position + 1)

end

/-- The addresses of the columns of a schema at every depth, the parts before the whole. -/
def Schema.addresses (schema : Schema) : List (List Step) :=
  schema.addressesFrom 0

/-- The part of a buffer that one step leads to. -/
def Buffer.part? : Buffer → Step → Option Nat
  | .slots entry _, .entry => some entry
  | .group _ parts _, .column (.position position) => parts[position]?
  | _, _ => none

namespace Store

/-- The number at the end of an address that is counted from a buffer. -/
def follow (store : Store) (id : Nat) : List Step → Option Nat
  | [] => some id
  | step :: rest => do
      let buffer ← store.get? id
      let part ← buffer.part? step
      store.follow part rest

/-- The number at the end of an address that begins at one of some columns. -/
def followFrom (store : Store) (ids : List Nat) : List Step → Option Nat
  | .column (.position position) :: rest => do
      let id ← ids[position]?
      store.follow id rest
  | _ => none

variable {store : Store} {id : Nat}

theorem follow_slots {entry : Nat} {ends : Slots}
    (found : store.get? id = some (.slots entry ends)) (address : List Step) :
    store.follow id (.entry :: address) = store.follow entry address := by
  rw [follow, found]
  rfl

theorem follow_group {names : List String} {parts : List Nat} {count : Nat}
    (found : store.get? id = some (.group names parts count)) {address : List Step}
    (further : address ≠ []) : store.follow id address = store.followFrom parts address := by
  cases address with
  | nil => exact absurd rfl further
  | cons step rest =>
    rw [follow, found]
    cases step with
    | entry => rfl
    | column index => cases index <;> rfl

end Store

/-- No address of columns ends where it begins. -/
theorem Schema.nil_notMem_addressesFrom (schema : Schema) (position : Nat) :
    [] ∉ schema.addressesFrom position := by
  cases schema with
  | nil => exact List.not_mem_nil
  | cons name type rest =>
    simpa [Schema.addressesFrom] using Schema.nil_notMem_addressesFrom rest (position + 1)

/-- The number of the column at an address. -/
def Arena.number? (arena : Arena) (address : List Step) : Option Nat :=
  arena.store.followFrom arena.top address

mutual

/-- The addresses of a column lead to its numbers, in order. -/
theorem Node.follow_holding : ∀ (node : Node) (around : Around) (path : String) (position : Nat)
    (appends : Bool),
    node.type.addresses.map ((around.holding path position appends node).store.follow
        (around.start + node.type.inner)) =
      (List.range' around.start (node.type.inner + 1)).map some
  | .scalar _ _, _, _, _, _ => rfl
  | .array own slots elements entry, around, path, position, appends => by
      have below := Node.follow_holding entry
        (around.inArray path position slots elements entry.type) path around.cursor
        entry.type.isScalar
      rw [← Around.holding_array own appends rfl] at below
      have found := around.get?_holding path position appends (.array own slots elements entry)
      have ahead : (entry.type.addresses.map (.entry :: ·)).map
          ((around.holding path position appends (.array own slots elements entry)).store.follow
            (around.start + (entry.type.inner + 1))) =
          (List.range' around.start (entry.type.inner + 1)).map some := by
        rw [List.map_map]
        exact (List.map_congr_left fun address _ => Store.follow_slots found address).trans below
      rw [Node.type, ColumnType.addresses, ColumnType.inner, List.map_append, List.range'_concat,
        Nat.one_mul, List.map_append, ahead]
      rfl
  | .tuple own shared columns, around, path, position, appends => by
      have below := Nodes.followFrom_holding columns
        (around.inTuple path position shared columns.schema) path position []
      rw [← Around.holding_tuple own appends rfl] at below
      have found := around.get?_holding path position appends (.tuple own shared columns)
      have ahead : (columns.schema.addressesFrom 0).map
          ((around.holding path position appends (.tuple own shared columns)).store.follow
            (around.start + columns.schema.size)) =
          (List.range' around.start columns.schema.size).map some := by
        refine (List.map_congr_left fun address member => ?_).trans below
        refine Store.follow_group found ?_
        rintro rfl
        exact Schema.nil_notMem_addressesFrom _ _ member
      rw [Node.type, ColumnType.addresses, ColumnType.inner, List.map_append, List.range'_concat,
        Nat.one_mul, List.map_append, ahead]
      rfl

/-- The addresses of columns that come behind others lead to their numbers, in order. -/
theorem Nodes.followFrom_holding : ∀ (columns : Nodes) (around : Around) (parent : String)
    (position : Nat) (front : List Nat),
    (columns.schema.addressesFrom front.length).map
        ((around.holdingEach parent position columns).store.followFrom
          (front ++ columns.schema.numbers around.start)) =
      (List.range' around.start columns.schema.size).map some
  | .nil, _, _, _, _ => rfl
  | .cons name node rest, around, parent, position, front => by
      have first := Node.follow_holding node (around.beforeRest parent position node.type rest)
        (childPath parent name) position false
      have others := Nodes.followFrom_holding rest (around.afterFirst parent name position node)
        parent position (front ++ [around.start + node.type.inner])
      rw [← Around.holdingEach_first rfl] at first
      rw [← Around.holdingEach_rest, Around.start_afterFirst, List.length_append,
        List.append_assoc] at others
      have step : ∀ address,
          (around.holdingEach parent position (.cons name node rest)).store.followFrom
              (front ++ (around.start + node.type.inner) ::
                rest.schema.numbers (around.start + node.type.inner + 1))
              (.column (.position front.length) :: address) =
            (around.holdingEach parent position (.cons name node rest)).store.follow
              (around.start + node.type.inner) address := by
        intro address
        rw [Store.followFrom, List.getElem?_append_right (Nat.le_refl _), Nat.sub_self]
        rfl
      rw [Nodes.schema, Schema.addressesFrom, List.map_append, List.map_map, Schema.size,
        ← List.range'_append_1, List.map_append, ← Nat.add_assoc, ← others]
      exact congrArg₂ (· ++ ·) ((List.map_congr_left fun address _ => step address).trans first) rfl

end

/-- The addresses in a schema lead to all numbers, in order. -/
theorem Nodes.numbers_arena (columns : Nodes) (row : Nat) :
    columns.schema.addresses.map (columns.arena row).number? =
      (List.range (columns.arena row).store.size).map some := by
  rw [size_arena, List.range_eq_range']
  exact Nodes.followFrom_holding columns (Around.row columns.schema row) "" Layout.rowCursor []

end Columnar
