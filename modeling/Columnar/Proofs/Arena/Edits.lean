import Columnar.Proofs.Arena.Held
import Columnar.Proofs.Arena.WalksOnce
import Columnar.Proofs.Arena.Writer
import Columnar.Proofs.Draft.Locality
import Columnar.Proofs.Draft.Settling

/-!
# Edits in an arena

Writing and saving at the number of a column do in the arena what an edit at the end of a path does
to the columns of the draft: the buffer that the number finds is that of the column at the end of
the path, and the cursor that its place tells holds the slot that the path leads to.
-/

namespace Columnar

namespace Writer

/-- The edit that an operation is. -/
def Operation.edit : Operation → Edit
  | .write value => .set value
  | .saveElement => .saveElement

/-- Whether an operation is for a column of a type: values are written anywhere and refused where
there is no scalar, but only the elements of arrays are saved. -/
def Operation.fits : Operation → ColumnType → Bool
  | .write _, _ => true
  | .saveElement, .array _ => true
  | .saveElement, _ => false

end Writer

namespace Around

/-- Whether one of the cursors that were there before tells a slot. -/
def Tells (around : Around) (cursor slot : Nat) : Prop :=
  around.counts.before[cursor]? = some slot

variable {around : Around} {cursor slot : Nat}

/-- A cursor that was there before tells the same whatever is registered. -/
theorem Tells.cursors_holding (tells : around.Tells cursor slot) (path : String) (position : Nat)
    (appends : Bool) (node : Node) :
    (around.holding path position appends node).cursors[cursor]? = some slot := by
  have before : around.counts.before[cursor]? = some slot := tells
  obtain ⟨within, -⟩ := List.getElem?_eq_some_iff.mp before
  simp [holding, fill, Sides.around, List.getElem?_append_left within, before]

theorem Tells.addBefore (tells : around.Tells cursor slot) (part : List Nat) :
    (around.counts.addBefore part).before[cursor]? = some slot := by
  have before : around.counts.before[cursor]? = some slot := tells
  obtain ⟨within, -⟩ := List.getElem?_eq_some_iff.mp before
  exact (List.getElem?_append_left within).trans before

/-- The cursor of an array tells its elements to what is below it. -/
theorem tells_inArray (around : Around) (path : String) (position : Nat) (slots : Slots)
    (elements : Nat) (element : ColumnType) :
    (around.inArray path position slots elements element).Tells around.cursor elements := by
  simp [Tells, inArray, Sides.addBefore, Around.cursor]

end Around

theorem ColumnType.appends_placement (type : ColumnType) (path : String) (position : Nat)
    (appends : Bool) (start cursor : Nat) :
    (type.placement path position appends start cursor).appends = (appends && type.isScalar) := by
  cases type with
  | scalar _ => exact (Bool.and_true appends).symm
  | array _ => exact (Bool.and_false appends).symm
  | tuple _ => exact (Bool.and_false appends).symm

theorem ColumnType.position_placement (type : ColumnType) (path : String) (position : Nat)
    (appends : Bool) (start cursor : Nat) :
    (type.placement path position appends start cursor).position = position := by
  cases type <;> rfl

namespace Arena

@[simp] theorem goOn_false (arena : Arena) (cursor position : Nat) :
    arena.goOn false cursor position = arena := rfl

variable {arena : Arena} {id index : Nat} {buffer : Buffer} {placement : Placement}

/-- A scalar is written at the cursor that the place of a buffer tells. -/
theorem write_eq (found : arena.store.get? id = some buffer)
    (placed : arena.placements[id]? = some placement)
    (told : arena.cursors[placement.position]? = some index) (value : Scalar) :
    arena.write value id =
      some ((arena.put id (buffer.set index value).1).goOn
          (placement.appends && (buffer.set index value).2.isNone) placement.position index,
        (buffer.set index value).2.map
          (BufferError.refusal placement.path (buffer.set index value).1.kind)) := by
  simp [write, found, placed, told]

/-- A scalar entry has nothing to save. -/
theorem saveElement_appending {entry cursor : Nat} {ends : Slots} {below : Placement}
    (found : arena.store.get? id = some (.slots entry ends))
    (placed : arena.placements[id]? = some placement) (keeps : placement.elements? = some cursor)
    (placedBelow : arena.placements[entry]? = some below) (appends : below.appends = true) :
    arena.saveElement id = some (arena, none) := by
  simp [saveElement, found, placed, keeps, placedBelow, appends]

/-- The entry of an array is committed at the cursor of the array. -/
theorem saveElement_committing {entry cursor slot : Nat} {ends : Slots} {below : Placement}
    {walk : Walk} (found : arena.store.get? id = some (.slots entry ends))
    (placed : arena.placements[id]? = some placement) (keeps : placement.elements? = some cursor)
    (placedBelow : arena.placements[entry]? = some below) (stays : below.appends = false)
    (told : arena.cursors[cursor]? = some slot)
    (committed : commitWithin arena.store.size entry slot arena = some walk) :
    arena.saveElement id =
      some (walk.arena.goOn walk.refusal.isNone cursor slot, walk.refusal) := by
  simp [saveElement, found, placed, keeps, placedBelow, stays, told, committed]

/-- The elements of the current slot are those behind the end of the last. -/
theorem elementIndex_slots {entry cursor elements : Nat} {ends : Slots}
    (found : arena.store.get? id = some (.slots entry ends))
    (placed : arena.placements[id]? = some placement) (keeps : placement.elements? = some cursor)
    (told : arena.cursors[cursor]? = some elements) :
    arena.elementIndex id = some (elements - ends.lastOffset) := by
  simp [elementIndex, found, placed, keeps, told]

end Arena

namespace Node

variable {around : Around} {path : String} {position slot : Nat} {node : Node}

/-- Writing a scalar at the number of a column writes it into the column. -/
theorem write_holding (inPlace : node.InPlace path node.type) (tells : around.Tells position slot)
    (appends : Bool) (value : Scalar) :
    Arena.write value (around.start + node.type.inner)
        (around.holding path position appends node) =
      some ((around.holding path position appends (node.editHere none (.set value) slot).1).goOn
          (appends && node.isScalar && (node.editHere none (.set value) slot).2.isNone) position
          slot, (node.editHere none (.set value) slot).2) := by
  have told := tells.cursors_holding path position appends node
  have found := around.get?_holding path position appends node
  have placed := around.placement_holding path position appends node
  have same := around.put_holding path position appends node node rfl rfl rfl
  cases node with
  | scalar own values =>
    obtain ⟨rfl, -⟩ := inPlace
    have written := around.put_holding own position appends (.scalar own values)
      (.scalar own (values.set slot value).1) (by simp [Node.type]) rfl rfl
    simp only [Node.buffer, Node.type] at written found placed
    rw [Node.type, Arena.write_eq found placed told]
    simp only [Buffer.set, written, editHere, ScalarBuffer.write, ColumnType.placement, isScalar,
      Bool.and_true, Option.isNone_map, Option.map_map]
    rfl
  | array own slots elements entry =>
    obtain ⟨rfl, -⟩ := inPlace
    simp only [Node.buffer, Node.type] at same found placed
    rw [Node.type, Arena.write_eq found placed told]
    simp only [Buffer.set, same, isScalar, Bool.and_false]
    rfl
  | tuple own count columns =>
    obtain ⟨rfl, -⟩ := inPlace
    simp only [Node.buffer, Node.type] at same found placed
    rw [Node.type, Arena.write_eq found placed told]
    simp only [Buffer.set, same, isScalar, Bool.and_false]
    rfl

/-- Saving an element at the number of an array saves it in the array. -/
theorem saveElement_holding (own : String) (slots : Slots) (elements : Nat) {entry : Node}
    (inPlace : entry.InPlace path entry.type) (around : Around) (position : Nat) (appends : Bool) :
    Arena.saveElement (around.start + (Node.array own slots elements entry).type.inner)
        (around.holding path position appends (.array own slots elements entry)) =
      some (around.holding path position appends (.array own slots
        (saveElement none elements entry).1 (saveElement none elements entry).2.1),
        (saveElement none elements entry).2.2) := by
  have found := around.get?_holding path position appends (.array own slots elements entry)
  have placed := around.placement_holding path position appends (.array own slots elements entry)
  have told := around.cursors_holding path position appends own slots elements entry
  let inner := around.inArray path position slots elements entry.type
  have outside : around.holding path position appends (.array own slots elements entry) =
      inner.holding path around.cursor entry.type.isScalar entry :=
    Around.holding_array own appends rfl
  have placedBelow :=
    inner.placement_holding path around.cursor entry.type.isScalar entry
  rw [← outside] at placedBelow
  have below : (entry.type.placement path around.cursor entry.type.isScalar inner.start
      inner.cursor).appends = entry.isScalar := by
    rw [ColumnType.appends_placement, Bool.and_self, entry.isScalar_type]
  cases scalar : entry.isScalar with
  | true =>
    rw [Arena.saveElement_appending found placed rfl placedBelow (below.trans scalar)]
    simp only [saveElement, scalar, if_true]
  | false =>
    obtain ⟨visited, -, ends⟩ :=
      entry.commitWithin_holding inner around.cursor entry.type.isScalar elements inPlace
    obtain ⟨within, -⟩ := Array.getElem?_eq_some_iff.mp found
    have deep : entry.type.inner < (around.holding path position appends
        (.array own slots elements entry)).store.size :=
      Nat.lt_of_le_of_lt (Nat.le_trans (Nat.le_succ _) (Nat.le_add_left _ _)) within
    have committed := ends _ deep
    rw [← outside, ← Around.holding_array own appends (entry.type_commit elements)] at committed
    rw [Arena.saveElement_committing found placed rfl placedBelow (below.trans scalar) told
      committed]
    simp only [saveElement, scalar, Bool.false_eq_true, if_false]
    generalize entry.commit elements = outcome
    obtain ⟨after, refusal⟩ := outcome
    cases refusal with
    | some refusal => rfl
    | none =>
      exact congrArg (fun arena => some (arena, none)) (around.setCursor_holding ..)

/-- What is done at the number of a column is done to the column. The cursor that a scalar entry is
written at goes on if the value is accepted. -/
theorem perform_holding (inPlace : node.InPlace path node.type) (tells : around.Tells position slot)
    (appends : Bool) {operation : Writer.Operation} (fits : operation.fits node.type = true) :
    operation.perform (around.start + node.type.inner)
        (around.holding path position appends node) =
      some ((around.holding path position appends (node.editHere none operation.edit slot).1).goOn
          (appends && node.isScalar && (node.editHere none operation.edit slot).2.isNone) position
          slot, (node.editHere none operation.edit slot).2) := by
  cases operation with
  | write value => exact write_holding inPlace tells appends value
  | saveElement =>
    cases node with
    | array own slots elements entry =>
      obtain ⟨rfl, below⟩ := inPlace
      have saved := saveElement_holding own slots elements below around position appends
      simp only [isScalar, Bool.and_false, Bool.false_and]
      exact saved
    | scalar _ _ => cases fits
    | tuple _ _ _ => cases fits

/-- Nothing is done for an operation that is not for the column. -/
theorem perform_idle (around : Around) (path : String) (position : Nat) (appends : Bool)
    (node : Node) {operation : Writer.Operation} (idle : operation.fits node.type = false) :
    operation.perform (around.start + node.type.inner)
        (around.holding path position appends node) =
      some (around.holding path position appends node, none) := by
  have found := around.get?_holding path position appends node
  have placed := around.placement_holding path position appends node
  cases operation with
  | write _ => cases idle
  | saveElement =>
    cases node with
    | scalar _ _ => simp [Writer.Operation.perform, Arena.saveElement, found, placed, buffer]
    | array _ _ _ _ => cases idle
    | tuple _ _ _ => simp [Writer.Operation.perform, Arena.saveElement, found, placed, buffer]

/-- The arena tells the elements that were written for the current slot of an array. -/
theorem elementIndex_holding (around : Around) (path : String) (position : Nat) (appends : Bool)
    (node : Node) :
    Arena.elementIndex (around.start + node.type.inner)
        (around.holding path position appends node) = some node.elementIndex := by
  have found := around.get?_holding path position appends node
  have placed := around.placement_holding path position appends node
  cases node with
  | scalar _ _ => simp [Arena.elementIndex, found, placed, buffer, elementIndex]
  | tuple _ _ _ => simp [Arena.elementIndex, found, placed, buffer, elementIndex]
  | array own slots elements entry =>
    have told := around.cursors_holding path position appends own slots elements entry
    exact Arena.elementIndex_slots found placed rfl told

end Node

/-- The cursor of an array goes on to its next element. -/
theorem Around.goOn_holding (around : Around) (path : String) (position : Nat) (appends : Bool)
    (own : String) (slots : Slots) (elements : Nat) (entry : Node) (moves : Bool) :
    (around.holding path position appends (.array own slots elements entry)).goOn moves
        around.cursor elements =
      around.holding path position appends
        (.array own slots (if moves = true then elements + 1 else elements) entry) := by
  cases moves with
  | false => rfl
  | true => exact around.setCursor_holding path position appends own slots elements _ entry

/-! ### Along a path -/

namespace Nodes

/-- Another column of the same type in the place of one keeps the schema. -/
theorem schema_replace : ∀ (columns : Nodes) {chosen : Nat} {child other : Node},
    columns.get? (.position chosen) = some child → other.type = child.type →
    (columns.replace chosen other).schema = columns.schema
  | .nil, _, _, _, found, _ => nomatch found
  | .cons name node rest, 0, _, _, found, typed => by
      obtain rfl := Option.some.inj found
      exact congrArg (Schema.cons name · rest.schema) typed
  | .cons name node rest, _ + 1, _, _, found, typed =>
      congrArg (Schema.cons name node.type) (schema_replace rest found typed)

/-- The arena of columns is one around each of them. -/
theorem around_column : ∀ (columns : Nodes) (around : Around) {parent : String} (position : Nat)
    {chosen : Nat} {child : Node}, columns.InPlace parent columns.schema →
    columns.get? (.position chosen) = some child → ∃ (inner : Around) (path : String),
      around.holdingEach parent position columns = inner.holding path position false child ∧
      (columns.schema.numbers around.start)[chosen]? = some (inner.start + child.type.inner) ∧
      child.InPlace path child.type ∧
      (∀ cursor slot, around.Tells cursor slot → inner.Tells cursor slot) ∧
      ∀ other : Node, other.type = child.type →
        inner.holding path position false other =
          around.holdingEach parent position (columns.replace chosen other)
  | .cons name node rest, around, parent, position, 0, child, ⟨_, inNode, _⟩, found => by
      obtain rfl := Option.some.inj found
      exact ⟨around.beforeRest parent position node.type rest, childPath parent name,
        Around.holdingEach_first rfl, rfl, inNode, fun _ _ tells => tells,
        fun other typed => (Around.holdingEach_first typed).symm⟩
  | .cons name node rest, around, parent, position, chosen + 1, child, ⟨_, _, inRest⟩, found => by
      obtain ⟨inner, path, arena, numbered, inChild, tells, replaced⟩ := around_column rest
        (around.afterFirst parent name position node) position inRest found
      rw [Around.start_afterFirst] at numbered
      refine ⟨inner, path, ?_, numbered, inChild, fun cursor slot told => ?_, fun other typed => ?_⟩
      · rw [Around.holdingEach_rest, arena]
      · exact tells cursor slot (told.addBefore node.counts)
      · rw [replaced other typed, ← Around.holdingEach_rest]
        rfl

end Nodes

namespace Node

variable {slot : Nat} {outer : Around} {own : String} {position : Nat} (appends : Bool)

/-- One step from a tuple: the arena is one around the column that an index points at, which is
written at the cursor of the tuple. An edit of the column is one of the tuple. -/
private theorem around_step_column {count chosen : Nat} {columns : Nodes} {index : ColumnIndex}
    {child : Node} (resolved : columns.resolve? index = some chosen)
    (found : columns.get? index = some child) (inPlace : columns.InPlace own columns.schema)
    (tells : outer.Tells position slot) :
    let tuple := Node.tuple own count columns
    ∃ (middle : Around) (path : String),
      outer.holding own position appends tuple = middle.holding path position false child ∧
      (∀ rest, (outer.holding own position appends tuple).store.follow
          (outer.start + tuple.type.inner) (.column (.position chosen) :: rest) =
        (outer.holding own position appends tuple).store.follow
          (middle.start + child.type.inner) rest) ∧
      child.InPlace path child.type ∧ middle.Tells position slot ∧
      ∀ change steps,
        middle.holding path position false (child.edit none change steps slot).1 =
          outer.holding own position appends
            (tuple.edit none change (.column index :: steps) slot).1 := by
  intro tuple
  have outside : ∀ other : Nodes, other.schema = columns.schema →
      outer.holding own position appends (.tuple own count other) =
        (outer.inTuple own position count columns.schema).holdingEach own position other :=
    fun _ typed => Around.holding_tuple own appends typed
  have here : columns.get? (.position chosen) = some child :=
    (Nodes.get?_of_resolve? columns resolved).symm.trans found
  obtain ⟨middle, path, there, numbered, inChild, further, replaced⟩ :=
    columns.around_column (outer.inTuple own position count columns.schema) position inPlace here
  have first : (columns.schema.numbers outer.start)[chosen]? =
      some (middle.start + child.type.inner) := numbered
  refine ⟨middle, path, (outside columns rfl).trans there, fun rest => ?_, inChild,
    further position slot tells, fun change steps => ?_⟩
  · rw [Store.follow_group (outer.get?_holding own position appends tuple) (by simp),
      Store.followFrom, first]
    rfl
  · have typed := child.type_edit none change steps slot
    rw [edit_column resolved found, replaced _ typed, outside _ (columns.schema_replace here typed)]

/-- One step from an array: the arena is one around the entry, which is written at the cursor of the
array. An edit of the entry is one of the array, and what a scalar entry accepts is an element. -/
private theorem around_step_entry {slots : Slots} {elements : Nat} {entry : Node}
    (inPlace : entry.InPlace own entry.type) :
    let array := Node.array own slots elements entry
    ∃ middle : Around,
      outer.holding own position appends array =
        middle.holding own outer.cursor entry.type.isScalar entry ∧
      (∀ rest, (outer.holding own position appends array).store.follow
          (outer.start + array.type.inner) (.entry :: rest) =
        (outer.holding own position appends array).store.follow
          (middle.start + entry.type.inner) rest) ∧
      entry.InPlace own entry.type ∧ middle.Tells outer.cursor elements ∧
      ∀ change steps,
        (middle.holding own outer.cursor entry.type.isScalar
            (entry.edit none change steps elements).1).goOn
          (entry.type.isScalar && entry.isScalar &&
            (entry.edit none change steps elements).2.isNone) outer.cursor elements =
          outer.holding own position appends
            (array.edit none change (.entry :: steps) slot).1 := by
  intro array
  have outside : ∀ other : Node, other.type = entry.type →
      outer.holding own position appends (.array own slots elements other) =
        (outer.inArray own position slots elements entry.type).holding own outer.cursor
          entry.type.isScalar other :=
    fun _ typed => Around.holding_array own appends typed
  refine ⟨_, outside entry rfl, fun rest => ?_, inPlace,
    outer.tells_inArray own position slots elements entry.type, fun change steps => ?_⟩
  · rw [Store.follow_slots (outer.get?_holding own position appends array)]
    rfl
  · have typed := entry.type_edit none change steps elements
    rw [← outside _ typed, entry.isScalar_type, Bool.and_self, outer.goOn_holding]
    simp only [array, Node.edit, elementsAfter, isScalar_edit]

/-- A path leads to a column that the arena of the columns is one around. The number of that column
is at the end of its address, and the cursor of its place tells the slot where it is written. What
is done there, with the cursor going on behind a scalar entry, is done by an edit at the end of the
path. -/
theorem Leads.around {node target : Node} {steps address : List Step} {slot last : Nat}
    (leads : node.Leads steps slot address last target) (outer : Around) {path : String}
    {position : Nat} (appends : Bool) (inPlace : node.InPlace path node.type)
    (tells : outer.Tells position slot) (apart : appends = true → Layout.rowCursor < position) :
    ∃ (inner : Around) (own : String) (cursor : Nat) (takes : Bool),
      outer.holding path position appends node = inner.holding own cursor takes target ∧
      (outer.holding path position appends node).store.follow (outer.start + node.type.inner)
        address = some (inner.start + target.type.inner) ∧
      target.InPlace own target.type ∧ inner.Tells cursor last ∧
      (takes = true → Layout.rowCursor < cursor) ∧
      ∀ change,
        (inner.holding own cursor takes (target.editHere none change last).1).goOn
            (takes && target.isScalar && (target.editHere none change last).2.isNone) cursor last =
          (outer.holding path position appends (node.edit none change steps slot).1).goOn
            (appends && node.isScalar && (node.edit none change steps slot).2.isNone) position
            slot := by
  induction leads generalizing outer path position appends with
  | here node slot =>
    exact ⟨outer, path, position, appends, rfl, rfl, inPlace, tells, apart, fun _ => rfl⟩
  | @column own count columns index chosen child target rest address slot last resolved found
      below inductionHypothesis =>
    obtain ⟨rfl, inColumns⟩ := inPlace
    obtain ⟨middle, childPath, there, further, inChild, toldChild, edits⟩ :=
      around_step_column appends resolved found inColumns tells
    obtain ⟨inner, ownPath, cursor, takes, arena, followed, inTarget, told, later, changes⟩ :=
      inductionHypothesis middle false inChild toldChild nofun
    rw [← there] at arena followed
    refine ⟨inner, ownPath, cursor, takes, arena, (further address).trans followed, inTarget, told,
      later, fun change => ?_⟩
    have composite : (Node.tuple own count columns).isScalar = false := rfl
    rw [changes]
    simp only [composite, Bool.and_false, Bool.false_and, Arena.goOn_false]
    exact edits change rest
  | @entry own slots elements entry target rest address last slot below inductionHypothesis =>
    obtain ⟨rfl, inEntry⟩ := inPlace
    -- The cursor of an array comes behind that of the rows.
    have behind : Layout.rowCursor < outer.cursor :=
      Nat.lt_of_le_of_lt (Nat.zero_le position) (List.getElem?_eq_some_iff.mp tells).1
    obtain ⟨middle, there, further, inEntry, toldEntry, edits⟩ :=
      around_step_entry appends inEntry
    obtain ⟨inner, ownPath, cursor, takes, arena, followed, inTarget, told, later, changes⟩ :=
      inductionHypothesis middle entry.type.isScalar inEntry toldEntry fun _ => behind
    rw [← there] at arena followed
    refine ⟨inner, ownPath, cursor, takes, arena, (further address).trans followed, inTarget, told,
      later, fun change => ?_⟩
    have composite : (Node.array own slots elements entry).isScalar = false := rfl
    rw [changes, composite, Bool.and_false, Bool.false_and, Arena.goOn_false, edits]

end Node

end Columnar
