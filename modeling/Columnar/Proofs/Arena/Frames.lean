import Columnar.Proofs.Arena.Writing

/-!
# What an operation in an arena reaches

The numbers of a column and of all below it lie together, and so do the cursors that the arrays
among them keep. An operation at the number of a column changes nothing outside of these, but for
the cursor of an array whose scalar entry takes a value.
-/

namespace Columnar

/-- What lies outside of the middle does not depend on the middle. -/
theorem Sides.getElem?_outside {α : Type} (sides : Sides α) {middle other : List α}
    (same : other.length = middle.length) {index : Nat}
    (outside : index < sides.before.length ∨ sides.before.length + middle.length ≤ index) :
    (sides.around other)[index]? = (sides.around middle)[index]? := by
  rw [around, around]
  rcases outside with before | behind
  · rw [List.getElem?_append_left before, List.getElem?_append_left before]
  · have later : sides.before.length ≤ index := by omega
    rw [List.getElem?_append_right later, List.getElem?_append_right later,
      List.getElem?_append_right (by omega), List.getElem?_append_right (by omega), same]

/-- If no two items of a list have the same key, what lies outside of the middle has no key of an
item in the middle. -/
theorem Sides.key_outside {α β : Type} {key : α → Option β} (sides : Sides α) {middle : List α}
    (nodup : ((sides.around middle).filterMap key).Nodup) {index : Nat} {item : α} {kept : β}
    (outside : index < sides.before.length ∨ sides.before.length + middle.length ≤ index)
    (found : (sides.around middle)[index]? = some item) (keeps : key item = some kept) :
    kept ∉ middle.filterMap key := by
  intro inner
  have kept_of_mem : ∀ {items : List α}, item ∈ items → kept ∈ items.filterMap key :=
    fun member => List.mem_filterMap.mpr ⟨item, member, keeps⟩
  rw [around, List.filterMap_append, List.filterMap_append] at nodup
  obtain ⟨-, later, apartBefore⟩ := List.nodup_append.mp nodup
  obtain ⟨-, -, apartAfter⟩ := List.nodup_append.mp later
  rw [around] at found
  rcases outside with before | behind
  · rw [List.getElem?_append_left before] at found
    have there := kept_of_mem (List.mem_of_getElem? found)
    exact apartBefore kept there kept (List.mem_append_left _ inner) rfl
  · have past : sides.before.length ≤ index := by omega
    rw [List.getElem?_append_right past, List.getElem?_append_right (by omega)] at found
    exact apartAfter kept inner kept (kept_of_mem (List.mem_of_getElem? found)) rfl

namespace Around

variable (around : Around) (path : String) (position : Nat) (appends : Bool)

/-- What is below a column has the numbers that end with its own. -/
theorem below_iff (node : Node) (part : Nat) :
    (around.holding path position appends node).store.Below part
        (around.start + node.type.inner) ↔
      around.start ≤ part ∧ part ≤ around.start + node.type.inner := by
  rw [node.below_holding, (node.type.visits_perm around.start).mem_iff, List.mem_range'_1]
  omega

variable {node other : Node} (typed : other.type = node.type)

include typed

/-- A buffer that is not below a column does not depend on it. -/
theorem get?_outside {part : Nat}
    (outside : ¬(around.start ≤ part ∧ part ≤ around.start + node.type.inner)) :
    (around.holding path position appends other).store.get? part =
      (around.holding path position appends node).store.get? part := by
  have same : (other.buffers around.start).length = (node.buffers around.start).length := by
    rw [Node.length_buffers, Node.length_buffers, typed]
  have bounds : part < around.buffers.before.length ∨
      around.buffers.before.length + (node.buffers around.start).length ≤ part := by
    rw [Node.length_buffers]
    change part < around.start ∨ around.start + _ ≤ part
    omega
  have elsewhere := around.buffers.getElem?_outside same bounds
  simpa [holding, fill, Store.get?] using elsewhere

/-- A cursor that no array of a column keeps does not depend on it. -/
theorem cursors_outside {cursor : Nat}
    (outside : cursor < around.cursor ∨ around.cursor + node.type.arrays ≤ cursor) :
    (around.holding path position appends other).cursors[cursor]? =
      (around.holding path position appends node).cursors[cursor]? := by
  have same : other.counts.length = node.counts.length := by
    rw [Node.length_counts, Node.length_counts, typed]
  rw [← node.length_counts] at outside
  simpa [holding, fill] using around.counts.getElem?_outside same outside

/-- The places do not depend on what a column holds. -/
theorem placements_holding :
    (around.holding path position appends other).placements =
      (around.holding path position appends node).placements := by
  rw [holding, holding, typed]
  rfl

theorem size_store_holding :
    (around.holding path position appends other).store.size =
      (around.holding path position appends node).store.size := by
  simp [holding, fill, Store.size, Sides.around, typed]

theorem size_cursors_holding :
    (around.holding path position appends other).cursors.size =
      (around.holding path position appends node).cursors.size := by
  simp [holding, fill, Sides.around, typed]

omit typed in
/-- If no two arrays keep the same cursor, one that is not in a column keeps none of those of the
column. -/
theorem cursor_outside
    (nodup : ((around.holding path position appends node).placements.toList.filterMap
      Placement.elements?).Nodup)
    {part cursor : Nat} {placement : Placement}
    (outside : ¬(around.start ≤ part ∧ part ≤ around.start + node.type.inner))
    (placed : (around.holding path position appends node).placements[part]? = some placement)
    (keeps : placement.elements? = some cursor) :
    cursor < around.cursor ∨ around.cursor + node.type.arrays ≤ cursor := by
  by_contra inside
  have inner : cursor ∈ (node.type.placements path position appends around.start
      around.cursor).filterMap Placement.elements? := by
    rw [(node.type.elements_perm path position appends around.start around.cursor).mem_iff,
      List.mem_range'_1]
    omega
  have found : (around.placements.around (node.type.placements path position appends around.start
      around.cursor))[part]? = some placement := by
    rw [← placed, ← Array.getElem?_toList]
    rfl
  refine around.placements.key_outside nodup ?_ found keeps inner
  rw [node.type.length_placements, around.aligned]
  change part < around.start ∨ around.start + _ ≤ part
  omega

end Around

namespace Arena

variable (arena : Arena) (moves : Bool) (cursor position : Nat)

@[simp] theorem store_goOn : (arena.goOn moves cursor position).store = arena.store := by
  cases moves <;> rfl

@[simp] theorem placements_goOn :
    (arena.goOn moves cursor position).placements = arena.placements := by
  cases moves <;> rfl

@[simp] theorem top_goOn : (arena.goOn moves cursor position).top = arena.top := by
  cases moves <;> rfl

@[simp] theorem size_cursors_goOn :
    (arena.goOn moves cursor position).cursors.size = arena.cursors.size := by
  cases moves with
  | false => rfl
  | true => exact Array.size_setIfInBounds

/-- A cursor that goes on from what it tells gains one, and no other does. -/
theorem cursors_goOn {arena : Arena} {cursor position : Nat}
    (told : arena.cursors[cursor]? = some position) (moves : Bool) (other : Nat) :
    (arena.goOn moves cursor position).cursors[other]? =
      arena.cursors[other]?.map (· + if moves && cursor == other then 1 else 0) := by
  cases moves with
  | false => simp
  | true =>
    by_cases same : cursor = other
    · subst same
      obtain ⟨within, rfl⟩ := Array.getElem?_eq_some_iff.mp told
      simp [goOn, setCursor, within]
    · simp [goOn, setCursor, same]

end Arena

namespace Draft

variable {draft : Draft} {schema : Schema}

/-! ### Arrays and their entries -/

/-- What a buffer has is a column at an address. -/
theorem exists_has (inPlace : draft.columns.InPlace "" schema) {id : Nat} {buffer : Buffer}
    (found : draft.arena.store.get? id = some buffer) :
    ∃ place cursor appends node, draft.arena.Has id place cursor appends node := by
  obtain ⟨within, -⟩ := Array.getElem?_eq_some_iff.mp found
  obtain ⟨address, member, numbered⟩ := Nodes.exists_address inPlace draft.row within
  obtain ⟨other, place, cursor, node, same, -, -, has, -⟩ :=
    Nodes.has_arena inPlace draft.row member
  obtain rfl := Option.some.inj (numbered.symm.trans same)
  exact ⟨place, cursor, _, node, has⟩

/-- What is below a buffer has no greater number. -/
theorem le_of_below (inPlace : draft.columns.InPlace "" schema) {part id : Nat}
    (below : draft.arena.store.Below part id) : part ≤ id := by
  induction below with
  | refl => exact Nat.le_refl _
  | tail _ isPart inductionHypothesis =>
    obtain ⟨buffer, found, named⟩ := isPart
    obtain ⟨place, cursor, appends, node, has⟩ := exists_has inPlace found
    obtain ⟨stored, placement, present, -, before, -⟩ := has.placement
    obtain rfl := Option.some.inj (found.symm.trans present)
    exact Nat.le_of_lt (Nat.lt_of_le_of_lt inductionHypothesis (before _ named))

/-- What has slots is an array, and it keeps the cursor that its entry is written at. -/
private theorem has_entry (inPlace : draft.columns.InPlace "" schema) {part id : Nat} {ends : Slots}
    (found : draft.arena.store.get? part = some (.slots id ends)) :
    ∃ placement cursor place node, draft.arena.placements[part]? = some placement ∧
      placement.elements? = some cursor ∧
      draft.arena.Has id place cursor place.type.isScalar node := by
  obtain ⟨⟨path, type⟩, position, appends, node, has⟩ := exists_has inPlace found
  cases type with
  | scalar _ =>
    obtain ⟨_, -, stored, -⟩ := has.scalar
    cases found.symm.trans stored
  | tuple _ =>
    obtain ⟨_, _, _, -, stored, -⟩ := has.columns
    cases found.symm.trans stored
  | array element =>
    obtain ⟨_, _, entry, part, cursor, -, stored, placed, -, below⟩ := has.entry
    cases found.symm.trans stored
    exact ⟨_, cursor, ⟨path, element⟩, entry, placed, rfl, below⟩

/-- The entry of an array is written at the cursor that the array keeps. -/
theorem position_entry (inPlace : draft.columns.InPlace "" schema) {part id : Nat} {ends : Slots}
    {placement own : Placement} (found : draft.arena.store.get? part = some (.slots id ends))
    (placed : draft.arena.placements[part]? = some placement)
    (placedOwn : draft.arena.placements[id]? = some own) :
    placement.elements? = some own.position := by
  obtain ⟨_, cursor, _, _, placedAlso, keeps, below⟩ := has_entry inPlace found
  obtain ⟨-, other, -, placedBelow, -, -, position, -⟩ := below.placement
  obtain rfl := Option.some.inj (placed.symm.trans placedAlso)
  obtain rfl := Option.some.inj (placedOwn.symm.trans placedBelow)
  rw [keeps, position]

/-- Every value that the scalar entry of an array takes is an element. -/
theorem appends_entry (inPlace : draft.columns.InPlace "" schema) {part id : Nat} {ends : Slots}
    {values : ScalarBuffer} {own : Placement}
    (found : draft.arena.store.get? part = some (.slots id ends))
    (foundOwn : draft.arena.store.get? id = some (.scalar values))
    (placedOwn : draft.arena.placements[id]? = some own) : own.appends = true := by
  obtain ⟨_, cursor, ⟨path, element⟩, _, -, -, below⟩ := has_entry inPlace found
  obtain ⟨-, other, -, placedBelow, -, -, -, -, -, appends⟩ := below.placement
  obtain rfl := Option.some.inj (placedOwn.symm.trans placedBelow)
  cases element with
  | scalar _ => exact appends
  | array _ =>
    obtain ⟨_, _, _, _, _, -, stored, -⟩ := below.entry
    cases foundOwn.symm.trans stored
  | tuple _ =>
    obtain ⟨_, _, _, -, stored, -⟩ := below.columns
    cases foundOwn.symm.trans stored

/-- No two arrays keep the same cursor. -/
theorem nodup_elements (draft : Draft) :
    (draft.arena.placements.toList.filterMap Placement.elements?).Nodup :=
  (draft.columns.cursors_arena draft.row).nodup_iff.mpr List.nodup_range'

/-- Buffers that keep the same cursor are the same. -/
theorem eq_of_elements {one two cursor : Nat} {placement other : Placement}
    (placed : draft.arena.placements[one]? = some placement)
    (placedAlso : draft.arena.placements[two]? = some other)
    (keeps : placement.elements? = some cursor) (keepsAlso : other.elements? = some cursor) :
    one = two := by
  have apart := List.pairwise_filterMap.mp draft.nodup_elements
  have differ : ∀ {first second : Nat} {before after : Placement}, first < second →
      draft.arena.placements[first]? = some before →
      draft.arena.placements[second]? = some after →
      before.elements? = some cursor → after.elements? = some cursor → False := by
    intro first second before after less found foundAlso kept keptAlso
    obtain ⟨inFirst, rfl⟩ := Array.getElem?_eq_some_iff.mp found
    obtain ⟨inSecond, rfl⟩ := Array.getElem?_eq_some_iff.mp foundAlso
    exact List.pairwise_iff_getElem.mp apart first second (by simpa using inFirst)
      (by simpa using inSecond) less cursor (by simpa using kept) cursor (by simpa using keptAlso)
      rfl
  rcases Nat.lt_trichotomy one two with less | same | greater
  · exact (differ less placed placedAlso keeps keepsAlso).elim
  · exact same
  · exact (differ greater placedAlso placed keepsAlso keeps).elim

/-- What appends elements is the entry of an array. -/
theorem Addressed.entry_of_appends {address : List Step} {id : Nat} {type : ColumnType}
    (addressed : Addressed schema draft.arena address id type)
    (inPlace : draft.columns.InPlace "" schema) {placement : Placement}
    (placed : draft.arena.placements[id]? = some placement) (appends : placement.appends = true) :
    ∃ part ends, draft.arena.store.get? part = some (.slots id ends) := by
  have numbered := addressed.numbered
  obtain ⟨_, place, cursor, target, same, -, -, has, -⟩ :=
    Nodes.has_arena inPlace draft.row addressed.member
  obtain rfl := Option.some.inj (numbered.symm.trans same)
  obtain ⟨-, own, -, placedAlso, -, -, -, -, -, flag⟩ := has.placement
  obtain rfl := Option.some.inj (placed.symm.trans placedAlso)
  rw [appends] at flag
  have last : address.getLast? = some .entry := by
    cases found : address.getLast? with
    | none => simp [found] at flag
    | some step =>
      cases step with
      | entry => rfl
      | column _ => simp [found, Step.appends] at flag
  obtain ⟨outer, rfl⟩ := List.getLast?_eq_some_iff.mp last
  have further : outer ≠ [] := by
    rintro rfl
    cases numbered
  rw [Arena.number?, Store.followFrom_append further] at numbered
  obtain ⟨part, -, followed⟩ := Option.bind_eq_some_iff.mp numbered
  obtain ⟨buffer, found, followed⟩ := Option.bind_eq_some_iff.mp followed
  obtain ⟨entry, named, followed⟩ := Option.bind_eq_some_iff.mp followed
  obtain rfl := Option.some.inj followed
  cases buffer with
  | scalar _ => cases named
  | group _ _ _ => cases named
  | slots child ends =>
    obtain rfl := Option.some.inj named
    exact ⟨part, ends, found⟩

end Draft

namespace Writer

/-- The elements that an array gains by itself with an operation at the number of a buffer: one, if
the operation writes a value that is accepted into the entry of the array. -/
def gained (writer : Writer) (id : Nat) (operation : Operation) (accepted : Bool) (part : Nat) :
    Nat :=
  match operation, writer.arena.store.get? part with
  | .write _, some (.slots entry _) => if accepted && entry == id then 1 else 0
  | _, _ => 0

/-- Whether a writer differs from another only in the buffers below one of them and in the cursors
that the arrays among them keep, but for the elements that other arrays gain. -/
structure Reaches (before after : Writer) (id : Nat) (gained : Nat → Nat) : Prop where
  limits : after.limits = before.limits
  phase : after.phase = before.phase
  placements : after.arena.placements = before.arena.placements
  top : after.arena.top = before.arena.top
  buffersSize : after.arena.store.size = before.arena.store.size
  cursorsSize : after.arena.cursors.size = before.arena.cursors.size
  buffers : ∀ part, ¬before.arena.store.Below part id →
    after.arena.store.get? part = before.arena.store.get? part
  row : after.arena.cursors[Layout.rowCursor]? = before.arena.cursors[Layout.rowCursor]?
  cursors : ∀ part placement cursor, ¬before.arena.store.Below part id →
    before.arena.placements[part]? = some placement → placement.elements? = some cursor →
    after.arena.cursors[cursor]? = before.arena.cursors[cursor]?.map (· + gained part)

/-- A writer that stays as it is gains nothing. -/
theorem Reaches.same (writer : Writer) (id : Nat) {gained : Nat → Nat}
    (none : ∀ part, gained part = 0) : writer.Reaches writer id gained where
  limits := rfl
  phase := rfl
  placements := rfl
  top := rfl
  buffersSize := rfl
  cursorsSize := rfl
  buffers _ _ := rfl
  row := rfl
  cursors part placement cursor _ _ _ := by simp [none part]

theorem gained_refused (writer : Writer) (id : Nat) (operation : Operation) (part : Nat) :
    writer.gained id operation false part = 0 := by
  cases operation with
  | saveElement => rfl
  | write _ =>
    simp only [gained]
    split
    · simp
    · rfl

/-- Another column of the same type in the place of one, with its cursor going on if it takes an
element, reaches no further than the column. -/
theorem reaches_holding {before : Writer} {around : Around} {path : String} {position slot : Nat}
    {takes moves : Bool} {node other : Node} {gained : Nat → Nat}
    (holds : before.arena = around.holding path position takes node)
    (nodup : (before.arena.placements.toList.filterMap Placement.elements?).Nodup)
    (typed : other.type = node.type) (told : around.Tells position slot)
    (behind : moves = true → Layout.rowCursor < position)
    (gains : ∀ part placement cursor, before.arena.placements[part]? = some placement →
      placement.elements? = some cursor →
      gained part = if moves && position == cursor then 1 else 0) :
    before.Reaches
      { before with arena := (around.holding path position takes other).goOn moves position slot }
      (around.start + node.type.inner) gained := by
  obtain ⟨limits, phase, arena⟩ := before
  obtain rfl : arena = around.holding path position takes node := holds
  have counted := Arena.cursors_goOn (told.cursors_holding path position takes other) moves
  refine ⟨rfl, rfl, ?_, ?_, ?_, ?_, fun part apart => ?_, ?_, fun part placement cursor apart placed
    keeps => ?_⟩
  · exact (Arena.placements_goOn ..).trans (around.placements_holding path position takes typed)
  · exact (Arena.top_goOn ..).trans rfl
  · simp only [Arena.store_goOn]
    exact around.size_store_holding path position takes typed
  · simp only [Arena.size_cursors_goOn]
    exact around.size_cursors_holding path position takes typed
  · simp only [Arena.store_goOn]
    rw [around.below_iff] at apart
    exact around.get?_outside path position takes typed apart
  · have first : Layout.rowCursor < around.cursor :=
      Nat.lt_of_le_of_lt (Nat.zero_le position) (List.getElem?_eq_some_iff.mp told).1
    have still : (moves && position == Layout.rowCursor) = false := by
      cases moves with
      | false => rfl
      | true => simpa using Nat.ne_of_gt (behind rfl)
    simp only [counted, still, around.cursors_outside path position takes typed (.inl first)]
    simp
  · rw [around.below_iff] at apart
    have outside := around.cursor_outside path position takes nodup apart placed keeps
    simp only [counted, gains part placement cursor placed keeps,
      around.cursors_outside path position takes typed outside]

end Writer

namespace Draft

variable {draft : Draft} {schema : Schema}

/-- A value that a scalar accepts is an element just of the array that has the scalar as its
entry. -/
theorem Addressed.gained_write {address : List Step} {id : Nat} {type : ColumnType}
    (addressed : Addressed schema draft.arena address id type)
    (inPlace : draft.columns.InPlace "" schema) {own placement : Placement} {part cursor : Nat}
    (placedOwn : draft.arena.placements[id]? = some own)
    (placed : draft.arena.placements[part]? = some placement)
    (keeps : placement.elements? = some cursor) (value : Scalar) (accepted : Bool)
    (scalar : accepted = true → ∃ values, draft.arena.store.get? id = some (.scalar values)) :
    draft.writer.gained id (.write value) accepted part =
      if own.appends && accepted && own.position == cursor then 1 else 0 := by
  cases accepted with
  | false => simp [Writer.gained_refused]
  | true =>
    by_cases isEntry : ∃ ends, draft.arena.store.get? part = some (.slots id ends)
    · obtain ⟨ends, found⟩ := isEntry
      obtain ⟨values, foundOwn⟩ := scalar rfl
      have appends := appends_entry inPlace found foundOwn placedOwn
      have keepsOwn := position_entry inPlace found placed placedOwn
      have same := Option.some.inj (keeps.symm.trans keepsOwn)
      simp [Writer.gained, writer, found, appends, same]
    · have never : ¬(own.appends = true ∧ own.position = cursor) := by
        rintro ⟨appends, rfl⟩
        obtain ⟨parent, ends, found⟩ := addressed.entry_of_appends inPlace placedOwn appends
        obtain ⟨other, _, _, _, placedParent, -⟩ := has_entry inPlace found
        have keepsAlso := position_entry inPlace found placedParent placedOwn
        obtain rfl := eq_of_elements placed placedParent keeps keepsAlso
        exact isEntry ⟨ends, found⟩
      have nothing : draft.writer.gained id (.write value) true part = 0 := by
        simp only [Writer.gained, writer]
        split
        · rename_i entry ends _ found
          refine if_neg fun same => isEntry ⟨ends, ?_⟩
          rw [found, eq_of_beq same]
        · rfl
      rw [nothing, if_neg (by simpa using never)]

/-- An edit of a column by an operation of its kind, for which no buffer ran short, reaches no
further than the column. -/
private theorem Addressed.reaches_edit {address : List Step} {id : Nat} {type : ColumnType}
    (addressed : Addressed schema draft.arena address id type)
    (inPlace : draft.columns.InPlace "" schema) (gate : draft.gate? = none)
    {operation : Writer.Operation} (fits : operation.fits type = true)
    (hasRoom : ranShort (draft.edit address operation.edit).2.result = false) :
    draft.writer.Reaches (draft.edit address operation.edit).1.writer id
      (draft.writer.gained id operation (draft.edit address operation.edit).2.result.isOk) := by
  obtain ⟨further, slot, target, leads, rfl⟩ := addressed.leads inPlace
  obtain ⟨inner, own, cursor, takes, arena, reached, -, told, behind, changes⟩ :=
    around inPlace leads further
  obtain rfl := Option.some.inj (addressed.numbered.symm.trans reached)
  have accepted : (draft.edit address operation.edit).2.result.isOk =
      (target.editHere none operation.edit slot).2.isNone := by
    rw [result_edit, isOk_answer, gate, (leads.edit none operation.edit).1]
  have placed := inner.placement_holding own cursor takes target
  have stored := inner.get?_holding own cursor takes target
  rw [← arena] at placed stored
  have after : (draft.edit address operation.edit).1.writer =
      { draft.writer with
        arena := (inner.holding own cursor takes
          (target.editHere none operation.edit slot).1).goOn (takes && target.isScalar &&
            (target.editHere none operation.edit slot).2.isNone) cursor slot } := by
    rw [changes, edit_hasRoom hasRoom, edited, gate]
    rfl
  rw [after]
  refine Writer.reaches_holding arena draft.nodup_elements
    (target.type_editHere none operation.edit slot) told ?_ ?_
  · intro moves
    simp only [Bool.and_eq_true] at moves
    exact behind moves.1.1
  · intro part placement kept placedPart keeps
    cases operation with
    | write value =>
      have scalar : (target.editHere none (.set value) slot).2.isNone = true →
          ∃ values, draft.arena.store.get? (inner.start + target.type.inner) =
            some (.scalar values) := by
        intro taken
        cases target with
        | scalar _ values => exact ⟨values, stored⟩
        | array _ _ _ _ => cases taken
        | tuple _ _ _ => cases taken
      have gains := addressed.gained_write inPlace placed placedPart keeps value _ scalar
      rw [target.type.position_placement, target.type.appends_placement,
        target.isScalar_type] at gains
      rw [accepted]
      exact gains
    | saveElement =>
      have composite : target.isScalar = false := by
        cases target with
        | array _ _ _ _ => rfl
        | scalar _ _ => cases fits
        | tuple _ _ _ => cases fits
      simp [Writer.gained, composite]

/-- An operation at the number of a column for which no buffer ran short reaches no further than the
column. -/
theorem Addressed.reaches {address : List Step} {id : Nat} {type : ColumnType}
    (addressed : Addressed schema draft.arena address id type)
    (inPlace : draft.columns.InPlace "" schema) (operation : Writer.Operation)
    (hasRoom : ranShort (draft.operate address type operation).2.result = false) :
    draft.writer.Reaches (draft.operate address type operation).1.writer id
      (draft.writer.gained id operation (draft.operate address type operation).2.result.isOk) := by
  cases gate : draft.gate? with
  | some refusal =>
    simp only [operate, gate]
    exact .same _ _ fun cursor => Writer.gained_refused _ _ _ _
  | none =>
    simp only [operate, gate] at hasRoom ⊢
    split at hasRoom
    · rename_i fits
      simp only [if_pos fits]
      exact addressed.reaches_edit inPlace gate fits hasRoom
    · rename_i idle
      simp only [if_neg idle]
      cases operation with
      | write _ => exact absurd rfl idle
      | saveElement => exact .same _ _ fun _ => rfl

end Draft

end Columnar
