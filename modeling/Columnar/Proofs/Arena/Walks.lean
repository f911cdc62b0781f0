import Columnar.Proofs.Arena.Descendants
import Columnar.Proofs.Arena.Registering

/-!
# Cutting and committing in an arena

Cutting and committing walk from a buffer to all below it, the whole before its parts. They come to
an end, and do in the arena what they do in the columns.
-/

namespace Columnar

/-! ### Steps -/

namespace Arena

variable {arena after last : Arena} {id depth : Nat} {placement : Placement}

theorem walkEach_singleton (walk : Nat → Arena → Option Walk) {only : Walk}
    (walked : walk id arena = some only) : walkEach walk [id] arena = some only := by
  obtain ⟨after, visited, refusal⟩ := only
  cases refusal <;> simp [walkEach, walked]

theorem walkEach_cons (walk : Nat → Arena → Option Walk) {rest visited : List Nat} {others : Walk}
    (first : walk id arena = some ⟨after, visited, none⟩)
    (later : walkEach walk rest after = some others) :
    walkEach walk (id :: rest) arena =
      some { others with visited := visited ++ others.visited } := by
  simp [walkEach, first, later]

theorem walkEach_stopped (walk : Nat → Arena → Option Walk) {rest : List Nat} {first : Walk}
    (walked : walk id arena = some first) (stopped : first.refusal ≠ none) :
    walkEach walk (id :: rest) arena = some first := by
  obtain ⟨after, visited, refusal⟩ := first
  cases refusal with
  | none => exact absurd rfl stopped
  | some _ => simp [walkEach, walked]

/-- A scalar is cut by itself. -/
theorem truncateWithin_scalar {values : ScalarBuffer}
    (found : arena.store.get? id = some (.scalar values))
    (placed : arena.placements[id]? = some placement) (count : Nat) :
    truncateWithin (depth + 1) id count arena =
      some ⟨arena.put id (.scalar (values.truncate count)), [id], none⟩ := by
  simp [truncateWithin, found, placed, Buffer.truncate, Buffer.children, walkEach, Walk.visiting]

/-- An array is cut, then its cursor is set, then its entry is cut. -/
theorem truncateWithin_slots {entry : Nat} {ends : Slots} {below : Walk}
    (found : arena.store.get? id = some (.slots entry ends))
    (placed : arena.placements[id]? = some placement) {count : Nat}
    (cut : truncateWithin depth entry (ends.truncate count).lastOffset
      ((arena.put id (.slots entry (ends.truncate count))).setCursor placement.elements?
        (ends.truncate count).lastOffset) = some below) :
    truncateWithin (depth + 1) id count arena = some (below.visiting id) := by
  have only := walkEach_singleton
    (truncateWithin depth · (ends.truncate count).lastOffset) cut
  simp [truncateWithin, found, placed, Buffer.truncate, Buffer.children, only]

/-- A tuple is cut before its columns. -/
theorem truncateWithin_group {names : List String} {parts : List Nat} {shared : Nat} {below : Walk}
    (found : arena.store.get? id = some (.group names parts shared))
    (placed : arena.placements[id]? = some placement) {count : Nat}
    (cut : walkEach (truncateWithin depth · count) parts
      (arena.put id (.group names parts (min shared count))) = some below) :
    truncateWithin (depth + 1) id count arena = some (below.visiting id) := by
  simp [truncateWithin, found, placed, Buffer.truncate, Buffer.children, cut]

/-- A scalar is filled up by itself. -/
theorem commitWithin_scalar {values : ScalarBuffer}
    (found : arena.store.get? id = some (.scalar values))
    (placed : arena.placements[id]? = some placement) (slot : Nat) :
    commitWithin (depth + 1) id slot arena =
      some ⟨arena.put id (.scalar (values.fill (slot + 1)).1), [id],
        (values.fill (slot + 1)).2.map fun cause => cause.refusal placement.path⟩ := by
  simp [commitWithin, found, placed, Buffer.fill, Buffer.children, walkEach, Walk.close,
    Walk.visiting]

/-- An array closes its slot at its cursor, after its entry is cut. -/
theorem commitWithin_slots {entry cursor last slot : Nat} {ends : Slots} {below closed : Walk}
    (found : arena.store.get? id = some (.slots entry ends))
    (placed : arena.placements[id]? = some placement) (keeps : placement.elements? = some cursor)
    (told : arena.cursors[cursor]? = some last)
    (cut : truncateWithin depth entry last arena = some below)
    (ended : below.close id (Buffer.closeSlot slot last) = some closed) :
    commitWithin (depth + 1) id slot arena = some (closed.visiting id) := by
  simp [commitWithin, found, placed, keeps, told, cut, ended]

/-- A tuple closes the slot in its columns and then shares it. -/
theorem commitWithin_group {names : List String} {parts : List Nat} {shared slot : Nat}
    {below closed : Walk} (found : arena.store.get? id = some (.group names parts shared))
    (committed : walkEach (commitWithin depth · slot) parts arena = some below)
    (ended : below.close id (Buffer.fill · (slot + 1)) = some closed) :
    commitWithin (depth + 1) id slot arena = some (closed.visiting id) := by
  simp [commitWithin, found, Buffer.children, committed, ended]

end Arena

/-- The buffer of a column is changed at the end of a walk that was not refused. -/
theorem Walk.close_holding (around : Around) (path : String) (position : Nat) (appends : Bool)
    (node : Node) (visited : List Nat) (change : Buffer → Buffer × Option Shortage) :
    (Walk.mk (around.holding path position appends node) visited none).close
        (around.start + node.type.inner) change =
      some ⟨(around.holding path position appends node).put (around.start + node.type.inner)
        (change (node.buffer around.start)).1, visited,
          (change (node.buffer around.start)).2.map fun cause => cause.refusal path⟩ := by
  have own : (node.type.placement path position appends around.start around.cursor).path =
      path := by
    cases node.type <;> rfl
  simp [Walk.close, own]

/-! ### Cutting -/

mutual

/-- Cutting in the arena is cutting the column. -/
theorem Node.truncateWithin_holding : ∀ (node : Node) (around : Around) (path : String)
    (position : Nat) (appends : Bool) (count : Nat) {depth : Nat}, node.type.inner < depth →
    Arena.truncateWithin depth (around.start + node.type.inner) count
        (around.holding path position appends node) =
      some ⟨around.holding path position appends (node.truncate count),
        node.type.visits around.start, none⟩
  | .scalar own values, around, path, position, appends, count, depth + 1, _ => by
      have cut := around.put_holding path position appends (.scalar own values)
        (.scalar own (values.truncate count)) (by simp [Node.type]) rfl rfl
      rw [Arena.truncateWithin_scalar (around.get?_holding path position appends _)
        (around.placement_holding path position appends _)]
      exact congrArg (fun arena => some (Walk.mk arena _ none)) cut
  | .array own slots elements entry, around, path, position, appends, count, depth + 1, deeper => by
      let last := (slots.truncate count).lastOffset
      have cut := around.put_holding path position appends (.array own slots elements entry)
        (.array own (slots.truncate count) elements entry) rfl rfl rfl
      have below := Node.truncateWithin_holding entry
        (around.inArray path position (slots.truncate count) last entry.type) path around.cursor
        entry.type.isScalar last (Nat.lt_of_succ_lt_succ deeper)
      rw [← Around.holding_array own appends rfl,
        ← Around.holding_array own appends (entry.type_truncate last),
        ← around.setCursor_holding path position appends own (slots.truncate count) elements,
        ← cut] at below
      exact Arena.truncateWithin_slots (around.get?_holding path position appends _)
        (around.placement_holding path position appends _) below
  | .tuple own shared columns, around, path, position, appends, count, depth + 1, deeper => by
      have cut := around.put_holding path position appends (.tuple own shared columns)
        (.tuple own (min shared count) columns) rfl rfl rfl
      have below := Nodes.truncateEach_holding columns
        (around.inTuple path position (min shared count) columns.schema) path position count
        (Nat.le_of_lt_succ deeper)
      rw [← Around.holding_tuple own appends rfl,
        ← Around.holding_tuple own appends (columns.schema_truncate count), ← cut] at below
      exact Arena.truncateWithin_group (around.get?_holding path position appends _)
        (around.placement_holding path position appends _) below

/-- Cutting in the arena is cutting the columns. -/
theorem Nodes.truncateEach_holding : ∀ (columns : Nodes) (around : Around) (parent : String)
    (position count : Nat) {depth : Nat}, columns.schema.size ≤ depth →
    Arena.walkEach (Arena.truncateWithin depth · count) (columns.schema.numbers around.start)
        (around.holdingEach parent position columns) =
      some ⟨around.holdingEach parent position (columns.truncate count),
        columns.schema.visits around.start, none⟩
  | .nil, _, _, _, _, _, _ => rfl
  | .cons name node rest, around, parent, position, count, depth, deeper => by
      have enough : node.type.inner + 1 + rest.schema.size ≤ depth := deeper
      have first := Node.truncateWithin_holding node
        (around.beforeRest parent position node.type rest) (childPath parent name) position false
        count (by omega : node.type.inner < depth)
      have others := Nodes.truncateEach_holding rest
        (around.afterFirst parent name position (node.truncate count)) parent position count
        (by omega : rest.schema.size ≤ depth)
      rw [← Around.holdingEach_first rfl,
        ← Around.holdingEach_first (node.type_truncate count)] at first
      rw [← Around.holdingEach_rest, ← Around.holdingEach_rest, Around.start_afterFirst,
        Node.type_truncate] at others
      exact Arena.walkEach_cons (Arena.truncateWithin depth · count) first others

end

/-! ### Committing -/

/-- Whether a walk came to numbers in the order in which they are to be come to, and to all of them
unless it was stopped. -/
structure ComesTo (all visited : List Nat) (whole : Prop) : Prop where
  inOrder : visited <+: all
  toAll : whole → visited = all

theorem ComesTo.all (all : List Nat) (whole : Prop) : ComesTo all all whole :=
  ⟨List.prefix_rfl, fun _ => rfl⟩

/-- A walk comes to one number first, and then to others. -/
theorem ComesTo.visiting {all visited : List Nat} {whole : Prop} (comes : ComesTo all visited whole)
    (id : Nat) : ComesTo (id :: all) (id :: visited) whole :=
  ⟨(List.prefix_cons_inj id).mpr comes.inOrder, fun done => congrArg (id :: ·) (comes.toAll done)⟩

/-- A walk that is stopped comes to nothing more. -/
theorem ComesTo.stopped {all visited : List Nat} {whole : Prop} (comes : ComesTo all visited whole)
    (more : List Nat) {never : Prop} (stopped : ¬never) : ComesTo (all ++ more) visited never :=
  ⟨comes.inOrder.trans (List.prefix_append all more), fun done => absurd done stopped⟩

/-- A walk that is not stopped goes on. -/
theorem ComesTo.append (first : List Nat) {others visited : List Nat} {whole : Prop}
    (comes : ComesTo others visited whole) : ComesTo (first ++ others) (first ++ visited) whole :=
  ⟨(List.prefix_append_right_inj first).mpr comes.inOrder,
    fun done => congrArg (first ++ ·) (comes.toAll done)⟩

mutual

/-- Committing in the arena is committing the column. -/
theorem Node.commitWithin_holding : ∀ (node : Node) (around : Around) {path : String}
    (position : Nat) (appends : Bool) (slot : Nat), node.InPlace path node.type →
    ∃ visited, ComesTo (node.type.visits around.start) visited ((node.commit slot).2 = none) ∧
      ∀ depth, node.type.inner < depth →
        Arena.commitWithin depth (around.start + node.type.inner) slot
            (around.holding path position appends node) =
          some ⟨around.holding path position appends (node.commit slot).1, visited,
            (node.commit slot).2⟩
  | .scalar own values, around, path, position, appends, slot, inPlace => by
      obtain ⟨rfl, -⟩ := inPlace
      have filled := around.put_holding own position appends (.scalar own values)
        (.scalar own (values.fill (slot + 1)).1) (by simp [Node.type]) rfl rfl
      refine ⟨_, .all _ _, fun depth deeper => ?_⟩
      obtain ⟨depth, rfl⟩ := Nat.exists_eq_succ_of_ne_zero (Nat.ne_zero_of_lt deeper)
      rw [Arena.commitWithin_scalar (around.get?_holding own position appends _)
        (around.placement_holding own position appends _)]
      exact congrArg (fun arena => some (Walk.mk arena _ _)) filled
  | .array own slots elements entry, around, path, position, appends, slot, inPlace => by
      obtain ⟨rfl, -⟩ := inPlace
      let cutEntry := entry.truncate elements
      have typed : cutEntry.type = entry.type := entry.type_truncate elements
      have closed := around.put_holding own position appends
        (.array own slots elements cutEntry)
        (.array own (slots.commit slot elements).1 elements cutEntry) rfl rfl rfl
      have ended := Walk.close_holding around own position appends
        (.array own slots elements cutEntry) (entry.type.visits around.start)
        (Buffer.closeSlot slot elements)
      refine ⟨_, .all _ _, fun depth deeper => ?_⟩
      obtain ⟨depth, rfl⟩ := Nat.exists_eq_succ_of_ne_zero (Nat.ne_zero_of_lt deeper)
      have below := Node.truncateWithin_holding entry
        (around.inArray own position slots elements entry.type) own around.cursor
        entry.type.isScalar elements (Nat.lt_of_succ_lt_succ deeper)
      rw [← Around.holding_array own appends rfl, ← Around.holding_array own appends typed]
        at below
      simp only [Node.type, typed, Node.buffer, Buffer.closeSlot] at ended closed
      rw [closed] at ended
      exact Arena.commitWithin_slots (around.get?_holding own position appends _)
        (around.placement_holding own position appends _) rfl
        (around.cursors_holding own position appends own slots elements entry) below ended
  | .tuple own shared columns, around, path, position, appends, slot, inPlace => by
      obtain ⟨rfl, inColumns⟩ := inPlace
      obtain ⟨visited, comes, walked⟩ := Nodes.commitEach_holding columns
        (around.inTuple own position shared columns.schema) position slot inColumns
      have typed : (columns.commit slot).1.schema = columns.schema := columns.schema_commit slot
      simp only [Node.commit]
      generalize columns.commit slot = outcome at comes walked typed ⊢
      obtain ⟨after, refusal⟩ := outcome
      have filled := around.put_holding own position appends (.tuple own shared after)
        (.tuple own (max shared (slot + 1)) after) rfl rfl rfl
      have ended := Walk.close_holding around own position appends (.tuple own shared after) visited
        (Buffer.fill · (slot + 1))
      simp only [Node.type, typed, Node.buffer, Buffer.fill] at ended filled
      rw [filled] at ended
      have walkedHere : ∀ depth, columns.schema.size ≤ depth →
          Arena.walkEach (Arena.commitWithin depth · slot) (columns.schema.numbers around.start)
              (around.holding own position appends (.tuple own shared columns)) =
            some ⟨around.holding own position appends (.tuple own shared after), visited,
              refusal⟩ := by
        intro depth deeper
        rw [Around.holding_tuple _ _ rfl, Around.holding_tuple _ _ typed]
        exact walked depth deeper
      refine ⟨(around.start + columns.schema.size) :: visited, ?_, fun depth deeper => ?_⟩
      · cases refusal with
        | none => exact comes.visiting _
        | some _ => exact comes.visiting _
      · obtain ⟨depth, rfl⟩ := Nat.exists_eq_succ_of_ne_zero (Nat.ne_zero_of_lt deeper)
        have below := walkedHere depth (Nat.le_of_lt_succ deeper)
        cases refusal with
        | none =>
          exact Arena.commitWithin_group (around.get?_holding own position appends _) below ended
        | some _ =>
          exact Arena.commitWithin_group (around.get?_holding own position appends _) below rfl

/-- Committing in the arena is committing the columns. -/
theorem Nodes.commitEach_holding : ∀ (columns : Nodes) (around : Around) {parent : String}
    (position slot : Nat), columns.InPlace parent columns.schema →
    ∃ visited,
      ComesTo (columns.schema.visits around.start) visited ((columns.commit slot).2 = none) ∧
      ∀ depth, columns.schema.size ≤ depth →
        Arena.walkEach (Arena.commitWithin depth · slot) (columns.schema.numbers around.start)
            (around.holdingEach parent position columns) =
          some ⟨around.holdingEach parent position (columns.commit slot).1, visited,
            (columns.commit slot).2⟩
  | .nil, _, _, _, _, _ => ⟨[], .all _ _, fun _ _ => rfl⟩
  | .cons name node rest, around, parent, position, slot, ⟨_, inNode, inRest⟩ => by
      obtain ⟨visited, comes, walked⟩ := Node.commitWithin_holding node
        (around.beforeRest parent position node.type rest) position false slot inNode
      obtain ⟨others, comesLater, walkedLater⟩ := Nodes.commitEach_holding rest
        (around.afterFirst parent name position (node.commit slot).1) position slot inRest
      have typed : (node.commit slot).1.type = node.type := node.type_commit slot
      simp only [Nodes.commit]
      generalize node.commit slot = outcome at comes walked comesLater walkedLater typed ⊢
      obtain ⟨after, refusal⟩ := outcome
      have here : ∀ depth, node.type.inner < depth →
          Arena.commitWithin depth (around.start + node.type.inner) slot
              (around.holdingEach parent position (.cons name node rest)) =
            some ⟨around.holdingEach parent position (.cons name after rest), visited,
              refusal⟩ := by
        intro depth deeper
        rw [Around.holdingEach_first rfl, Around.holdingEach_first typed]
        exact walked depth deeper
      simp only [← Around.holdingEach_rest, Around.start_afterFirst, typed]
        at walkedLater comesLater
      cases refusal with
      | some refusal =>
        refine ⟨visited, comes.stopped _ (by simp), fun depth deeper => ?_⟩
        have enough : node.type.inner + 1 + rest.schema.size ≤ depth := deeper
        exact Arena.walkEach_stopped (Arena.commitWithin depth · slot)
          (here depth (by omega)) (by simp)
      | none =>
        have whole := comes.toAll rfl
        refine ⟨visited ++ others, ?_, fun depth deeper => ?_⟩
        · rw [whole]
          exact comesLater.append _
        · have enough : node.type.inner + 1 + rest.schema.size ≤ depth := deeper
          exact Arena.walkEach_cons (Arena.commitWithin depth · slot)
            (here depth (by omega)) (walkedLater depth (by omega))

end

end Columnar
