import Columnar.Proofs.Arena.LaidOut

/-!
# Walks come to everything once

Wherever cutting, committing and freezing begin in the arena of columns, they come to an end, and on
the way to the buffer and to all below it, each once. They do in the arena what is done to the
columns themselves.
-/

namespace Columnar

/-- Whether the numbers that were come to are, each once, those of a buffer and of all below it, if
the whole of it was gone through, and some of them otherwise. -/
structure Store.VisitsOnce (store : Store) (id : Nat) (visited : List Nat) (whole : Prop) :
    Prop where
  once : visited.Nodup
  below : ∀ part ∈ visited, store.Below part id
  all : whole → ∀ part, store.Below part id → part ∈ visited

namespace Arena

/-- Whether all walks from a buffer come to an end and to everything below it once. No walk goes
deeper than the number of the buffer where it begins. -/
structure WalksOnce (arena : Arena) (id : Nat) : Prop where
  /-- Cutting is never refused. -/
  truncates : ∀ count, ∃ walk,
    (∀ depth, id < depth → truncateWithin depth id count arena = some walk) ∧
      walk.refusal = none ∧ arena.store.VisitsOnce id walk.visited True
  /-- Committing goes through everything unless it is refused, and ends there if it is. -/
  commits : ∀ slot, ∃ walk,
    (∀ depth, id < depth → commitWithin depth id slot arena = some walk) ∧
      arena.store.VisitsOnce id walk.visited (walk.refusal = none)
  /-- Freezing goes through everything unless it fails, and it never fails for a number that no
  buffer has. -/
  freezes : ∃ outcome visited,
    (∀ depth, id < depth → arena.store.freezeVisiting depth id = (outcome, visited)) ∧
      arena.store.freeze id = outcome ∧
      (∀ error, outcome.2 = .error error → error.isUnresolved = false) ∧
      arena.store.VisitsOnce id visited (∃ data, outcome.2 = .ok data)

end Arena

/-- What is come to in the order of walks from a column is below it, each number once. -/
theorem Node.visitsOnce_holding (node : Node) (around : Around) (path : String) (position : Nat)
    (appends : Bool) {visited : List Nat} {whole : Prop}
    (comes : ComesTo (node.type.visits around.start) visited whole) :
    (around.holding path position appends node).store.VisitsOnce
      (around.start + node.type.inner) visited whole where
  once :=
    ((node.type.visits_perm around.start).nodup_iff.mpr List.nodup_range').sublist
      comes.inOrder.sublist
  below _ member :=
    (node.below_holding around path position appends _).mpr (comes.inOrder.subset member)
  all done _ below := by
    rw [comes.toAll done]
    exact (node.below_holding around path position appends _).mp below

namespace Arena

variable {arena : Arena} {id position : Nat} {place : Place} {appends : Bool} {node : Node}

/-- Walks from a column that an arena holds come to everything once. -/
theorem Has.walksOnce (has : arena.Has id place position appends node) : arena.WalksOnce id := by
  obtain ⟨inPlace, around, rfl, rfl⟩ := has
  obtain ⟨path, type⟩ := place
  obtain rfl := inPlace.type_eq
  have deeper : ∀ {depth}, around.start + node.type.inner < depth → node.type.inner < depth :=
    fun deep => Nat.lt_of_le_of_lt (Nat.le_add_left _ _) deep
  refine ⟨fun count => ?_, fun slot => ?_, ?_⟩
  · refine ⟨_, fun depth deep =>
      node.truncateWithin_holding around path position appends count (deeper deep), rfl, ?_⟩
    exact node.visitsOnce_holding around path position appends (.all _ _)
  · obtain ⟨visited, comes, ends⟩ :=
      node.commitWithin_holding around position appends slot inPlace
    exact ⟨_, fun depth deep => ends depth (deeper deep),
      node.visitsOnce_holding around path position appends comes⟩
  · obtain ⟨after, visited, comes, -, ends⟩ :=
      node.freezeVisiting_holding around path position appends
    obtain ⟨within, -⟩ := Array.getElem?_eq_some_iff.mp
      (around.get?_holding path position appends node)
    refine ⟨_, visited, fun depth deep => ends depth (deeper deep), ?_, node.resolved_data?,
      node.visitsOnce_holding around path position appends comes⟩
    rw [Store.freeze, ← Store.fst_freezeVisiting]
    exact congrArg Prod.fst (ends _ (deeper within))

end Arena

/-- Whether walks from the columns of the row, one after the other, do in an arena what is done to
the columns, and come to every buffer once if they are not refused. -/
structure Nodes.Mirrored (columns : Nodes) (row : Nat) : Prop where
  truncates : ∀ count depth, (columns.arena row).store.size ≤ depth → ∃ visited,
    Arena.walkEach (Arena.truncateWithin depth · count) (columns.arena row).top
        (columns.arena row) = some ⟨(columns.truncate count).arena row, visited, none⟩ ∧
      visited.Perm (List.range (columns.arena row).store.size)
  commits : ∀ slot depth, (columns.arena row).store.size ≤ depth → ∃ visited,
    Arena.walkEach (Arena.commitWithin depth · slot) (columns.arena row).top
        (columns.arena row) =
        some ⟨(columns.commit slot).1.arena row, visited, (columns.commit slot).2⟩ ∧
      ((columns.commit slot).2 = none →
        visited.Perm (List.range (columns.arena row).store.size))
  freezes : ∀ depth, (columns.arena row).store.size ≤ depth → ∃ after visited,
    Store.freezeEachVisiting (Store.freezeVisiting depth) (columns.arena row).store
        (columns.arena row).top = ((after, columns.datas?), visited) ∧
      Store.freezeEach (Store.freezeWithin depth) (columns.arena row).store
        (columns.arena row).top = (after, columns.datas?) ∧
      ∀ data, columns.datas? = .ok data → after = (columns.reset.arena row).store ∧
        visited.Perm (List.range (columns.arena row).store.size)

/-- Walks in the arena of columns do what is done to the columns. -/
theorem Nodes.mirrored {schema : Schema} {columns : Nodes} (inPlace : columns.InPlace "" schema)
    (row : Nat) : columns.Mirrored row := by
  obtain rfl := inPlace.schema_eq
  let around := Around.row columns.schema row
  have arena_eq : ∀ {other : Nodes}, other.schema = columns.schema →
      other.arena row = around.holdingEach "" Layout.rowCursor other := by
    intro other same
    rw [Nodes.arena, same]
  have every : (columns.schema.visits around.start).Perm
      (List.range (columns.arena row).store.size) := by
    rw [columns.size_arena, List.range_eq_range']
    exact columns.schema.visits_perm 0
  refine ⟨fun count depth deeper => ?_, fun slot depth deeper => ?_, fun depth deeper => ?_⟩
  · rw [columns.size_arena] at deeper
    rw [arena_eq (columns.schema_truncate count)]
    exact ⟨_, columns.truncateEach_holding around "" Layout.rowCursor count deeper, every⟩
  · rw [columns.size_arena] at deeper
    obtain ⟨visited, comes, ends⟩ :=
      columns.commitEach_holding around Layout.rowCursor slot inPlace
    rw [arena_eq (columns.schema_commit slot)]
    exact ⟨visited, ends depth deeper, fun passed => comes.toAll passed ▸ every⟩
  · rw [columns.size_arena] at deeper
    obtain ⟨after, visited, comes, empties, ends⟩ :=
      columns.freezeEach_holding around "" Layout.rowCursor
    rw [arena_eq columns.schema_reset]
    refine ⟨after, visited, ends depth deeper, ?_, fun data frozen => ⟨empties data frozen, ?_⟩⟩
    · rw [← Store.fst_freezeEachVisiting (Store.fst_freezeVisiting depth)]
      exact congrArg Prod.fst (ends depth deeper)
    · exact comes.toAll ⟨data, frozen⟩ ▸ every

/-- Whether an arena is numbered as a schema is laid out, so that its buffers are a forest and walks
come to an end. -/
structure Arena.Ordered (arena : Arena) (schema : Schema) : Prop where
  layout : (arena.layout, arena.top) = Layout.ofSchema schema
  forest : arena.store.Forest
  walks : ∀ id, id < arena.store.size → arena.WalksOnce id

/-- The arena of columns is in order, whatever they hold. -/
theorem Nodes.ordered_arena {schema : Schema} {columns : Nodes}
    (inPlace : columns.InPlace "" schema) (solid : schema.Solid) (row : Nat) :
    (columns.arena row).Ordered schema where
  layout := by rw [columns.layout_arena row, inPlace.schema_eq]
  forest := Nodes.forest_arena inPlace solid row
  walks id within := by
    obtain ⟨address, member, numbered⟩ := Nodes.exists_address inPlace row within
    obtain ⟨other, place, cursor, target, same, -, -, has, -⟩ := Nodes.has_arena inPlace row member
    obtain rfl := Option.some.inj (numbered.symm.trans same)
    exact has.walksOnce

/-- Registering a checked schema gives one empty buffer, one place and one number for each column at
every depth: a forest of parts with smaller numbers, the columns of the row its roots in order, and
a cursor of its own for the elements of each array, at which just what is in it is written. This is
the arena of a draft that begins, and it keeps its order after any operations and in the middle of
them, whatever the columns hold. Walks from each buffer come to an end there and to all below it
once; those from the columns of the row cut, commit and freeze the columns of the draft. -/
theorem Arena.laidOut_of_checkAll {schema : Schema} (checked : schema.checkAll = .ok ())
    (limits : Limits) :
    (Arena.ofSchema schema limits).LaidOut schema limits.bufferBytes ∧
      Arena.ofSchema schema limits = (Draft.ofSchema schema limits).arena ∧
      (∀ actions, ((Draft.ofSchema schema limits).run actions).columns.InPlace "" schema) ∧
      ∀ (columns : Nodes) (row : Nat), columns.InPlace "" schema →
        (columns.arena row).Ordered schema ∧ columns.Mirrored row := by
  have solid : schema.Solid := Schema.solid_of_checkAll checked
  refine ⟨.ofSchema solid limits, Arena.ofSchema_eq schema limits, fun actions => ?_,
    fun columns row inPlace => ⟨Nodes.ordered_arena inPlace solid row, Nodes.mirrored inPlace row⟩⟩
  exact (Draft.inPlace_run schema limits actions).2

/-- A number, and points with labels each, of which one row is saved and another is not. -/
theorem Arena.laidOut_points :
    let points : ColumnType := .array (.tuple
      (.cons "x" (.scalar .integer) (.cons "tags" (.array (.scalar .string)) .nil)))
    let schema : Schema := .cons "a" (.scalar .long) (.cons "points" points .nil)
    let tags : List Step :=
      [.column (.position 1), .entry, .column (.position 1)]
    let begun := Arena.ofSchema schema ⟨4, 64⟩
    let row : Value := .tuple [.scalar (.long 1),
      .array [.tuple [.scalar (.int 2), .array [.scalar (.string "b")]]]]
    let draft := (Draft.ofSchema schema ⟨4, 64⟩).run
      [.addRow row, .edit [.column (.position 0)] (.set (.long 3))]
    schema.checkAll = .ok () ∧ begun.store.size = 6 ∧ begun.top = [0, 5] ∧
      begun.cursors.size = 3 ∧ begun.LaidOut schema 64 ∧
      (∃ cursor, (begun.placement? tags).bind Placement.elements? = some cursor ∧
        (begun.placement? (tags ++ [.entry])).map Placement.position = some cursor) ∧
      draft.arena.store.size = 6 ∧ draft.arena.WalksOnce 5 ∧
      (commitWithin 6 5 1 draft.arena).map Walk.visited = some [5, 4, 1, 3, 2] ∧
      draft.columns.Mirrored draft.row := by
  intro points schema tags begun row draft
  have checked : schema.checkAll = .ok () := rfl
  obtain ⟨laidOut, -, inPlace, kept⟩ := laidOut_of_checkAll checked ⟨4, 64⟩
  obtain ⟨ordered, mirrored⟩ := kept draft.columns draft.row (inPlace _)
  have size : draft.arena.store.size = 6 := by decide +kernel
  have within : 5 < draft.arena.store.size := by
    rw [size]
    decide
  exact ⟨checked, rfl, rfl, rfl, laidOut, laidOut.inside tags [] (by decide) nofun, size,
    ordered.walks 5 within, by decide +kernel, mirrored⟩

end Columnar
