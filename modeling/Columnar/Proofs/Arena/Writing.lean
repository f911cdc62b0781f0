import Columnar.Proofs.Arena.Edits
import Columnar.Proofs.Draft.WholeValues

/-!
# Writers and drafts

A writer is a draft whose columns are in an arena. What moves a writer does to the draft what the
operations at the same columns do, and the answers and reports are the same. So the writers that
moves lead to are just the drafts that are still written, whole values and rows among the operations
that lead to them.
-/

namespace Columnar

/-- A position points at itself. -/
theorem Nodes.eq_of_resolve?_position : ∀ {columns : Nodes} {sought chosen : Nat},
    columns.resolve? (.position sought) = some chosen → chosen = sought
  | .nil, _, _, resolved => nomatch resolved
  | .cons _ _ _, 0, _, resolved => (Option.some.inj resolved).symm
  | .cons _ _ rest, _ + 1, _, resolved => by
      obtain ⟨later, below, rfl⟩ := Option.map_eq_some_iff.mp resolved
      exact congrArg (· + 1) (eq_of_resolve?_position below)

/-- A path without names is the address of the column that it leads to. -/
theorem Node.leads_of_direct {node target : Node} {address : List Step} (slot : Nat)
    (direct : ∀ step ∈ address, step.isNamed = false) (found : node.find address = .ok target) :
    ∃ last, node.Leads address slot address last target := by
  obtain ⟨other, last, leads⟩ := Node.leads_of_find slot found
  have same : other = address := by
    clear found
    induction leads with
    | here => rfl
    | @column _ _ _ index _ _ _ _ _ _ _ resolved present _ inductionHypothesis =>
      obtain ⟨first, later⟩ := List.forall_mem_cons.mp direct
      cases index with
      | name _ => cases first
      | position sought =>
        rw [inductionHypothesis later, Nodes.eq_of_resolve?_position resolved]
    | entry _ _ inductionHypothesis =>
      obtain ⟨-, later⟩ := List.forall_mem_cons.mp direct
      rw [inductionHypothesis later]
  exact ⟨last, same ▸ leads⟩

namespace Draft

variable {draft : Draft} {schema : Schema}

/-- The writer that has the columns of a draft in its arena. -/
def writer (draft : Draft) : Writer :=
  ⟨draft.limits, draft.phase, draft.arena⟩

/-- The first cursor tells the row. -/
@[simp] theorem rowCursor_arena (draft : Draft) :
    draft.arena.cursors[Layout.rowCursor]? = some draft.row := rfl

@[simp] theorem size_arena (draft : Draft) :
    draft.arena.store.size = draft.columns.schema.size :=
  draft.columns.size_arena draft.row

theorem gate?_writer (draft : Draft) : draft.writer.gate? draft.row = draft.gate? := rfl

/-! ### Rows -/

/-- Cutting the buffers of the row drops the row in progress. -/
theorem discardRow_arena (draft : Draft) :
    draft.arena.discardRow = some draft.discardRow.arena := by
  obtain ⟨limits, schema, phase, row, columns⟩ := draft
  have cut := columns.truncateEach_holding (Around.row columns.schema row) "" Layout.rowCursor row
    (Nat.le_refl _)
  have kept : (columns.truncate row).arena row =
      (Around.row columns.schema row).holdingEach "" Layout.rowCursor (columns.truncate row) := by
    rw [Nodes.arena, columns.schema_truncate row]
  rw [← kept, ← columns.size_arena row] at cut
  exact (congrArg (·.bind fun walk => some walk.arena) cut).trans rfl

/-- A writer ends an operation as the draft does. -/
theorem settle_writer (draft : Draft) (refusal : Option Refusal) :
    draft.writer.settle draft.row refusal =
      some ((draft.settle refusal).1.writer, (draft.settle refusal).2) := by
  cases refusal with
  | none => rfl
  | some refusal =>
    cases refusal with
    | overflow overflow =>
      cases overflow with
      | rowLimit _ => rfl
      | buffer column requested capacity =>
        have dropped : draft.writer.arena.discardRow = some draft.discardRow.arena :=
          draft.discardRow_arena
        simp only [Writer.settle, dropped]
        rfl
    | _ => rfl

/-- Dropping the row in progress of a draft drops it in the arena. -/
theorem discard_writer (draft : Draft) :
    draft.writer.discard = some (draft.discard.1.writer, draft.discard.2) := by
  have dropped : draft.writer.arena.discardRow = some draft.discardRow.arena :=
    draft.discardRow_arena
  obtain ⟨limits, schema, phase, row, columns⟩ := draft
  cases phase with
  | writing =>
    simp only [Writer.discard, Draft.writer] at dropped ⊢
    simp only [dropped]
    rfl
  | «sealed» => rfl
  | released => rfl

/-- Behind a closed gate nothing is changed. -/
theorem attempt_closed {gate : Refusal} (closed : draft.gate? = some gate)
    (change : Arena → Option (Arena × Option Refusal)) :
    draft.writer.attempt change = some (draft.writer, .refuse gate) := by
  have told : draft.writer.arena.cursors[Layout.rowCursor]? = some draft.row := rfl
  simp [Writer.attempt, told, gate?_writer, closed]

/-- Behind an open gate the change is made. -/
theorem attempt_open (free : draft.gate? = none)
    {change : Arena → Option (Arena × Option Refusal)} {after : Arena} {refusal : Option Refusal}
    (changed : change draft.arena = some (after, refusal)) :
    draft.writer.attempt change =
      { draft.writer with arena := after }.settle draft.row refusal := by
  have told : draft.writer.arena.cursors[Layout.rowCursor]? = some draft.row := rfl
  have made : change draft.writer.arena = some (after, refusal) := changed
  simp [Writer.attempt, told, gate?_writer, free, made]

/-- Committing the buffers of the row commits the columns, and the cursor of the rows goes on if
none of them refuses. -/
theorem saveRow_arena (inPlace : draft.columns.InPlace "" schema) :
    draft.arena.saveRow =
      some ((draft.columns.commit draft.row).1.arena
        (if (draft.columns.commit draft.row).2.isNone then draft.row + 1 else draft.row),
        (draft.columns.commit draft.row).2) := by
  obtain ⟨visited, committed, -⟩ :=
    (Nodes.mirrored inPlace draft.row).commits draft.row _ (Nat.le_refl _)
  have saved : draft.arena.saveRow =
      some (((draft.columns.commit draft.row).1.arena draft.row).goOn
        (draft.columns.commit draft.row).2.isNone Layout.rowCursor draft.row,
        (draft.columns.commit draft.row).2) :=
    congrArg (·.bind fun walk =>
      some (walk.arena.goOn walk.refusal.isNone Layout.rowCursor draft.row, walk.refusal)) committed
  rw [saved]
  cases (draft.columns.commit draft.row).2 <;> rfl

/-- Saving a row of a draft saves it in the arena. -/
theorem save_writer (inPlace : draft.columns.InPlace "" schema) :
    draft.writer.save = some (draft.save.1.writer, draft.save.2) := by
  cases gate : draft.gate? with
  | some refusal =>
    rw [Writer.save, attempt_closed gate, save_closed gate]
  | none =>
    have saved := saveRow_arena inPlace
    rw [Writer.save, attempt_open gate saved]
    obtain ⟨limits, own, phase, row, columns⟩ := draft
    simp only [save, gate]
    generalize columns.commit row = outcome
    obtain ⟨after, refusal⟩ := outcome
    cases refusal with
    | none => rfl
    | some refusal => exact settle_writer ⟨limits, own, phase, row, after⟩ (some refusal)

/-! ### Columns at every depth -/

/-- A path from the row leads to a column that the arena of the draft is one around. Its number is
at the end of its address, and the cursor of its place tells the slot where it is written. What is
done there, with the cursor going on behind a scalar entry, is done by an edit of the draft. -/
theorem around (inPlace : draft.columns.InPlace "" schema) {steps address : List Step} {slot : Nat}
    {target : Node} (leads : draft.root.Leads steps draft.row address slot target)
    (further : address ≠ []) :
    ∃ (inner : Around) (own : String) (cursor : Nat) (takes : Bool),
      draft.arena = inner.holding own cursor takes target ∧
      draft.arena.number? address = some (inner.start + target.type.inner) ∧
      target.InPlace own target.type ∧ inner.Tells cursor slot ∧
      (takes = true → Layout.rowCursor < cursor) ∧
      ∀ change,
        (inner.holding own cursor takes (target.editHere none change slot).1).goOn
            (takes && target.isScalar && (target.editHere none change slot).2.isNone) cursor slot =
          (draft.root.edit none change steps draft.row).1.columns.arena draft.row := by
  obtain ⟨limits, own, phase, row, columns⟩ := draft
  obtain rfl := inPlace.schema_eq
  cases leads with
  | here => exact absurd rfl further
  | @column _ _ _ index chosen child _ rest address _ _ resolved found below =>
    have here : columns.get? (.position chosen) = some child :=
      (Nodes.get?_of_resolve? columns resolved).symm.trans found
    obtain ⟨middle, childPath, there, numbered, inChild, tells, replaced⟩ :=
      columns.around_column (Around.row columns.schema row) Layout.rowCursor inPlace here
    obtain ⟨inner, ownPath, cursor, takes, arena, followed, inTarget, told, later, changes⟩ :=
      below.around middle false inChild (tells Layout.rowCursor row rfl) nofun
    rw [← there] at arena followed
    refine ⟨inner, ownPath, cursor, takes, arena, ?_, inTarget, told, later, fun change => ?_⟩
    · have first : (columns.arena row).top[chosen]? = some (middle.start + child.type.inner) :=
        numbered
      simp only [Draft.arena, Arena.number?, Store.followFrom, first, Option.bind_eq_bind,
        Option.bind_some]
      exact followed
    · have typed := child.type_edit none change rest row
      have kept := columns.schema_replace here typed
      simp only [root, Node.edit_column resolved found, Node.columns]
      rw [changes, Bool.false_and, Bool.false_and, Arena.goOn_false, replaced _ typed, Nodes.arena,
        kept]

/-- What is done at the number of a column is done by an edit of the draft at the end of a path to
the column. -/
theorem operate_writer (inPlace : draft.columns.InPlace "" schema) {steps address : List Step}
    {slot id : Nat} {target : Node} (leads : draft.root.Leads steps draft.row address slot target)
    (numbered : draft.arena.number? address = some id) (further : address ≠ [])
    {operation : Writer.Operation} (fits : operation.fits target.type = true)
    (free : draft.gate? = none) :
    draft.writer.operate id operation =
      some ((draft.edit steps operation.edit).1.writer, (draft.edit steps operation.edit).2) := by
  obtain ⟨inner, own, cursor, takes, arena, reached, inTarget, told, -, changes⟩ :=
    around inPlace leads further
  obtain rfl := Option.some.inj (numbered.symm.trans reached)
  have performed := Node.perform_holding inTarget told takes fits
  rw [← arena, changes, ← (leads.edit none operation.edit).1] at performed
  rw [Writer.operate, attempt_open free performed, edit_eq_settle, ← settle_writer, edited, free]
  rfl

/-- The elements that a draft tells for an array are those that its arena tells. -/
theorem elementIndex_arena (inPlace : draft.columns.InPlace "" schema) {steps address : List Step}
    {slot id : Nat} {target : Node} (leads : draft.root.Leads steps draft.row address slot target)
    (numbered : draft.arena.number? address = some id) (further : address ≠ []) :
    draft.arena.elementIndex id = some target.elementIndex := by
  obtain ⟨inner, own, cursor, takes, arena, reached, -⟩ := around inPlace leads further
  obtain rfl := Option.some.inj (numbered.symm.trans reached)
  rw [arena]
  exact target.elementIndex_holding inner own cursor takes

/-! ### Columns by their addresses -/

/-- Whether the column at an address of a schema has a number and a type. -/
structure Addressed (schema : Schema) (arena : Arena) (address : List Step) (id : Nat)
    (type : ColumnType) : Prop where
  member : address ∈ schema.addresses
  numbered : arena.number? address = some id
  typed : ∃ path, (Place.ofSchema schema).find address = .ok ⟨path, type⟩

/-- Every number in the arena of a draft is that of a column at an address. -/
theorem exists_addressed (inPlace : draft.columns.InPlace "" schema) {id : Nat}
    (within : id < draft.arena.store.size) :
    ∃ address type, Addressed schema draft.arena address id type := by
  obtain ⟨address, member, numbered⟩ := Nodes.exists_address inPlace draft.row within
  obtain ⟨-, -, ⟨path, type⟩, leads⟩ := (schema.mem_addresses_iff address).mp member
  exact ⟨address, type, member, numbered, path, leads⟩

/-- The numbers do not depend on what the columns hold. -/
theorem Addressed.of_inPlace {other : Draft} {address : List Step} {id : Nat} {type : ColumnType}
    (addressed : Addressed schema draft.arena address id type)
    (inPlace : draft.columns.InPlace "" schema) (inPlaceAlso : other.columns.InPlace "" schema) :
    Addressed schema other.arena address id type := by
  have numbers := draft.columns.numbers_arena draft.row
  have numbersAlso := other.columns.numbers_arena other.row
  rw [inPlace.schema_eq, draft.columns.size_arena, inPlace.schema_eq] at numbers
  rw [inPlaceAlso.schema_eq, other.columns.size_arena, inPlaceAlso.schema_eq] at numbersAlso
  have same := List.map_inj_left.mp (numbersAlso.trans numbers.symm) address addressed.member
  exact ⟨addressed.member, same.trans addressed.numbered, addressed.typed⟩

/-- An address leads to a column of its type. -/
theorem Addressed.leads {address : List Step} {id : Nat} {type : ColumnType}
    (addressed : Addressed schema draft.arena address id type)
    (inPlace : draft.columns.InPlace "" schema) :
    address ≠ [] ∧ ∃ slot target, draft.root.Leads address draft.row address slot target ∧
      target.type = type := by
  obtain ⟨further, direct, -⟩ := (schema.mem_addresses_iff address).mp addressed.member
  obtain ⟨path, leads⟩ := addressed.typed
  obtain ⟨_, _, _, target, -, same, found, has, -⟩ :=
    Nodes.has_arena inPlace draft.row addressed.member
  obtain rfl := Except.ok.inj (leads.symm.trans same)
  obtain ⟨slot, leadsThere⟩ := Node.leads_of_direct draft.row direct found
  exact ⟨further, slot, target, leadsThere, has.inPlace.type_eq⟩

/-- Does at the address of a column of a type what is done at its number. -/
def operate (draft : Draft) (address : List Step) (type : ColumnType)
    (operation : Writer.Operation) : Draft × Outcome Unit :=
  match draft.gate? with
  | some gate => (draft, .refuse gate)
  | none =>
      if operation.fits type then draft.edit address operation.edit else (draft, .accept ())

/-- What is done at a number is done at the address of the column. -/
theorem Addressed.operate_eq {address : List Step} {id : Nat} {type : ColumnType}
    (addressed : Addressed schema draft.arena address id type)
    (inPlace : draft.columns.InPlace "" schema) (operation : Writer.Operation) :
    draft.writer.operate id operation =
      some ((draft.operate address type operation).1.writer,
        (draft.operate address type operation).2) := by
  obtain ⟨further, slot, target, leads, rfl⟩ := addressed.leads inPlace
  cases gate : draft.gate? with
  | some refusal =>
    rw [Writer.operate, attempt_closed gate]
    simp only [operate, gate]
  | none =>
    simp only [operate, gate]
    split
    · rename_i fits
      exact operate_writer inPlace leads addressed.numbered further fits gate
    · rename_i idle
      obtain ⟨inner, own, cursor, takes, arena, reached, -⟩ := around inPlace leads further
      obtain rfl := Option.some.inj (addressed.numbered.symm.trans reached)
      have performed := target.perform_idle inner own cursor takes (eq_false_of_ne_true idle)
      rw [← arena] at performed
      rw [Writer.operate, attempt_open gate performed]
      rfl

/-! ### Runs -/

variable {limits : Limits} {after : Writer}

/-- A number at which something is done is that of a buffer. -/
private theorem within_of_perform {operation : Writer.Operation} {id : Nat} {arena : Arena}
    {changed : Arena × Option Refusal} (performed : operation.perform id arena = some changed) :
    id < arena.store.size := by
  have stored : ∃ buffer, arena.store.get? id = some buffer := by
    cases operation with
    | write _ => exact (Option.bind_eq_some_iff.mp performed).imp fun _ found => found.1
    | saveElement => exact (Option.bind_eq_some_iff.mp performed).imp fun _ found => found.1
  obtain ⟨buffer, found⟩ := stored
  exact (Array.getElem?_eq_some_iff.mp found).1

theorem phase_settle (draft : Draft) (refusal : Option Refusal) :
    (draft.settle refusal).1.phase = draft.phase := by
  cases refusal with
  | none => rfl
  | some refusal =>
    cases refusal with
    | overflow overflow => cases overflow <;> rfl
    | _ => rfl

theorem phase_edit (draft : Draft) (steps : List Step) (change : Columnar.Edit) :
    (draft.edit steps change).1.phase = draft.phase := by
  rw [edit_eq_settle, phase_settle]
  rfl

theorem phase_save (draft : Draft) : draft.save.1.phase = draft.phase := by
  cases gate : draft.gate? with
  | some refusal => rw [save_closed gate]
  | none =>
    obtain ⟨limits, schema, phase, row, columns⟩ := draft
    simp only [save, gate]
    split
    · rfl
    · exact phase_settle _ _

/-- What is done at a number leads to the writer of a draft. -/
private theorem run_operate (inPlace : draft.columns.InPlace "" schema)
    (writing : draft.phase = .writing) {id : Nat} {operation : Writer.Operation}
    (moved : draft.writer.move (.operate id operation) = some after) :
    ∃ actions, after = (draft.run actions).writer ∧ (draft.run actions).phase = .writing := by
  cases gate : draft.gate? with
  | some refusal =>
    rw [Writer.move, Writer.operate, attempt_closed gate] at moved
    exact ⟨[], (Option.some.inj moved).symm, writing⟩
  | none =>
    have performed : ∃ changed, operation.perform id draft.arena = some changed := by
      cases performed : operation.perform id draft.arena with
      | some changed => exact ⟨changed, rfl⟩
      | none =>
        have told : draft.writer.arena.cursors[Layout.rowCursor]? = some draft.row := rfl
        have none : operation.perform id draft.writer.arena = none := performed
        simp [Writer.move, Writer.operate, Writer.attempt, told, gate?_writer, gate, none] at moved
    obtain ⟨changed, performed⟩ := performed
    obtain ⟨address, type, addressed⟩ := exists_addressed inPlace (within_of_perform performed)
    rw [Writer.move, addressed.operate_eq inPlace] at moved
    obtain rfl := Option.some.inj moved
    simp only [operate, gate]
    split
    · exact ⟨[.edit address operation.edit], rfl, (phase_edit _ _ _).trans writing⟩
    · exact ⟨[], rfl, writing⟩

/-- A move leads from the writer of a draft that is written to that of another one. -/
private theorem run_move (inPlace : draft.columns.InPlace "" schema)
    (writing : draft.phase = .writing) {move : Writer.Move}
    (moved : draft.writer.move move = some after) :
    ∃ actions, after = (draft.run actions).writer ∧ (draft.run actions).phase = .writing := by
  cases move with
  | operate id operation => exact run_operate inPlace writing moved
  | save =>
    rw [Writer.move, save_writer inPlace] at moved
    exact ⟨[.save], (Option.some.inj moved).symm, (phase_save draft).trans writing⟩
  | discard =>
    rw [Writer.move, discard_writer] at moved
    -- Adding a row that is no tuple does nothing but drop the row in progress.
    refine ⟨[.addRow (.scalar (.bool true))], (Option.some.inj moved).symm, ?_⟩
    obtain ⟨limits, schema, phase, row, columns⟩ := draft
    obtain rfl := writing
    rfl

/-- The writer of a draft that begins. -/
theorem writer_ofSchema (schema : Schema) (limits : Limits) :
    (ofSchema schema limits).writer = Writer.ofSchema schema limits := by
  rw [Writer.ofSchema, Arena.ofSchema_eq]
  rfl

/-- Moves lead from the writers of drafts that are still written to such writers. -/
private theorem run_moves (schema : Schema) (limits : Limits) {moves : List Writer.Move}
    {actions : List Action} (writing : ((ofSchema schema limits).run actions).phase = .writing)
    (ran : ((ofSchema schema limits).run actions).writer.run moves = some after) :
    ∃ actions, after = ((ofSchema schema limits).run actions).writer ∧
      ((ofSchema schema limits).run actions).phase = .writing := by
  induction moves generalizing actions with
  | nil => exact ⟨actions, (Option.some.inj ran).symm, writing⟩
  | cons move rest inductionHypothesis =>
    obtain ⟨middle, moved, ran⟩ := Option.bind_eq_some_iff.mp ran
    obtain ⟨more, rfl, writing⟩ := run_move (inPlace_run schema limits actions).2 writing moved
    rw [← run_append] at ran writing
    exact inductionHypothesis writing ran

/-- Moves lead from a writer that begins to the writers of drafts that are still written. -/
theorem exists_actions (schema : Schema) (limits : Limits) {moves : List Writer.Move}
    (reached : (Writer.ofSchema schema limits).run moves = some after) :
    ∃ actions, after = ((ofSchema schema limits).run actions).writer ∧
      ((ofSchema schema limits).run actions).phase = .writing := by
  have begun : ((ofSchema schema limits).run []).phase = .writing := rfl
  rw [← writer_ofSchema] at reached
  exact run_moves schema limits begun reached

end Draft

end Columnar
