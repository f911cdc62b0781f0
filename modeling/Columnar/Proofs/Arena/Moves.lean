import Columnar.Proofs.Arena.Writing
import Columnar.Proofs.Draft.Phases

/-!
# Moves for every write

Every write of a draft, of a whole value or a whole row as well, comes to moves of its writer. So
the writers that moves lead to are the drafts that are still written after any operations.
-/

namespace Columnar

/-- An edit at the end of a path that leads nowhere is refused without a trace. -/
theorem Node.edit_of_find_error {node : Node} {steps : List Step} {mismatch : Mismatch}
    (lost : node.find steps = .error mismatch) (gate : Option Refusal) (change : Edit)
    (position : Nat) :
    node.edit gate change steps position = (node, some (.mismatch mismatch)) := by
  induction steps generalizing node position with
  | nil => cases lost
  | cons step rest inductionHypothesis =>
    cases step with
    | column index =>
      cases node with
      | scalar _ _ =>
        obtain rfl := Except.error.inj lost
        rfl
      | array _ _ _ _ =>
        obtain rfl := Except.error.inj lost
        rfl
      | tuple path count columns =>
        cases columns.points index with
        | nowhere unresolved absent refused =>
          simp only [Node.find, Node.child, Node.column, asTuple, bind, Except.bind, absent] at lost
          obtain rfl := Except.error.inj lost
          simp only [Node.edit, refused]
        | «at» chosen child resolved found updated =>
          rw [Node.find_column found] at lost
          rw [Node.edit_column resolved found, inductionHypothesis lost position,
            Nodes.replace_self columns resolved found]
    | entry =>
      cases node with
      | scalar _ _ =>
        obtain rfl := Except.error.inj lost
        rfl
      | tuple _ _ _ =>
        obtain rfl := Except.error.inj lost
        rfl
      | array path slots elements entry =>
        have below : entry.find rest = .error mismatch := lost
        simp only [Node.edit, inductionHypothesis below elements, elementsAfter, Option.isNone_some,
          Bool.and_false, Bool.false_eq_true, if_false]

namespace Writer

/-- Moves are made one after the other. -/
theorem run_append {writer middle : Writer} {first : List Move}
    (reached : writer.run first = some middle) (second : List Move) :
    writer.run (first ++ second) = middle.run second := by
  induction first generalizing writer with
  | nil =>
    obtain rfl := Option.some.inj reached
    rfl
  | cons move rest inductionHypothesis =>
    obtain ⟨after, moved, reached⟩ := Option.bind_eq_some_iff.mp reached
    rw [List.cons_append, run, moved]
    exact inductionHypothesis reached

end Writer

namespace Draft

variable {schema : Schema} {limits : Limits} {draft : Draft}

/-- Whether moves lead from the writer of a draft to that of another. -/
def MovesTo (draft after : Draft) : Prop :=
  ∃ moves, draft.writer.run moves = some after.writer

theorem MovesTo.refl (draft : Draft) : draft.MovesTo draft :=
  ⟨[], rfl⟩

theorem MovesTo.trans {middle after : Draft} (first : draft.MovesTo middle)
    (second : middle.MovesTo after) : draft.MovesTo after := by
  obtain ⟨moves, reached⟩ := first
  obtain ⟨more, further⟩ := second
  exact ⟨moves ++ more, (Writer.run_append reached more).trans further⟩

/-- One move of the writer. -/
theorem MovesTo.one {after : Draft} {move : Writer.Move}
    (moved : draft.writer.move move = some after.writer) : draft.MovesTo after :=
  ⟨[move], by rw [Writer.run, moved]; rfl⟩

/-- An edit at the end of a path that leads nowhere changes nothing. -/
private theorem edit_lost {steps : List Step} {mismatch : Mismatch}
    (lost : draft.find steps = .error mismatch) (change : Columnar.Edit) :
    (draft.edit steps change).1 = draft := by
  have refused := Node.edit_of_find_error lost draft.gate? change draft.row
  rw [edit_eq_settle, edited, refused]
  rfl

/-- Saving a row is a move. -/
theorem movesTo_save (inPlace : draft.columns.InPlace "" schema) : draft.MovesTo draft.save.1 := by
  have moved : draft.writer.move .save = some draft.save.1.writer := by
    rw [Writer.move, save_writer inPlace]
    rfl
  exact .one moved

/-- Dropping the row in progress is a move. -/
theorem movesTo_discard (draft : Draft) : draft.MovesTo draft.discard.1 := by
  have moved : draft.writer.move .discard = some draft.discard.1.writer := by
    rw [Writer.move, discard_writer]
    rfl
  exact .one moved

/-- An edit that is not for the column at the end of its path changes nothing. -/
private theorem edit_idle {steps address : List Step} {slot : Nat} {target : Node}
    (leads : draft.root.Leads steps draft.row address slot target) {operation : Writer.Operation}
    (idle : operation.fits target.type = false) :
    (draft.edit steps operation.edit).1 = draft := by
  cases operation with
  | write _ => cases idle
  | saveElement =>
    have refused : ∃ mismatch,
        (draft.edit steps .saveElement).2.result = .error (.mismatch mismatch) := by
      rw [result_edit, (leads.edit draft.gate? .saveElement).1]
      cases target with
      | scalar _ _ => exact ⟨_, rfl⟩
      | array _ _ _ _ => cases idle
      | tuple _ _ _ => exact ⟨_, rfl⟩
    obtain ⟨mismatch, refused⟩ := refused
    exact edit_refused nofun refused rfl

/-- An edit of one scalar or one element is a move at the number of the column, or it changes
nothing. -/
theorem movesTo_operation (inPlace : draft.columns.InPlace "" schema) (steps : List Step)
    (operation : Writer.Operation) :
    draft.MovesTo (draft.edit steps operation.edit).1 := by
  cases gate : draft.gate? with
  | some refusal =>
    obtain ⟨outcome, same, -⟩ := edit_closed gate steps operation.edit
    rw [same]
    exact .refl draft
  | none =>
    cases found : draft.find steps with
    | error mismatch =>
      rw [edit_lost found]
      exact .refl draft
    | ok target =>
      obtain ⟨address, slot, leads⟩ := Node.leads_of_find draft.row found
      cases fits : operation.fits target.type with
      | false =>
        rw [edit_idle leads fits]
        exact .refl draft
      | true =>
        by_cases further : address = []
        · -- The row itself is no scalar and no array.
          subst further
          cases leads
          have refused : ∃ mismatch,
              (draft.edit [] operation.edit).2.result = .error (.mismatch mismatch) := by
            cases operation <;> exact ⟨_, rfl⟩
          obtain ⟨mismatch, refused⟩ := refused
          rw [edit_refused (by cases operation <;> nofun) refused rfl]
          exact .refl draft
        · obtain ⟨inner, own, cursor, takes, -, numbered, -⟩ := around inPlace leads further
          have operated := operate_writer inPlace leads numbered further fits gate
          have moved : draft.writer.move (.operate (inner.start + target.type.inner) operation) =
              some (draft.edit steps operation.edit).1.writer := by
            rw [Writer.move, operated]
            rfl
          exact .one moved

/-- The writes of one scalar, one element or one row. -/
theorem movesTo_act (inPlace : draft.columns.InPlace "" schema) {action : Action}
    (single : action.isSingle = true) : draft.MovesTo (draft.act action).1 := by
  cases action with
  | save => exact movesTo_save inPlace
  | addRow _ => cases single
  | finish => cases single
  | release => cases single
  | edit steps change =>
    cases change with
    | set value => exact movesTo_operation inPlace steps (.write value)
    | saveElement => exact movesTo_operation inPlace steps .saveElement
    | put _ => cases single

/-- If each of some operations comes to moves after any others, then so do all of them one after the
other. -/
theorem movesTo_run (kind : Action → Prop)
    (each : ∀ actions action, kind action → ((ofSchema schema limits).run actions).MovesTo
      (((ofSchema schema limits).run actions).act action).1)
    (actions : List Action) {more : List Action} (all : ∀ action ∈ more, kind action) :
    ((ofSchema schema limits).run actions).MovesTo
      (((ofSchema schema limits).run actions).run more) := by
  induction more generalizing actions with
  | nil => exact .refl _
  | cons action rest inductionHypothesis =>
    obtain ⟨first, later⟩ := List.forall_mem_cons.mp all
    have further := inductionHypothesis (actions ++ [action]) later
    rw [run_append] at further
    exact (each actions action first).trans further

/-- Writing a whole value comes to moves. -/
theorem movesTo_put (schema : Schema) (limits : Limits) (actions : List Action) (steps : List Step)
    (value : Value) :
    ((ofSchema schema limits).run actions).MovesTo
      (((ofSchema schema limits).run actions).edit steps (.put value)).1 := by
  cases found : ((ofSchema schema limits).run actions).find steps with
  | error mismatch =>
    rw [edit_lost found]
    exact .refl _
  | ok target =>
    obtain ⟨address, slot, leads⟩ := Node.leads_of_find _ found
    obtain ⟨done, front, ran⟩ := attempt_eq_run ((ofSchema schema limits).run actions)
      (singleEdits steps value target.type)
    rw [edit_put_eq_attempt leads value, ran]
    exact movesTo_run (·.isSingle = true)
      (fun actions _ single => movesTo_act (inPlace_run schema limits actions).2 single) actions
      fun action member => isSingle_singleEdits (front.subset member)

/-- Adding a row comes to moves. -/
theorem movesTo_addRow (schema : Schema) (limits : Limits) (actions : List Action) (value : Value) :
    ((ofSchema schema limits).run actions).MovesTo
      (((ofSchema schema limits).run actions).addRow value).1 := by
  have written := movesTo_put schema limits actions [] value
  have inPlace := (inPlace_run schema limits (actions ++ [.edit [] (.put value)])).2
  rw [run_append] at inPlace
  change (((ofSchema schema limits).run actions).edit [] (.put value)).1.columns.InPlace "" schema
    at inPlace
  simp only [addRow]
  generalize ((ofSchema schema limits).run actions).edit [] (.put value) = outcome
    at written inPlace ⊢
  obtain ⟨after, ⟨result, events⟩⟩ := outcome
  cases result with
  | error refusal => exact written.trans (movesTo_discard after)
  | ok _ => exact written.trans (movesTo_save inPlace)

/-- Every write comes to moves. -/
theorem movesTo_write (schema : Schema) (limits : Limits) (actions : List Action) {action : Action}
    (writes : action.isWrite = true) :
    ((ofSchema schema limits).run actions).MovesTo
      (((ofSchema schema limits).run actions).act action).1 := by
  have inPlace := (inPlace_run schema limits actions).2
  cases action with
  | edit steps change =>
    cases change with
    | put value => exact movesTo_put schema limits actions steps value
    | set _ => exact movesTo_act inPlace rfl
    | saveElement => exact movesTo_act inPlace rfl
  | save => exact movesTo_act inPlace rfl
  | addRow value => exact movesTo_addRow schema limits actions value
  | finish => cases writes
  | release => cases writes

/-- The writers that moves lead to are those of the drafts that are still written. -/
theorem exists_moves_iff (schema : Schema) (limits : Limits) (writer : Writer) :
    (∃ moves, (Writer.ofSchema schema limits).run moves = some writer) ↔
      ∃ actions, writer = ((ofSchema schema limits).run actions).writer ∧
        ((ofSchema schema limits).run actions).phase = .writing := by
  constructor
  · rintro ⟨moves, reached⟩
    exact exists_actions schema limits reached
  · rintro ⟨actions, rfl, writing⟩
    obtain ⟨moves, reached⟩ := movesTo_run (·.isWrite = true)
      (fun actions _ writes => movesTo_write schema limits actions writes) []
      (isWrite_of_run writing)
    exact ⟨moves, (congrArg (·.run moves) (writer_ofSchema schema limits)).symm.trans reached⟩

end Draft

end Columnar
