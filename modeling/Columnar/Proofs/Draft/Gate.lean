import Columnar.Proofs.Draft.Settling
import Columnar.Proofs.Draft.Unchanged

/-!
# The gate of a draft

The gate of a draft is closed once the draft is sealed, released or full. Behind a closed gate no
write changes anything, whatever is written and wherever it is to go.
-/

namespace Columnar

namespace Draft

variable {draft : Draft} {gate : Refusal}

/-- What closes the gate is never a lack of room. -/
theorem isShortage_gate? (closed : draft.gate? = some gate) : gate.isShortage = false := by
  obtain ⟨limits, schema, phase, row, columns⟩ := draft
  cases phase with
  | writing =>
    simp only [gate?] at closed
    split at closed
    · cases closed
      rfl
    · cases closed
  | «sealed» =>
    cases closed
    rfl
  | released =>
    cases closed
    rfl

/-- Behind a closed gate an edit changes nothing. -/
theorem edit_closed (closed : draft.gate? = some gate) (steps : List Step)
    (change : Columnar.Edit) :
    ∃ outcome, draft.edit steps change = (draft, outcome) ∧ ranShort outcome.result = false := by
  obtain ⟨same, others⟩ :=
    Node.untouched_edit (isShortage_gate? closed) change steps draft.row draft.root
  have unchanged : draft.edited steps change = draft := by
    rw [edited, closed, same]
    rfl
  have hasRoom :
      ranShort (answer (draft.root.edit draft.gate? change steps draft.row).2) = false := by
    rw [closed]
    generalize (draft.root.edit (some gate) change steps draft.row).2 = refusal at others ⊢
    cases refusal with
    | none => rfl
    | some refusal => exact others refusal rfl
  rw [edit_eq_settle, settle_hasRoom hasRoom, unchanged]
  exact ⟨_, rfl, hasRoom⟩

/-- Behind a closed gate no row is saved. -/
theorem save_closed (closed : draft.gate? = some gate) : draft.save = (draft, .refuse gate) := by
  rw [save, closed]

/-- Behind a closed gate no row is added, even where writing it meets no column. What dropping the
row in progress would change must be told apart. -/
theorem addRow_closed (closed : draft.gate? = some gate) (idle : draft.discard.1 = draft)
    (value : Value) :
    ∃ refusal events, draft.addRow value = (draft, ⟨.error refusal, events⟩) ∧
      refusal.isShortage = false := by
  obtain ⟨⟨result, events⟩, written, hasRoom⟩ := edit_closed closed [] (.put value)
  cases result with
  | error refusal =>
    refine ⟨refusal, events ++ draft.discard.2, ?_, hasRoom⟩
    simp only [addRow, written]
    exact congrArg (fun dropped => (dropped, _)) idle
  | ok _ =>
    refine ⟨gate, events ++ [], ?_, isShortage_gate? closed⟩
    simp only [addRow, written, save_closed closed]
    rfl

end Draft

end Columnar
