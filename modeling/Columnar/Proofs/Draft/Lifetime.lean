import Columnar.Proofs.Draft.Columns
import Columnar.Proofs.Draft.SavePoint
import Columnar.Proofs.Draft.Settling

/-!
# The life of a draft

A draft is written until it is finished or released, and after that nothing changes it any more: its
buffers are empty and stay so. All through its life the number of rows goes up by one with each row
that is saved, up to the limit, and is never changed otherwise.
-/

namespace Columnar

namespace Draft

variable {draft : Draft}

/-! ### The number of rows -/

private theorem sameRow_edit (draft : Draft) (steps : List Step) (change : Columnar.Edit) :
    SameRow draft (draft.edit steps change).1 := by
  obtain ⟨limits, schema, phase, row, columns⟩ := draft
  obtain ⟨sameRow, sameLimits⟩ := sameRow_settle ⟨limits, schema, phase, row, _⟩ _
  exact ⟨sameRow, sameLimits⟩

private theorem sameRow_discard (draft : Draft) : SameRow draft draft.discard.1 := by
  obtain ⟨limits, schema, phase, row, columns⟩ := draft
  cases phase <;> exact ⟨rfl, rfl⟩

private theorem sameRow_finish (draft : Draft) : SameRow draft draft.finish.1 := by
  obtain ⟨limits, schema, phase, row, columns⟩ := draft
  cases phase with
  | writing =>
    simp only [finish]
    split <;> exact ⟨rfl, rfl⟩
  | «sealed» => exact ⟨rfl, rfl⟩
  | released => exact ⟨rfl, rfl⟩

private theorem sameRow_release (draft : Draft) : SameRow draft draft.release.1 := by
  obtain ⟨limits, schema, phase, row, columns⟩ := draft
  cases phase <;> exact ⟨rfl, rfl⟩

/-- Whether an operation adds one row if it is to save one and is accepted, and none otherwise, and
keeps to the limit of rows. -/
structure Counts (saves : Bool) (before : Draft) (outcome : Draft × Outcome Unit) : Prop where
  row : outcome.1.row = if saves && outcome.2.result.isOk then before.row + 1 else before.row
  limits : outcome.1.limits = before.limits
  within : before.row ≤ before.limits.rows → outcome.1.row ≤ before.limits.rows

private theorem SameRow.counts {after : Draft} {saves : Bool} {outcome : Outcome Unit}
    (same : SameRow draft after) (unsaved : (saves && outcome.result.isOk) = false) :
    Counts saves draft (after, outcome) where
  row := by simp only [unsaved, same.row, Bool.false_eq_true, if_false]
  limits := same.limits
  within := fun within => by simpa only [same.row] using within

private theorem row_lt_of_gate? (opened : draft.gate? = none) : draft.row < draft.limits.rows := by
  obtain ⟨limits, schema, phase, row, columns⟩ := draft
  cases phase with
  | writing =>
    simp only [gate?] at opened
    split at opened
    · cases opened
    · rename_i fewer
      exact Nat.lt_of_not_le fewer
  | «sealed» => cases opened
  | released => cases opened

private theorem counts_save (draft : Draft) : Counts true draft draft.save := by
  obtain ⟨limits, schema, phase, row, columns⟩ := draft
  cases gate : gate? ⟨limits, schema, phase, row, columns⟩ with
  | some refusal =>
    simp only [save, gate]
    exact SameRow.counts ⟨rfl, rfl⟩ rfl
  | none =>
    have fewer := row_lt_of_gate? gate
    simp only [save, gate]
    generalize columns.commit row = outcome
    obtain ⟨after, refusal⟩ := outcome
    cases refusal with
    | none => exact ⟨rfl, rfl, fun _ => fewer⟩
    | some refusal =>
      have same := sameRow_settle ⟨limits, schema, phase, row, after⟩ (some refusal)
      obtain ⟨dropped, events, settled⟩ :=
        settle_refusal ⟨limits, schema, phase, row, after⟩ refusal
      simp only [settled] at same ⊢
      exact SameRow.counts ⟨same.row, same.limits⟩ rfl

private theorem counts_addRow (draft : Draft) (value : Value) :
    Counts true draft (draft.addRow value) := by
  have edited := sameRow_edit draft [] (.put value)
  simp only [addRow]
  generalize draft.edit [] (.put value) = outcome at edited ⊢
  obtain ⟨after, ⟨result, events⟩⟩ := outcome
  cases result with
  | error refusal =>
    have dropped := sameRow_discard after
    exact SameRow.counts ⟨dropped.row.trans edited.row, dropped.limits.trans edited.limits⟩ rfl
  | ok _ =>
    obtain ⟨row, limits, within⟩ := counts_save after
    rw [edited.row] at row within
    rw [edited.limits] at limits within
    exact ⟨row, limits, within⟩

/-- Every operation counts the rows. -/
theorem counts_act (draft : Draft) (action : Action) :
    Counts action.savesRow draft (draft.act action) := by
  cases action with
  | edit steps change => exact (sameRow_edit draft steps change).counts rfl
  | save => exact counts_save draft
  | addRow value => exact counts_addRow draft value
  | finish => exact (sameRow_finish draft).counts rfl
  | release => exact (sameRow_release draft).counts rfl

/-- No operation takes a row away. -/
theorem row_le_act (draft : Draft) (action : Action) : draft.row ≤ (draft.act action).1.row := by
  rw [(counts_act draft action).row]
  split
  · exact Nat.le_succ _
  · exact Nat.le_refl _

/-- The number of rows never goes down. -/
theorem row_le_run (draft : Draft) (actions : List Action) :
    draft.row ≤ (draft.run actions).row := by
  induction actions generalizing draft with
  | nil => exact Nat.le_refl _
  | cons action rest inductionHypothesis =>
    exact Nat.le_trans (row_le_act draft action) (inductionHypothesis (draft.act action).1)

/-- The number of rows keeps to the limit. -/
theorem row_run_le (actions : List Action) (within : draft.row ≤ draft.limits.rows) :
    (draft.run actions).row ≤ draft.limits.rows := by
  induction actions generalizing draft with
  | nil => exact within
  | cons action rest inductionHypothesis =>
    obtain ⟨_, limits, keeps⟩ := counts_act draft action
    have after := keeps within
    rw [← limits] at after ⊢
    exact inductionHypothesis after

/-! ### Until the end, and after it -/

private theorem gate?_ended (ended : draft.phase ≠ .writing) :
    ∃ gate, draft.gate? = some gate := by
  obtain ⟨limits, schema, phase, row, columns⟩ := draft
  cases phase with
  | writing => exact absurd rfl ended
  | «sealed» => exact ⟨_, rfl⟩
  | released => exact ⟨_, rfl⟩

/-- Dropping the row in progress changes nothing once the draft is finished or released. -/
theorem discard_ended (ended : draft.phase ≠ .writing) : draft.discard.1 = draft := by
  obtain ⟨limits, schema, phase, row, columns⟩ := draft
  cases phase with
  | writing => exact absurd rfl ended
  | «sealed» => rfl
  | released => rfl

/-- Nothing changes a draft that is finished or released. -/
theorem act_ended (ended : draft.phase ≠ .writing) (action : Action) :
    (draft.act action).1 = draft := by
  obtain ⟨gate, closed⟩ := gate?_ended ended
  cases action with
  | edit steps change =>
    obtain ⟨outcome, unchanged, _⟩ := edit_closed closed steps change
    rw [act, unchanged]
  | save => rw [act, save_closed closed]
  | addRow value =>
    obtain ⟨refusal, events, unchanged, _⟩ := addRow_closed closed (discard_ended ended) value
    rw [act, unchanged]
  | finish =>
    obtain ⟨limits, schema, phase, row, columns⟩ := draft
    cases phase with
    | writing => exact absurd rfl ended
    | «sealed» => rfl
    | released => rfl
  | release =>
    obtain ⟨limits, schema, phase, row, columns⟩ := draft
    cases phase with
    | writing => exact absurd rfl ended
    | «sealed» => rfl
    | released => rfl

/-- The drafts that a draft can become: one that holds the rows of a machine and its row in
progress, and once it is finished or released, one with the same number of rows and nothing in its
buffers. -/
inductive Reached (schema : Schema) (limits : Limits) : Draft → Prop where
  | written {machine : RowMachine} (sound : Sound schema limits machine)
      (settled : machine.current.Settled (.tuple schema)) :
      Reached schema limits (machine.draft schema limits)
  | ended {draft : Draft} (columns : Nodes) (ended : draft.phase ≠ .writing)
      (emptied : draft.columns = columns.reset) : Reached schema limits draft

variable {schema : Schema} {limits : Limits}

/-- Every operation leads from a draft that can be reached to another one. -/
theorem Reached.act (reached : Reached schema limits draft) (action : Action) :
    Reached schema limits (draft.act action).1 := by
  cases reached with
  | ended columns ended emptied =>
    rw [act_ended ended]
    exact .ended columns ended emptied
  | @written machine sound settled =>
    have written : action.isWrite = true →
        Reached schema limits ((machine.draft schema limits).act action).1 := by
      intro writes
      rw [(follows_act sound writes).draft]
      exact .written (sound.step writes) (RowMachine.settled_act settled action _)
    cases action with
    | edit steps change => exact written rfl
    | save => exact written rfl
    | addRow value => exact written rfl
    | release => exact .ended _ (by rintro ⟨⟩) rfl
    | finish =>
      have writing : (machine.draft schema limits).phase = .writing := rfl
      simp only [Draft.act, finish, writing]
      split
      · exact .ended _ (by rintro ⟨⟩) rfl
      · exact .ended _ (by rintro ⟨⟩) rfl

/-- A run leads from a draft that can be reached to another one. -/
theorem Reached.run (reached : Reached schema limits draft) (actions : List Action) :
    Reached schema limits (draft.run actions) := by
  induction actions generalizing draft with
  | nil => exact reached
  | cons action rest inductionHypothesis => exact inductionHypothesis (reached.act action)

/-- Whatever is done to a draft that begins, it is written still or it is over. -/
theorem reached_run (schema : Schema) (limits : Limits) (actions : List Action) :
    Reached schema limits ((ofSchema schema limits).run actions) := by
  rw [ofSchema_eq_draft]
  exact Reached.run
    (.written (sound_start schema limits) (Pending.settled_ofType (.tuple schema))) actions

end Draft

end Columnar
