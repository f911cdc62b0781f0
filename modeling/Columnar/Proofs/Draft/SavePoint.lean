import Columnar.Proofs.Draft.Simulation

/-!
# Save points

A draft is at a save point when it was just begun or a row was just saved. Whatever is written
after that, short of the next saved row, is undone as a whole by dropping the row in progress: every
buffer at every depth is again what it was, and so are all counts.
-/

namespace Columnar

namespace Draft

/-- Whether an operation is one that saves a row when it is accepted. -/
def Action.savesRow : Action → Bool
  | .save | .addRow _ => true
  | .edit _ _ | .finish | .release => false

/-- Whether an operation writes one scalar, ends one element or ends the row. -/
def Action.isSingle : Action → Bool
  | .edit _ (.set _) | .edit _ .saveElement | .save => true
  | .edit _ (.put _) | .addRow _ | .finish | .release => false

/-- The drafts that are reached from a draft by writes of which none saves a row. -/
inductive InProgress (origin : Draft) : Draft → Prop where
  | start : InProgress origin origin
  | write {draft : Draft} {action : Action} (prior : InProgress origin draft)
      (writes : action.isWrite = true)
      (unsaved : action.savesRow = true → (draft.act action).2.result ≠ .ok ()) :
      InProgress origin (draft.act action).1

/-- The drafts that were just begun and those in which a row was just saved. -/
inductive SavePoint (schema : Schema) (limits : Limits) : Draft → Prop where
  | begun : SavePoint schema limits (ofSchema schema limits)
  | saved {origin draft : Draft} {action : Action} (point : SavePoint schema limits origin)
      (progress : InProgress origin draft) (saves : action.savesRow = true)
      (accepted : (draft.act action).2.result = .ok ()) :
      SavePoint schema limits (draft.act action).1

variable {schema : Schema} {limits : Limits} {machine : RowMachine} {origin draft : Draft}

theorem Action.isWrite_of_savesRow {action : Action} (saves : action.savesRow = true) :
    action.isWrite = true := by
  cases action <;> first | rfl | cases saves

/-! ### Refused without a trace -/

private theorem settle_refused {draft : Draft} {refusal : Option Refusal} {refused : Refusal}
    (answered : (draft.settle refusal).2.result = .error refused)
    (other : refused.isShortage = false) :
    refusal = some refused ∧ (draft.settle refusal).1 = draft := by
  cases refusal with
  | none => cases answered
  | some refusal =>
    cases short : refusal.isShortage with
    | false =>
      rw [settle_other short] at answered ⊢
      cases answered
      exact ⟨rfl, rfl⟩
    | true =>
      cases refusal with
      | overflow overflow =>
        cases overflow with
        | rowLimit _ => cases short
        | buffer _ _ _ =>
          cases answered
          cases other
      | _ => cases short

/-- An edit other than of a whole value leaves the draft as it was when it is refused for another
reason than lack of room. -/
theorem edit_refused {steps : List Step} {change : Columnar.Edit}
    (partly : ∀ value, change ≠ .put value) {refusal : Refusal}
    (refused : (draft.edit steps change).2.result = .error refusal)
    (other : refusal.isShortage = false) : (draft.edit steps change).1 = draft := by
  obtain ⟨limits, schema, phase, row, columns⟩ := draft
  simp only [edit] at refused ⊢
  obtain ⟨answer, settled⟩ := settle_refused refused other
  rw [settled, Node.untorn_edit partly _ steps row _ refusal answer other]
  rfl

/-- Saving a row leaves the draft as it was when it is refused for another reason than lack of
room. -/
theorem save_refused {refusal : Refusal} (refused : draft.save.2.result = .error refusal)
    (other : refusal.isShortage = false) : draft.save.1 = draft := by
  obtain ⟨limits, schema, phase, row, columns⟩ := draft
  have short := Nodes.isShortage_commit columns row
  simp only [save] at refused ⊢
  cases gate : gate? ⟨limits, schema, phase, row, columns⟩ with
  | some closed => rfl
  | none =>
    simp only [gate] at refused ⊢
    generalize columns.commit row = outcome at refused short ⊢
    obtain ⟨after, answer⟩ := outcome
    cases answer with
    | none => cases refused
    | some cause =>
      obtain ⟨answer, _⟩ := settle_refused refused other
      rw [short refusal answer] at other
      cases other

/-- A single write leaves the draft as it was when it is refused for another reason than lack of
room. -/
theorem act_refused {action : Action} (single : action.isSingle = true) {refusal : Refusal}
    (refused : (draft.act action).2.result = .error refusal)
    (other : refusal.isShortage = false) : (draft.act action).1 = draft := by
  cases action with
  | edit steps change =>
    cases change with
    | set value => exact edit_refused (fun _ same => by cases same) refused other
    | saveElement => exact edit_refused (fun _ same => by cases same) refused other
    | put value => cases single
  | save => exact save_refused refused other
  | addRow value => cases single
  | finish => cases single
  | release => cases single

/-! ### Between save points -/

/-- Saving or adding a row either saves one more row and begins a fresh one, or keeps the rows. -/
private theorem step_progress (sound : Sound schema limits machine) {action : Action}
    (saves : action.savesRow = true) :
    (((machine.draft schema limits).act action).2.result = .ok () ∧
        (machine.step schema limits action).current = .ofType (.tuple schema)) ∨
      (((machine.draft schema limits).act action).2.result ≠ .ok () ∧
        (machine.step schema limits action).rows = machine.rows) := by
  cases action with
  | save =>
    have saved := saved_save sound.room
    rw [act]
    generalize machine.step schema limits .save = next at saved ⊢
    generalize (machine.draft schema limits).save = outcome at saved ⊢
    cases saved with
    | full _ => exact .inr ⟨by rintro ⟨⟩, rfl⟩
    | closed _ => exact .inl ⟨rfl, rfl⟩
    | short _ _ => exact .inr ⟨by rintro ⟨⟩, rfl⟩
  | addRow value =>
    have added := sound.added value
    rw [act]
    generalize machine.step schema limits (.addRow value) = next at added ⊢
    generalize (machine.draft schema limits).addRow value = outcome at added ⊢
    cases added with
    | full _ _ => exact .inr ⟨by rintro ⟨⟩, rfl⟩
    | saved _ _ _ => exact .inl ⟨rfl, rfl⟩
    | rejected _ => exact .inr ⟨by rintro ⟨⟩, rfl⟩
    | short _ _ => exact .inr ⟨by rintro ⟨⟩, rfl⟩
  | edit _ _ => cases saves
  | finish => cases saves
  | release => cases saves

/-- Writes that save no row keep the saved rows. -/
private theorem rows_of_unsaved (sound : Sound schema limits machine) {action : Action}
    (writes : action.isWrite = true)
    (unsaved : action.savesRow = true →
      ((machine.draft schema limits).act action).2.result ≠ .ok ()) :
    (machine.step schema limits action).rows = machine.rows := by
  cases saves : action.savesRow with
  | true =>
    rcases step_progress sound saves with ⟨accepted, _⟩ | ⟨_, kept⟩
    · exact absurd accepted (unsaved saves)
    · exact kept
  | false =>
    cases action with
    | edit steps change => exact RowMachine.rows_act_edit schema limits.rows machine steps change _
    | save => cases saves
    | addRow _ => cases saves
    | finish => cases writes
    | release => cases writes

/-- A draft in progress follows a machine with the rows of its origin. -/
private theorem machine_of_progress {start : RowMachine} (sound : Sound schema limits start)
    (progress : InProgress (start.draft schema limits) draft) :
    ∃ machine, Sound schema limits machine ∧ machine.rows = start.rows ∧
      draft = machine.draft schema limits := by
  induction progress with
  | start => exact ⟨start, sound, rfl, rfl⟩
  | write prior writes unsaved inductionHypothesis =>
    obtain ⟨machine, soundPrior, rows, rfl⟩ := inductionHypothesis
    refine ⟨_, soundPrior.step writes, ?_, (follows_act soundPrior writes).draft⟩
    rw [rows_of_unsaved soundPrior writes unsaved, rows]

/-- A save point follows a machine that has nothing in progress. -/
private theorem machine_of_savePoint (point : SavePoint schema limits origin) :
    ∃ machine, Sound schema limits machine ∧ machine.current = .ofType (.tuple schema) ∧
      origin = machine.draft schema limits := by
  induction point with
  | begun => exact ⟨_, sound_start schema limits, rfl, ofSchema_eq_draft schema limits⟩
  | saved point progress saves accepted inductionHypothesis =>
    obtain ⟨start, sound, _, rfl⟩ := inductionHypothesis
    obtain ⟨machine, soundPrior, _, rfl⟩ := machine_of_progress sound progress
    have writes := Action.isWrite_of_savesRow saves
    refine ⟨_, soundPrior.step writes, ?_, (follows_act soundPrior writes).draft⟩
    rcases step_progress soundPrior saves with ⟨_, fresh⟩ | ⟨refused, _⟩
    · exact fresh
    · exact absurd accepted refused

/-- Dropping the row in progress leads back to the last save point, and so does every write that is
refused for lack of room and every row that is not added. Dropping once more changes nothing. A
single write that is refused for another reason leaves the draft as it was before. -/
theorem discard_restores_savePoint (point : SavePoint schema limits origin)
    (progress : InProgress origin draft) :
    draft.discardRow = origin ∧ origin.discardRow = origin ∧
      (∀ action column requested capacity, action.isWrite = true →
        (draft.act action).2.result = .error (.overflow (.buffer column requested capacity)) →
        (draft.act action).1 = origin) ∧
      (∀ value refusal, (draft.addRow value).2.result = .error refusal →
        (draft.addRow value).1 = origin) ∧
      (∀ action refusal, action.isSingle = true → (draft.act action).2.result = .error refusal →
        refusal.isShortage = false → (draft.act action).1 = draft) := by
  obtain ⟨start, sound, fresh, rfl⟩ := machine_of_savePoint point
  obtain ⟨machine, soundNow, rows, rfl⟩ := machine_of_progress sound progress
  have back : (machine.discard schema).draft schema limits = start.draft schema limits := by
    rw [RowMachine.discard, rows, ← fresh]
  -- Both drafts are those of machines with the same rows, and dropping leaves nothing else.
  refine ⟨?_, ?_, ?_, ?_, ?_⟩
  · rw [discardRow_draft, back]
  · rw [discardRow_draft, RowMachine.discard, ← fresh]
  · intro action column requested capacity writes refused
    rw [(follows_act soundNow writes).draft, RowMachine.step, refused]
    exact back
  · intro value refusal refused
    have added := soundNow.added value
    generalize machine.step schema limits (.addRow value) = next at added
    generalize (machine.draft schema limits).addRow value = outcome at added refused ⊢
    cases added with
    | full full _ => rw [← back, RowMachine.discard, ← soundNow.valid.idleWhenFull full]
    | saved _ _ _ => cases refused
    | rejected _ => exact back
    | short _ _ => exact back
  · intro action refusal single refused other
    exact act_refused single refused other

/-- A commit that stops in the middle: the first column has room for a second value, the second
column has not. -/
theorem discard_restores_savePoint_midCommit :
    let schema : Schema := .cons "id" (.scalar .integer) (.cons "total" (.scalar .long) .nil)
    let origin := ((ofSchema schema ⟨4, 8⟩).act .save).1
    let draft := (origin.act (.edit [.column (.position 0)] (.set (.int 3)))).1
    SavePoint schema ⟨4, 8⟩ origin ∧ InProgress origin draft ∧
      (draft.act .save).2.result = .error (.overflow (.buffer "total" 16 8)) ∧
      (draft.act .save).1 = origin ∧ draft ≠ origin := by
  intro schema origin draft
  have point : SavePoint schema ⟨4, 8⟩ origin := .saved .begun .start rfl rfl
  have progress : InProgress origin draft :=
    .write .start rfl fun saves => by cases saves
  have refused : (draft.act .save).2.result = .error (.overflow (.buffer "total" 16 8)) :=
    rfl
  obtain ⟨_, _, back, _⟩ := discard_restores_savePoint point progress
  exact ⟨point, progress, refused, back .save "total" 16 8 rfl refused, by decide +kernel⟩

end Draft

end Columnar
