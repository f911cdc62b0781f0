import Columnar.Proofs.Draft.Lifetime
import Columnar.Proofs.Draft.Locality
import Columnar.Proofs.Reader.Scan

/-!
# Phases

A draft is written, and then it is sealed or released, once and for all. Whatever is done to it
afterwards is refused with the phase as the reason, and while it is still written but full, with the
row limit. So a run seals one batch at most, and that batch has the rows saved before.
-/

namespace Columnar

/-- The phase that an operation leads to: sealing and giving up end the writing, and nothing else
changes the phase. -/
def Phase.next : Phase → Draft.Action → Phase
  | .writing, .finish => .sealed
  | .writing, .release => .released
  | phase, _ => phase

namespace Draft

variable {schema : Schema} {limits : Limits} {draft : Draft}

/-! ### From phase to phase -/

/-- A draft that is over stays as it is. -/
theorem run_ended (ended : draft.phase ≠ .writing) (actions : List Action) :
    draft.run actions = draft := by
  induction actions with
  | nil => rfl
  | cons action rest inductionHypothesis =>
    change (draft.act action).1.run rest = draft
    rw [act_ended ended]
    exact inductionHypothesis

/-- A draft that was sealed is over. -/
theorem finish_ended (draft : Draft) : draft.finish.1.phase ≠ .writing := by
  obtain ⟨limits, schema, phase, row, columns⟩ := draft
  cases phase with
  | writing =>
    simp only [finish]
    split
    · rintro ⟨⟩
    · rintro ⟨⟩
  | «sealed» => rintro ⟨⟩
  | released => rintro ⟨⟩

/-- A draft that was given up is over. -/
theorem release_ended (draft : Draft) : draft.release.1.phase ≠ .writing := by
  obtain ⟨limits, schema, phase, row, columns⟩ := draft
  cases phase <;> rintro ⟨⟩

/-- Every operation on a draft that is written afterwards is a write. -/
private theorem isWrite_of_act {action : Action}
    (writing : (draft.act action).1.phase = .writing) : action.isWrite = true := by
  cases action with
  | edit _ _ => rfl
  | save => rfl
  | addRow _ => rfl
  | finish => exact absurd writing (finish_ended draft)
  | release => exact absurd writing (release_ended draft)

/-- A draft that is still written has only been written. -/
theorem isWrite_of_run {actions : List Action} (writing : (draft.run actions).phase = .writing) :
    ∀ action ∈ actions, action.isWrite = true := by
  induction actions generalizing draft with
  | nil => exact fun _ member => nomatch member
  | cons action rest inductionHypothesis =>
    have later : ((draft.act action).1.run rest).phase = .writing := writing
    by_cases still : (draft.act action).1.phase = .writing
    · intro other member
      rcases List.mem_cons.mp member with rfl | member
      · exact isWrite_of_act still
      · exact inductionHypothesis later other member
    · rw [run_ended still] at later
      exact absurd later still

/-- Sealing succeeds only while a draft is written. -/
theorem phase_of_finish {batch : Batch} (finished : draft.finish.2.result = .ok batch) :
    draft.phase = .writing ∧ draft.finish.1.phase = .sealed := by
  obtain ⟨limits, schema, phase, row, columns⟩ := draft
  cases phase with
  | writing =>
    refine ⟨rfl, ?_⟩
    simp only [finish] at finished ⊢
    split at finished
    · rfl
    · cases finished
  | «sealed» => cases finished
  | released => cases finished

private theorem next_ended {phase : Phase} (ended : phase ≠ .writing) (action : Action) :
    phase.next action = phase := by
  cases phase with
  | writing => exact absurd rfl ended
  | «sealed» => rfl
  | released => rfl

/-- What each operation does to the phase of a draft that can be reached. -/
theorem Reached.phase_act (reached : Reached schema limits draft) (solid : schema.Solid)
    (action : Action) : (draft.act action).1.phase = draft.phase.next action := by
  cases reached with
  | ended _ ended _ => rw [act_ended ended, next_ended ended]
  | @written machine sound _ =>
    have written : action.isWrite = true →
        ((machine.draft schema limits).act action).1.phase = .writing := by
      intro writes
      rw [(follows_act sound writes).draft]
      rfl
    cases action with
    | edit _ _ => exact written rfl
    | save => exact written rfl
    | addRow _ => exact written rfl
    | finish => exact (phase_of_finish (finish_draft solid limits machine)).2
    | release => rfl

/-! ### The batches of a run -/

/-- The batch that an operation seals, if it seals one. -/
def sealedBy (draft : Draft) : Action → List Batch
  | .finish => draft.finish.2.result.toOption.toList
  | _ => []

/-- The batches that a sequence of operations seals, in order. -/
def batches (draft : Draft) : List Action → List Batch
  | [] => []
  | action :: rest => draft.sealedBy action ++ (draft.act action).1.batches rest

/-- The batches of a sequence of operations are sealed part by part. -/
theorem batches_append (draft : Draft) (first second : List Action) :
    draft.batches (first ++ second) = draft.batches first ++ (draft.run first).batches second := by
  induction first generalizing draft with
  | nil => rfl
  | cons action rest inductionHypothesis =>
    rw [List.cons_append, batches, inductionHypothesis, batches, List.append_assoc]
    rfl

private theorem sealedBy_of_isWrite {action : Action} (writes : action.isWrite = true) :
    draft.sealedBy action = [] := by
  cases action with
  | edit _ _ => rfl
  | save => rfl
  | addRow _ => rfl
  | finish => cases writes
  | release => cases writes

/-- Writes seal nothing. -/
theorem batches_of_isWrite {actions : List Action}
    (writes : ∀ action ∈ actions, action.isWrite = true) : draft.batches actions = [] := by
  induction actions generalizing draft with
  | nil => rfl
  | cons action rest inductionHypothesis =>
    have later : (draft.act action).1.batches rest = [] :=
      inductionHypothesis fun other member => writes other (List.mem_cons_of_mem action member)
    rw [batches, sealedBy_of_isWrite (writes action List.mem_cons_self), later, List.append_nil]

/-- A draft that is over seals nothing more. -/
theorem batches_ended (ended : draft.phase ≠ .writing) (actions : List Action) :
    draft.batches actions = [] := by
  have nothing : ∀ action, draft.sealedBy action = [] := by
    intro action
    cases action with
    | finish =>
      cases result : draft.finish.2.result with
      | ok batch => exact absurd (phase_of_finish result).1 ended
      | error _ => rw [sealedBy, result]; rfl
    | _ => rfl
  induction actions with
  | nil => rfl
  | cons action rest inductionHypothesis =>
    rw [batches, nothing, act_ended ended, inductionHypothesis, List.append_nil]

/-- No run seals two batches. -/
theorem length_batches_le_one (draft : Draft) (actions : List Action) :
    (draft.batches actions).length ≤ 1 := by
  induction actions generalizing draft with
  | nil => exact Nat.zero_le _
  | cons action rest inductionHypothesis =>
    by_cases still : (draft.act action).1.phase = .writing
    · rw [batches, sealedBy_of_isWrite (isWrite_of_act still), List.nil_append]
      exact inductionHypothesis _
    · rw [batches, batches_ended still, List.append_nil]
      cases action with
      | finish => cases result : draft.finish.2.result <;> simp [sealedBy, result, Except.toOption]
      | _ => exact Nat.zero_le _

/-! ### Refusals -/

/-- Why nothing can be written into a draft, if so: the phase counts before the row limit. -/
inductive Closed (draft : Draft) : Refusal → Prop where
  | sealed (ended : draft.phase = .sealed) : Closed draft (.misuse .sealed)
  | released (ended : draft.phase = .released) : Closed draft (.misuse .released)
  | full (writing : draft.phase = .writing) (full : draft.row = draft.limits.rows) :
      Closed draft (.overflow (.rowLimit draft.limits.rows))

/-- Whether every write into a draft is refused without a trace: a scalar of any type, the end of
an element and the end of the row for the given reason, and a whole row for some reason. No
operation at all changes the number of rows. -/
structure Refuses (draft : Draft) (refusal : Refusal) : Prop where
  set : ∀ steps path values value, draft.find steps = .ok (.scalar path values) →
    (draft.edit steps (.set value)).2.result = .error refusal
  saveElement : ∀ steps path slots elements entry,
    draft.find steps = .ok (.array path slots elements entry) →
    (draft.edit steps .saveElement).2.result = .error refusal
  save : draft.save.2.result = .error refusal
  addRow : ∀ value, ∃ cause, (draft.addRow value).2.result = .error cause
  unchanged : ∀ action, action.isWrite = true → (draft.act action).1 = draft
  row : ∀ action, (draft.act action).1.row = draft.row

theorem Closed.gate? {refusal : Refusal} (closed : draft.Closed refusal) :
    draft.gate? = some refusal := by
  cases closed with
  | «sealed» ended => rw [Draft.gate?, ended]
  | released ended => rw [Draft.gate?, ended]
  | full writing full => simp [Draft.gate?, writing, full]

/-- A draft that takes no writes has nothing in progress that could be dropped. -/
theorem Reached.discard_closed {refusal : Refusal} (reached : Reached schema limits draft)
    (closed : draft.Closed refusal) : draft.discard.1 = draft := by
  cases reached with
  | ended _ ended _ => exact discard_ended ended
  | @written machine sound _ =>
    have full : limits.rows ≤ machine.rows.length := by
      cases closed with
      | «sealed» ended => cases ended
      | released ended => cases ended
      | full _ full => exact Nat.le_of_eq full.symm
    exact discard_idle schema limits (sound.valid.idleWhenFull full)

/-- Behind a closed gate an edit answers as the column at the end of its path does. -/
theorem exists_result_of_find {refusal : Refusal} (closed : draft.gate? = some refusal)
    {steps : List Step} {target : Node} (found : draft.find steps = .ok target)
    (change : Columnar.Edit) :
    ∃ slot, (draft.edit steps change).2.result =
      answer (target.editHere (some refusal) change slot).2 := by
  obtain ⟨address, slot, leads⟩ := Node.leads_of_find draft.row found
  refine ⟨slot, ?_⟩
  rw [result_edit, closed, (leads.edit (some refusal) change).1]

/-- What a scalar and the end of an element meet at the end of their paths. -/
private theorem result_of_find {refusal : Refusal} (closed : draft.gate? = some refusal)
    {steps : List Step} {target : Node} (found : draft.find steps = .ok target)
    {change : Columnar.Edit}
    (refused : ∀ slot, (target.editHere (some refusal) change slot).2 = some refusal) :
    (draft.edit steps change).2.result = .error refusal := by
  obtain ⟨slot, result⟩ := exists_result_of_find closed found change
  rw [result, refused]
  rfl

/-- A draft that takes no writes refuses them. -/
theorem Reached.refuses {refusal : Refusal} (reached : Reached schema limits draft)
    (closed : draft.Closed refusal) : draft.Refuses refusal := by
  have gate := closed.gate?
  have added := addRow_closed gate (reached.discard_closed closed)
  have unchanged : ∀ action, action.isWrite = true → (draft.act action).1 = draft := by
    intro action writes
    cases action with
    | edit steps change =>
      obtain ⟨outcome, same, _⟩ := edit_closed gate steps change
      rw [Draft.act, same]
    | save => rw [Draft.act, save_closed gate]
    | addRow value =>
      obtain ⟨cause, events, same, _⟩ := added value
      rw [Draft.act, same]
    | finish => cases writes
    | release => cases writes
  refine ⟨?_, ?_, ?_, ?_, unchanged, ?_⟩
  · intro steps path values value found
    exact result_of_find gate found fun _ => rfl
  · intro steps path slots elements entry found
    exact result_of_find gate found fun _ => rfl
  · rw [save_closed gate]
    rfl
  · intro value
    obtain ⟨cause, events, same, _⟩ := added value
    exact ⟨cause, by rw [same]⟩
  · intro action
    cases action with
    | finish => exact (counts_act draft .finish).row
    | release => exact (counts_act draft .release).row
    | _ => exact congrArg Draft.row (unchanged _ rfl)

/-! ### Runs -/

/-- A draft of a checked schema that is still written can be sealed, with the rows that its machine
has saved. They are in the form in which the columns keep them. -/
theorem finish_of_writing {schema : Schema} (checked : schema.checkAll = .ok ()) (limits : Limits)
    {actions : List Action}
    (writing : ((ofSchema schema limits).run actions).phase = .writing) :
    let rows := (RowMachine.ofRun schema limits actions).rows
    ((ofSchema schema limits).run actions).finish.2.result = .ok (.ofRows schema rows) ∧
      ∀ row ∈ rows, (ColumnType.tuple schema).Admits row := by
  obtain ⟨follows, sound⟩ := run_ofSchema schema limits (isWrite_of_run writing)
  refine ⟨?_, sound.valid.rowsAdmitted⟩
  rw [follows]
  exact finish_draft (Schema.solid_of_checkAll checked) limits _

/-- The batch that a run of a checked schema seals has the rows that its machine has saved. -/
theorem ofRows_of_finish {schema : Schema} (checked : schema.checkAll = .ok ()) (limits : Limits)
    {actions : List Action} {batch : Batch}
    (finished : ((ofSchema schema limits).run actions).finish.2.result = .ok batch) :
    let rows := (RowMachine.ofRun schema limits actions).rows
    batch = .ofRows schema rows ∧ ∀ row ∈ rows, (ColumnType.tuple schema).Admits row := by
  obtain ⟨result, admitted⟩ := finish_of_writing checked limits (phase_of_finish finished).1
  rw [result] at finished
  exact ⟨(Except.ok.inj finished).symm, admitted⟩

/-- The life of a draft of a checked schema, after any operations. Sealing and giving up are the
only operations that change the phase, and only of a draft that is still written. Sealing such a
draft succeeds, and whatever is done later, its batch is the only one of the whole run, with the
rows saved before. A draft that is over stays as it is. As long as there is a reason why nothing
can be written, every write is refused. -/
theorem lifecycle_of_run {schema : Schema} (checked : schema.checkAll = .ok ()) (limits : Limits)
    (actions : List Action) :
    let begun := ofSchema schema limits
    let draft := begun.run actions
    (∀ action, (draft.act action).1.phase = draft.phase.next action) ∧
      (draft.phase = .writing → ∃ batch reader, draft.finish.2.result = .ok batch ∧
        (∀ more, begun.batches (actions ++ .finish :: more) = [batch]) ∧
        (SealedSet.mk schema (some batch)).reader = .ok reader ∧
        reader.remaining.2 = .ok (RowMachine.ofRun schema limits actions).rows) ∧
      (begun.batches actions).length ≤ 1 ∧
      (draft.phase = .sealed → draft.finish = (draft, .refuse (.misuse .alreadyDone))) ∧
      (draft.phase = .released → draft.finish = (draft, .refuse (.misuse .released))) ∧
      (draft.phase ≠ .writing → draft.release = (draft, []) ∧ ∀ more, draft.run more = draft) ∧
      ∀ refusal, draft.Closed refusal → draft.Refuses refusal := by
  intro begun draft
  have solid := Schema.solid_of_checkAll checked
  have reached : Reached schema limits draft := reached_run schema limits actions
  refine ⟨reached.phase_act solid, ?_, length_batches_le_one begun actions, ?_, ?_, ?_,
    fun refusal => reached.refuses⟩
  · intro writing
    obtain ⟨finished, admitted⟩ := finish_of_writing checked limits writing
    refine ⟨_, _, finished, ?_, SealedSet.reader_ofRows schema _,
      Reader.remaining_onRows admitted⟩
    intro more
    have ended : draft.finish.1.phase ≠ .writing := finish_ended draft
    have only : draft.sealedBy .finish = _ := congrArg (Option.toList ∘ Except.toOption) finished
    rw [batches_append, batches_of_isWrite (isWrite_of_run writing), List.nil_append, batches, only]
    exact congrArg ([_] ++ ·) (batches_ended ended more)
  · intro ended
    rw [finish, ended]
  · intro ended
    rw [finish, ended]
  · intro ended
    refine ⟨?_, run_ended ended⟩
    rw [release]
    split
    · exact absurd ‹_› ended
    · rfl

/-- A draft for one row, full and then sealed: a value of a wrong type meets the row limit and then
the phase, and the batch keeps the row. -/
theorem lifecycle_of_run_full :
    let schema : Schema :=
      .cons "id" (.scalar .long) (.cons "tags" (.array (.scalar .string)) .nil)
    let id : List Step := [.column (.name "id")]
    let tags : List Step := [.column (.position 1)]
    let begun := ofSchema schema ⟨1, 64⟩
    let actions : List Action :=
      [.edit (tags ++ [.entry]) (.set (.string "a")), .addRow (.tuple [.scalar (.int 7)]),
        .addRow (.tuple [])]
    let full := begun.run actions
    let finished := begun.run (actions ++ [.finish])
    schema.checkAll = .ok () ∧
      (full.edit id (.set (.bool true))).2.result = .error (.overflow (.rowLimit 1)) ∧
      (finished.edit id (.set (.bool true))).2.result = .error (.misuse .sealed) ∧
      (finished.edit tags .saveElement).2.result = .error (.misuse .sealed) ∧
      finished.finish = (finished, .refuse (.misuse .alreadyDone)) ∧
      ∃ batch reader, full.finish.2.result = .ok batch ∧
        (∀ more, begun.batches (actions ++ .finish :: more) = [batch]) ∧
        (SealedSet.mk schema (some batch)).reader = .ok reader ∧
        reader.remaining.2 = .ok [.tuple [.scalar (.long 7), .array [.scalar (.string "a")]]] := by
  intro schema id tags begun actions full finished
  have checked : schema.checkAll = .ok () := rfl
  have writing : full.phase = .writing := by decide +kernel
  have saved : (RowMachine.ofRun schema ⟨1, 64⟩ actions).rows =
      [.tuple [.scalar (.long 7), .array [.scalar (.string "a")]]] := by decide +kernel
  obtain ⟨next, sealing, _, _, _, _, fullRefuses⟩ := lifecycle_of_run checked ⟨1, 64⟩ actions
  obtain ⟨_, _, _, again, _, _, finishedRefuses⟩ :=
    lifecycle_of_run checked ⟨1, 64⟩ (actions ++ [.finish])
  have ended : finished.phase = .sealed :=
    (next .finish).trans (congrArg (Phase.next · .finish) writing)
  have rowLimit := fullRefuses _ (.full writing (by decide +kernel))
  have sealedNow : finished.Refuses (.misuse .sealed) := finishedRefuses _ (.sealed ended)
  have emptied : finished = ⟨⟨1, 64⟩, schema, .sealed, 1,
      .cons "id" (.scalar "id" (.long ⟨64, #[]⟩))
        (.cons "tags" (.array "tags" ⟨64, #[0]⟩ 1
          (.scalar "tags" (.string (.empty 64)))) .nil)⟩ := by
    decide +kernel
  have read := sealing writing
  rw [saved] at read
  refine ⟨checked, ?_, ?_, ?_, again ended, read⟩
  · exact rowLimit.set id "id" _ (.bool true) rfl
  · exact sealedNow.set id "id" _ (.bool true) (by rw [emptied]; rfl)
  · exact sealedNow.saveElement tags "tags" _ _ _ (by rw [emptied]; rfl)

end Draft

end Columnar
