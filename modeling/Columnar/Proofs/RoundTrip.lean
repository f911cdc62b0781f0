import Columnar.Proofs.Reader.Scan

/-!
# Rows come back

Rows that are added one after the other, among them any that are refused, are read back as they were
accepted: each once, in order, and in the form in which the columns keep them.
-/

namespace Columnar

namespace Draft

variable {schema : Schema} {limits : Limits} {machine : RowMachine}

/-- The rows among the given ones that were added, in the form in which they are kept. -/
def addedRows (schema : Schema) (values : List Value) (results : List (Except Refusal Unit)) :
    List Value :=
  ((values.zip results).filter fun step => step.2.isOk).map fun step =>
    (ColumnType.tuple schema).normalize step.1

private theorem addedRows_cons (schema : Schema) (value : Value) (rest : List Value)
    (result : Except Refusal Unit) (results : List (Except Refusal Unit)) :
    addedRows schema (value :: rest) (result :: results) =
      addedRows schema [value] [result] ++ addedRows schema rest results := by
  cases result <;> rfl

/-- Adding a row with nothing in progress saves it in its kept form if it is accepted, and leaves
nothing in progress either way. -/
private theorem step_addRow_idle (sound : Sound schema limits machine)
    (idle : machine.current = .ofType (.tuple schema)) (value : Value) :
    machine.step schema limits (.addRow value) =
      ⟨machine.rows ++
          addedRows schema [value] [((machine.draft schema limits).addRow value).2.result],
        .ofType (.tuple schema)⟩ := by
  have added := sound.added value
  have dropped : ∀ refusal, machine.rows ++ addedRows schema [value] [.error refusal] =
      machine.rows := fun _ => List.append_nil _
  generalize machine.step schema limits (.addRow value) = next at added ⊢
  generalize (machine.draft schema limits).addRow value = outcome at added ⊢
  cases added with
  | full _ _ => rw [dropped, ← idle]
  | @saved pending _ _ accepted _ =>
    have accepts := Pending.accepts_of_put value (.tuple schema) machine.current
      (by rw [accepted])
    have normal := (Pending.put_of_accepts value (.tuple schema) accepts).2
    rw [← idle, accepted] at normal
    have closes : pending.close (.tuple schema) = (ColumnType.tuple schema).normalize value :=
      normal
    rw [RowMachine.closeRow, closes]
    rfl
  | rejected _ =>
    rw [dropped]
    rfl
  | short _ _ =>
    rw [dropped]
    rfl

/-- Adding rows one after the other saves those that are accepted. -/
private theorem replay_addRows (values : List Value) (sound : Sound schema limits machine)
    (idle : machine.current = .ofType (.tuple schema)) :
    let results := (machine.draft schema limits).results (values.map .addRow)
    (machine.replay schema limits.rows ((values.map Action.addRow).zip results)).rows =
      machine.rows ++ addedRows schema values results := by
  induction values generalizing machine with
  | nil => exact (List.append_nil machine.rows).symm
  | cons value rest inductionHypothesis =>
    have writes : (Action.addRow value).isWrite = true := rfl
    have step := step_addRow_idle sound idle value
    have later := inductionHypothesis (sound.step writes) (congrArg RowMachine.current step)
    rw [← (follows_act sound writes).draft] at later
    have rows := later.trans (congrArg (RowMachine.rows · ++ _) step)
    rw [List.append_assoc, ← addedRows_cons] at rows
    exact rows

end Draft

/-- The rows that a fresh draft accepts one after the other are just those that a reader finds in
the finished batch, each in its kept form: the walk over all rows gives them in order, they are as
many as are counted everywhere, and a jump to a row leads to the one of that number. -/
theorem addRow_round_trip {schema : Schema} (checked : schema.checkAll = .ok ()) (limits : Limits)
    (values : List Value) :
    let begun := Draft.ofSchema schema limits
    let ended := begun.run (values.map .addRow)
    let added := Draft.addedRows schema values (begun.results (values.map .addRow))
    ∃ batch reader,
      ended.finish.2.result = .ok batch ∧
      (SealedSet.mk schema (some batch)).reader = .ok reader ∧
      reader.remaining.2 = .ok added ∧
      ended.row = added.length ∧ (SealedSet.mk schema (some batch)).rowCount = added.length ∧
      reader.rowCount = added.length ∧
      ∀ index row, added[index]? = some row →
        ∃ moved, reader.setRow index = .ok moved ∧ moved.row = .ok row := by
  intro begun ended added
  have writes : ∀ action ∈ values.map Draft.Action.addRow, action.isWrite = true := by
    intro action member
    obtain ⟨value, _, rfl⟩ := List.mem_map.mp member
    rfl
  obtain ⟨follows, sound⟩ := Draft.run_ofSchema schema limits writes
  have rows : (RowMachine.ofRun schema limits (values.map .addRow)).rows = added := by
    have replayed := Draft.replay_addRows values (Draft.sound_start schema limits) rfl
    rw [← Draft.ofSchema_eq_draft] at replayed
    exact replayed
  have finished := Draft.finish_draft (Schema.solid_of_checkAll checked) limits
    (RowMachine.ofRun schema limits (values.map .addRow))
  have admitted := sound.valid.rowsAdmitted
  rw [← follows] at finished
  rw [rows] at finished admitted
  refine ⟨_, _, finished, SealedSet.reader_ofRows schema added,
    Reader.remaining_onRows admitted, ?_, rfl, rfl, ?_⟩
  · rw [← rows]
    exact congrArg Draft.row follows
  · intro index row found
    exact Reader.setRow_onRows admitted .beforeFirst found

/-- Rows of which the second is of a wrong type in its last column and the fourth is one too
many. -/
theorem addRow_round_trip_refusals :
    let schema : Schema :=
      .cons "id" (.scalar .long) (.cons "tags" (.array (.scalar .string))
        (.cons "point" (.tuple (.cons "x" (.scalar .double) (.cons "on" (.scalar .boolean) .nil)))
          .nil))
    let values : List Value :=
      [.tuple [.scalar (.int (-7))],
        .tuple [.scalar (.long 1), .array [.scalar (.string "a")], .array []],
        .tuple [.scalar (.long 2), .array [.scalar (.string "b"), .scalar (.string "")],
          .tuple [.scalar (.double ⟨0x7ff8000000000001⟩)]],
        .tuple []]
    let added : List Value :=
      [.tuple [.scalar (.long (-7)), .array [],
          .tuple [.scalar (.double .zero), .scalar (.bool false)]],
        .tuple [.scalar (.long 2), .array [.scalar (.string "b"), .scalar (.string "")],
          .tuple [.scalar (.double ⟨0x7ff8000000000001⟩), .scalar (.bool false)]]]
    schema.checkAll = .ok () ∧
      ∃ batch reader,
        ((Draft.ofSchema schema ⟨2, 64⟩).run (values.map .addRow)).finish.2.result = .ok batch ∧
        (SealedSet.mk schema (some batch)).reader = .ok reader ∧
        reader.remaining.2 = .ok added ∧
        ∃ moved, reader.setRow 1 = .ok moved ∧ moved.row = .ok added[1] := by
  intro schema values added
  have checked : schema.checkAll = .ok () := rfl
  have saved : Draft.addedRows schema values
      ((Draft.ofSchema schema ⟨2, 64⟩).results (values.map .addRow)) = added := by decide +kernel
  obtain ⟨batch, reader, finished, read, walked, _, _, _, jumps⟩ :=
    addRow_round_trip checked ⟨2, 64⟩ values
  rw [saved] at walked jumps
  exact ⟨checked, batch, reader, finished, read, walked, jumps 1 _ rfl⟩

end Columnar
