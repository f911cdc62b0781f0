import Columnar.Draft.Action
import Columnar.Proofs.Draft.Edit
import Columnar.Proofs.Draft.Gate

/-!
# Drafts follow the row machine

`RowMachine.draft` is the one draft whose saved rows and whose row in progress are those of a
machine. Every write leads from such a draft to the draft of the machine that did the same, where
the machine is told whether a buffer ran short. So do all writes one after the other.
-/

namespace Columnar

/-- The draft that holds the rows of a machine and its row in progress. -/
def RowMachine.draft (schema : Schema) (limits : Limits) (machine : RowMachine) : Draft :=
  ⟨limits, schema, .writing, machine.rows.length,
    .holding limits.bufferBytes "" schema (machine.rows.map Value.items) machine.current.columns⟩

/-- Whether every buffer has room for what a machine holds. -/
def RowMachine.HasRoom (schema : Schema) (limits : Limits) (machine : RowMachine) : Prop :=
  (ColumnType.tuple schema).Room limits.bufferBytes machine.rows machine.current

/-- The machine after an operation for which the draft that holds its rows gave the answer. -/
def RowMachine.step (schema : Schema) (limits : Limits) (machine : RowMachine)
    (action : Draft.Action) : RowMachine :=
  machine.act schema limits.rows action
    (ranShort ((machine.draft schema limits).act action).2.result)

namespace Draft

variable {schema : Schema} {limits : Limits} {rows : List Value} {machine : RowMachine}

theorem ofSchema_eq_draft (schema : Schema) (limits : Limits) :
    ofSchema schema limits = (RowMachine.start schema).draft schema limits := by
  rw [ofSchema, Nodes.ofSchema_eq_saved]
  rfl

/-! ### Dropping the row in progress -/

private theorem keeps_columns {capacity : Nat} {path : String} {values : List Value} {node : Node}
    (keeps : node.Keeps capacity path (.tuple schema) values) :
    node.columns.Keeps capacity path schema (values.map Value.items) := by
  intro count within
  rw [List.length_map] at within
  have cut := keeps count within
  rw [Node.saved_tuple] at cut
  cases node with
  | scalar _ _ => cases cut
  | array _ _ _ _ => cases cut
  | tuple _ _ columns =>
    injection cut with _ _ cutColumns
    rw [Node.columns, cutColumns, List.map_take]

private theorem discardRow_of_keeps {columns : Nodes}
    (keeps : columns.Keeps limits.bufferBytes "" schema (rows.map Value.items)) :
    discardRow ⟨limits, schema, .writing, rows.length, columns⟩ =
      (RowMachine.mk rows (.ofType (.tuple schema))).draft schema limits := by
  have all : (rows.map Value.items).length = rows.length := List.length_map _
  have cut := keeps rows.length (Nat.le_of_eq all.symm)
  rw [List.take_of_length_le (Nat.le_of_eq all)] at cut
  rw [discardRow, cut]
  rfl

/-- Dropping the row in progress leaves the saved rows. -/
theorem discardRow_draft (schema : Schema) (limits : Limits) (machine : RowMachine) :
    (machine.draft schema limits).discardRow = (machine.discard schema).draft schema limits :=
  discardRow_of_keeps (Nodes.keeps_holding _ _ _ _ _)

private theorem settle_short {columns : Nodes} {shortage : Shortage} {column : String}
    (keeps : columns.Keeps limits.bufferBytes "" schema (rows.map Value.items)) :
    settle ⟨limits, schema, .writing, rows.length, columns⟩ (some (shortage.refusal column)) =
      ((RowMachine.mk rows (.ofType (.tuple schema))).draft schema limits,
        ⟨.error (shortage.refusal column),
          [.rowOverflowed rows.length column shortage.requested shortage.capacity]⟩) := by
  rw [Shortage.refusal, settle, discardRow_of_keeps keeps]

/-- Ending an operation that was refused for another reason than lack of room leaves the draft. -/
theorem settle_other {draft : Draft} {refusal : Refusal}
    (other : refusal.isShortage = false) :
    settle draft (some refusal) = (draft, .refuse refusal) := by
  cases refusal with
  | overflow overflow =>
    cases overflow with
    | rowLimit _ => rfl
    | buffer _ _ _ => cases other
  | _ => rfl

/-! ### The gate -/

private theorem gate_open (fewer : machine.rows.length < limits.rows) :
    (machine.draft schema limits).gate? = none :=
  if_neg (Nat.not_le_of_lt fewer)

theorem gate_closed (full : limits.rows ≤ machine.rows.length) :
    (machine.draft schema limits).gate? = some (.overflow (.rowLimit limits.rows)) :=
  if_pos full

/-! ### Edits -/

/-- What an edit leads to while there may be more rows. The answer is that of the row machine. -/
inductive Edited (schema : Schema) (limits : Limits) (rows : List Value) (whole : Prop) :
    Pending × Bool → Draft × Outcome Unit → Prop where
  | accepted {pending : Pending} (room : RowMachine.HasRoom schema limits ⟨rows, pending⟩) :
      Edited schema limits rows whole (pending, true)
        ((RowMachine.mk rows pending).draft schema limits, .accept ())
  | rejected {pending : Pending} {cause : Mismatch}
      (room : RowMachine.HasRoom schema limits ⟨rows, pending⟩) :
      Edited schema limits rows whole (pending, false)
        ((RowMachine.mk rows pending).draft schema limits, .refuse (.mismatch cause))
  | short {answer : Pending × Bool} {shortage : Shortage} {column : String} {events : List Event}
      (genuine : shortage.Genuine limits.bufferBytes)
      (overfull : ¬RowMachine.HasRoom schema limits ⟨rows, answer.1⟩)
      (unfit : whole → answer.2 = true → ¬(ColumnType.tuple schema).Fits limits.bufferBytes
        (rows ++ [answer.1.close (.tuple schema)])) :
      Edited schema limits rows whole answer
        ((RowMachine.mk rows (.ofType (.tuple schema))).draft schema limits,
          ⟨.error (shortage.refusal column), events⟩)

private theorem edited_of_edits {whole : Prop} {answer : Pending × Bool}
    {outcome : Node × Option Refusal}
    (edits : Node.Edits limits.bufferBytes "" (.tuple schema) rows whole answer outcome) :
    Edited schema limits rows whole answer
      (settle ⟨limits, schema, .writing, rows.length, outcome.1.columns⟩ outcome.2) := by
  cases edits with
  | accepted room => exact .accepted room
  | rejected room => exact .rejected room
  | short genuine overfull unfit keeps =>
    rw [settle_short (keeps_columns keeps)]
    exact .short genuine overfull unfit

/-- An edit changes the row in progress, unless there is no room. -/
theorem edited_edit (fewer : machine.rows.length < limits.rows)
    (room : machine.HasRoom schema limits) (steps : List Step) (change : Columnar.Edit) :
    Edited schema limits machine.rows False
      (machine.current.edit change steps (.tuple schema))
      ((machine.draft schema limits).edit steps change) := by
  have edits := Node.edits_edit change steps "" (.tuple schema) machine.rows machine.current room
  have done := edited_of_edits edits
  rw [edit, gate_open fewer]
  exact done

/-- Writing a whole row changes the row in progress, unless it does not fit. -/
private theorem edited_put (fewer : machine.rows.length < limits.rows)
    (room : machine.HasRoom schema limits) (value : Value) :
    Edited schema limits machine.rows True (Pending.put value (.tuple schema) machine.current)
      ((machine.draft schema limits).edit [] (.put value)) := by
  have edits : Node.Edits limits.bufferBytes "" (.tuple schema) machine.rows True _ _ :=
    Node.edits_put value "" (.tuple schema) machine.rows machine.current room
  have done := edited_of_edits edits
  rw [edit, gate_open fewer]
  exact done

/-! ### Saving the row in progress -/

private theorem step_of_act {action : Action} {outcome : Draft × Outcome Unit} {short : Bool}
    (answered : (machine.draft schema limits).act action = outcome)
    (told : ranShort outcome.2.result = short) :
    machine.step schema limits action = machine.act schema limits.rows action short := by
  rw [RowMachine.step, answered, told]

/-- What saving the row in progress leads to. -/
inductive Saved (schema : Schema) (limits : Limits) (machine : RowMachine) :
    RowMachine → Draft × Outcome Unit → Prop where
  | full (full : limits.rows ≤ machine.rows.length) :
      Saved schema limits machine machine
        (machine.draft schema limits, .refuse (.overflow (.rowLimit limits.rows)))
  | closed (room : (machine.closeRow schema).HasRoom schema limits) :
      Saved schema limits machine (machine.closeRow schema)
        ((machine.closeRow schema).draft schema limits, .accept ())
  | short {shortage : Shortage} {column : String} {events : List Event}
      (genuine : shortage.Genuine limits.bufferBytes)
      (unfit : ¬(ColumnType.tuple schema).Fits limits.bufferBytes (machine.closeRow schema).rows) :
      Saved schema limits machine (machine.discard schema)
        ((machine.discard schema).draft schema limits,
          ⟨.error (shortage.refusal column), events⟩)

private theorem saved_open (fewer : machine.rows.length < limits.rows)
    (room : machine.HasRoom schema limits) :
    Saved schema limits machine (machine.step schema limits .save)
      (machine.draft schema limits).save := by
  have commits := Nodes.commits_holding limits.bufferBytes "" schema
    (machine.rows.map Value.items) machine.current.columns room
  have items : (machine.closeRow schema).rows.map Value.items =
      machine.rows.map Value.items ++ [Pending.closeEach schema machine.current.columns] :=
    map_items_append schema machine.rows machine.current
  have counted : (machine.closeRow schema).rows.length = machine.rows.length + 1 :=
    List.length_append
  generalize saving : (machine.draft schema limits).save = outcome
  have answered : (machine.draft schema limits).act .save = outcome := saving
  rw [List.length_map] at commits
  rw [save, gate_open fewer] at saving
  simp only [RowMachine.draft] at saving
  generalize (Nodes.holding limits.bufferBytes "" schema (machine.rows.map Value.items)
    machine.current.columns).commit machine.rows.length = committed at commits saving
  cases commits with
  | closed roomAfter =>
    rw [← items] at roomAfter saving
    rw [← counted] at saving
    subst saving
    have step : machine.step schema limits .save = machine.closeRow schema :=
      (step_of_act answered rfl).trans (RowMachine.act_save fewer)
    rw [step]
    exact .closed roomAfter
  | short genuine unfit keeps =>
    rw [← items] at unfit
    simp only [settle_short keeps] at saving
    subst saving
    have step : machine.step schema limits .save = machine.discard schema :=
      step_of_act answered rfl
    rw [step]
    exact .short genuine unfit

/-- Saving the row in progress closes it, unless there is no room or no row left. -/
theorem saved_save (room : machine.HasRoom schema limits) :
    Saved schema limits machine (machine.step schema limits .save)
      (machine.draft schema limits).save := by
  by_cases fewer : machine.rows.length < limits.rows
  · exact saved_open fewer room
  · have full := Nat.le_of_not_lt fewer
    have answered : (machine.draft schema limits).act .save = _ := save_closed (gate_closed full)
    have step : machine.step schema limits .save = machine :=
      (step_of_act answered rfl).trans (RowMachine.act_full full .save)
    rw [step, save_closed (gate_closed full)]
    exact .full full

/-! ### Adding a row -/

/-- What adding a whole row leads to. -/
inductive Added (schema : Schema) (limits : Limits) (machine : RowMachine) (value : Value) :
    RowMachine → Draft × Outcome Unit → Prop where
  | full {refusal : Refusal} {events : List Event} (full : limits.rows ≤ machine.rows.length)
      (other : refusal.isShortage = false) :
      Added schema limits machine value machine
        (machine.draft schema limits, ⟨.error refusal, events⟩)
  | saved {pending : Pending} {events : List Event} (fewer : machine.rows.length < limits.rows)
      (accepted : Pending.put value (.tuple schema) machine.current = (pending, true))
      (room : (RowMachine.closeRow schema ⟨machine.rows, pending⟩).HasRoom schema limits) :
      Added schema limits machine value (RowMachine.closeRow schema ⟨machine.rows, pending⟩)
        ((RowMachine.closeRow schema ⟨machine.rows, pending⟩).draft schema limits,
          ⟨.ok (), events⟩)
  | rejected {pending : Pending} {cause : Mismatch} {events : List Event}
      (refused : Pending.put value (.tuple schema) machine.current = (pending, false))
      (room : RowMachine.HasRoom schema limits ⟨machine.rows, pending⟩) :
      Added schema limits machine value (machine.discard schema)
        ((machine.discard schema).draft schema limits, ⟨.error (.mismatch cause), events⟩)
  | short {pending : Pending} {accepted : Bool} {shortage : Shortage} {column : String}
      {events : List Event} (fewer : machine.rows.length < limits.rows)
      (genuine : shortage.Genuine limits.bufferBytes)
      (put : Pending.put value (.tuple schema) machine.current = (pending, accepted))
      (overfull : accepted = false → ¬RowMachine.HasRoom schema limits ⟨machine.rows, pending⟩)
      (unfit : accepted = true → ¬(ColumnType.tuple schema).Fits limits.bufferBytes
        (machine.rows ++ [pending.close (.tuple schema)])) :
      Added schema limits machine value (machine.discard schema)
        ((machine.discard schema).draft schema limits,
          ⟨.error (shortage.refusal column), events⟩)

private theorem addRow_of_refused {draft next : Draft} {value : Value} {refusal : Refusal}
    {events : List Event}
    (refused : draft.edit [] (.put value) = (next, ⟨.error refusal, events⟩)) :
    draft.addRow value = (next.discard.1, ⟨.error refusal, events ++ next.discard.2⟩) := by
  rw [addRow, refused]

private theorem addRow_of_accepted {draft next : Draft} {value : Value} {events : List Event}
    (accepted : draft.edit [] (.put value) = (next, ⟨.ok (), events⟩)) :
    draft.addRow value = (next.save.1, ⟨next.save.2.result, events ++ next.save.2.events⟩) := by
  rw [addRow, accepted]

private theorem discard_draft (schema : Schema) (limits : Limits) (machine : RowMachine) :
    (machine.draft schema limits).discard.1 = (machine.discard schema).draft schema limits :=
  discardRow_draft schema limits machine

/-- Dropping the row in progress of a draft that has none changes nothing. -/
theorem discard_idle (schema : Schema) (limits : Limits)
    (idle : machine.current = .ofType (.tuple schema)) :
    (machine.draft schema limits).discard.1 = machine.draft schema limits := by
  rw [discard_draft, RowMachine.discard, ← idle]

/-- What follows a whole row that was written. -/
private theorem added_of_accepted {value : Value} {pending : Pending}
    (fewer : machine.rows.length < limits.rows)
    (put : Pending.put value (.tuple schema) machine.current = (pending, true))
    (room : RowMachine.HasRoom schema limits ⟨machine.rows, pending⟩)
    (written : (machine.draft schema limits).edit [] (.put value) =
      (RowMachine.draft schema limits ⟨machine.rows, pending⟩, .accept ())) :
    Added schema limits machine value (machine.step schema limits (.addRow value))
      ((machine.draft schema limits).addRow value) := by
  have saved : Saved schema limits ⟨machine.rows, pending⟩ _ _ := saved_save room
  have added := addRow_of_accepted written
  have answered : (machine.draft schema limits).act (.addRow value) = _ := added
  generalize (RowMachine.draft schema limits ⟨machine.rows, pending⟩).save = saving
    at saved added answered
  generalize RowMachine.step schema limits ⟨machine.rows, pending⟩ .save = next at saved
  cases saved with
  | full full =>
    -- No row was saved since the gate was open for the write.
    exact absurd full (Nat.not_le_of_lt fewer)
  | closed roomAfter =>
    have step : machine.step schema limits (.addRow value) = _ :=
      (step_of_act answered rfl).trans (RowMachine.act_addRow fewer put)
    rw [step, added]
    exact .saved fewer put roomAfter
  | short genuine unfit =>
    have step : machine.step schema limits (.addRow value) = machine.discard schema :=
      step_of_act answered rfl
    rw [step, added]
    exact .short fewer genuine put (fun refused => nomatch refused) fun _ => unfit

private theorem added_open (fewer : machine.rows.length < limits.rows)
    (room : machine.HasRoom schema limits) (value : Value) :
    Added schema limits machine value (machine.step schema limits (.addRow value))
      ((machine.draft schema limits).addRow value) := by
  have edited := edited_put fewer room value
  generalize written : (machine.draft schema limits).edit [] (.put value) = outcome at edited
  generalize put : Pending.put value (.tuple schema) machine.current = answer at edited
  cases edited with
  | accepted roomWritten => exact added_of_accepted fewer put roomWritten written
  | rejected roomWritten =>
    have added := addRow_of_refused written
    have answered : (machine.draft schema limits).act (.addRow value) = _ := added
    have step : machine.step schema limits (.addRow value) = machine.discard schema :=
      (step_of_act answered rfl).trans
        (RowMachine.act_addRow_rejected fewer (congrArg Prod.snd put))
    rw [step, added, discard_draft]
    exact .rejected put roomWritten
  | short genuine overfull unfit =>
    have added := addRow_of_refused written
    have answered : (machine.draft schema limits).act (.addRow value) = _ := added
    have step : machine.step schema limits (.addRow value) = machine.discard schema :=
      step_of_act answered rfl
    rw [step, added, discard_draft]
    exact .short fewer genuine put (fun _ => overfull) (unfit trivial)

/-- Adding a row writes it and saves it, or drops it as a whole. -/
theorem added_addRow (room : machine.HasRoom schema limits)
    (idleWhenFull : limits.rows ≤ machine.rows.length → machine.current = .ofType (.tuple schema))
    (value : Value) :
    Added schema limits machine value (machine.step schema limits (.addRow value))
      ((machine.draft schema limits).addRow value) := by
  by_cases fewer : machine.rows.length < limits.rows
  · exact added_open fewer room value
  · have full := Nat.le_of_not_lt fewer
    obtain ⟨refusal, events, refused, other⟩ :=
      addRow_closed (gate_closed full) (discard_idle schema limits (idleWhenFull full)) value
    have answered : (machine.draft schema limits).act (.addRow value) = _ := refused
    have step : machine.step schema limits (.addRow value) = machine :=
      (step_of_act answered other).trans (RowMachine.act_full full (.addRow value))
    rw [step, refused]
    exact .full full other

/-! ### One step -/

/-- Whether an operation on a draft led to the draft of a machine, with room for what is in it, and
named a capacity that was exceeded if some buffer was short of room. -/
structure Follows (schema : Schema) (limits : Limits) (machine : RowMachine)
    (outcome : Draft × Outcome Unit) : Prop where
  draft : outcome.1 = machine.draft schema limits
  room : machine.HasRoom schema limits
  genuine : ∀ column requested capacity,
    outcome.2.result = .error (.overflow (.buffer column requested capacity)) →
      Shortage.Genuine limits.bufferBytes ⟨requested, capacity⟩

private theorem follows_short {shortage : Shortage} {column : String} {events : List Event}
    (genuine : shortage.Genuine limits.bufferBytes) (room : machine.HasRoom schema limits) :
    Follows schema limits (machine.discard schema)
      ((machine.discard schema).draft schema limits,
        ⟨.error (shortage.refusal column), events⟩) where
  draft := rfl
  room := ColumnType.room_discard room
  genuine := by
    rintro _ requested capacity ⟨⟩
    exact genuine

private theorem follows_hasRoom {outcome : Outcome Unit} (other : ranShort outcome.result = false)
    (room : machine.HasRoom schema limits) :
    Follows schema limits machine (machine.draft schema limits, outcome) where
  draft := rfl
  room := room
  genuine := by
    intro column requested capacity found
    rw [found] at other
    cases other

private theorem follows_edit (room : machine.HasRoom schema limits) (steps : List Step)
    (change : Columnar.Edit) :
    Follows schema limits (machine.step schema limits (.edit steps change))
      ((machine.draft schema limits).edit steps change) := by
  by_cases fewer : machine.rows.length < limits.rows
  · have edited := edited_edit fewer room steps change
    have acted : machine.act schema limits.rows (.edit steps change) false = _ :=
      RowMachine.act_edit fewer steps change
    generalize editing : (machine.draft schema limits).edit steps change = outcome at edited ⊢
    have answered : (machine.draft schema limits).act (.edit steps change) = outcome := editing
    generalize machine.current.edit change steps (.tuple schema) = answer at edited acted
    cases edited with
    | accepted roomAfter =>
      rw [(step_of_act answered rfl).trans acted]
      exact follows_hasRoom rfl roomAfter
    | rejected roomAfter =>
      rw [(step_of_act answered rfl).trans acted]
      exact follows_hasRoom rfl roomAfter
    | short genuine _ _ =>
      have step : machine.step schema limits (.edit steps change) = machine.discard schema :=
        step_of_act answered rfl
      rw [step]
      exact follows_short genuine room
  · have full := Nat.le_of_not_lt fewer
    obtain ⟨answer, unchanged, other⟩ := edit_closed (gate_closed full) steps change
    have answered : (machine.draft schema limits).act (.edit steps change) = _ := unchanged
    have step : machine.step schema limits (.edit steps change) = machine :=
      (step_of_act answered other).trans (RowMachine.act_full full (.edit steps change))
    rw [step, unchanged]
    exact follows_hasRoom other room

/-- What holds of a machine while a draft follows it. -/
structure Sound (schema : Schema) (limits : Limits) (machine : RowMachine) : Prop where
  valid : machine.Valid schema limits.rows
  room : machine.HasRoom schema limits

theorem sound_start (schema : Schema) (limits : Limits) :
    Sound schema limits (.start schema) where
  valid := RowMachine.valid_start schema limits.rows
  room := ColumnType.room_nil limits.bufferBytes (.tuple schema)

/-- What holds of a machine still holds once its row in progress is dropped. -/
theorem Sound.discard (sound : Sound schema limits machine) :
    Sound schema limits (machine.discard schema) where
  valid := sound.valid.discard
  room := ColumnType.room_discard sound.room

/-- Adding a row to the draft of a machine that it follows. -/
theorem Sound.added (sound : Sound schema limits machine) (value : Value) :
    Added schema limits machine value (machine.step schema limits (.addRow value))
      ((machine.draft schema limits).addRow value) :=
  added_addRow sound.room sound.valid.idleWhenFull value

/-- One write on the draft of a machine leads to the draft of the machine after it. -/
theorem follows_act (sound : Sound schema limits machine) {action : Action}
    (writes : action.isWrite = true) :
    Follows schema limits (machine.step schema limits action)
      ((machine.draft schema limits).act action) := by
  cases action with
  | edit steps change => exact follows_edit sound.room steps change
  | save =>
    have saved := saved_save sound.room
    rw [act]
    generalize machine.step schema limits .save = next at saved ⊢
    generalize (machine.draft schema limits).save = outcome at saved ⊢
    cases saved with
    | full _ => exact follows_hasRoom rfl sound.room
    | closed roomAfter => exact follows_hasRoom rfl roomAfter
    | short genuine _ => exact follows_short genuine sound.room
  | addRow value =>
    have added := sound.added value
    rw [act]
    generalize machine.step schema limits (.addRow value) = next at added ⊢
    generalize (machine.draft schema limits).addRow value = outcome at added ⊢
    cases added with
    | full _ other => exact follows_hasRoom other sound.room
    | saved _ _ roomAfter => exact follows_hasRoom rfl roomAfter
    | rejected _ _ => exact follows_hasRoom rfl sound.discard.room
    | short _ genuine _ _ _ => exact follows_short genuine sound.room
  | finish => cases writes
  | release => cases writes

/-- The machine that a draft follows after one write. -/
theorem Sound.step (sound : Sound schema limits machine) {action : Action}
    (writes : action.isWrite = true) :
    Sound schema limits (machine.step schema limits action) where
  valid := sound.valid.act action _
  room := (follows_act sound writes).room

/-! ### Runs -/

/-- Writes one after the other lead to the draft of the machine that replays them with their
results. -/
theorem run_draft {actions : List Action} (sound : Sound schema limits machine)
    (writes : ∀ action ∈ actions, action.isWrite = true) :
    let replayed := machine.replay schema limits.rows
      (actions.zip ((machine.draft schema limits).results actions))
    (machine.draft schema limits).run actions = replayed.draft schema limits ∧
      Sound schema limits replayed := by
  induction actions generalizing machine with
  | nil => exact ⟨rfl, sound⟩
  | cons action rest inductionHypothesis =>
    have writesFirst := writes action List.mem_cons_self
    have follows := follows_act sound writesFirst
    have later := inductionHypothesis (sound.step writesFirst)
      fun other member => writes other (List.mem_cons_of_mem action member)
    rw [← follows.draft] at later
    exact later

end Draft

/-- The row machine after operations on a draft that begins, told from the results of the draft. -/
def RowMachine.ofRun (schema : Schema) (limits : Limits) (actions : List Draft.Action) :
    RowMachine :=
  (start schema).replay schema limits.rows
    (actions.zip ((Draft.ofSchema schema limits).results actions))

/-- A draft that only was written since it began follows the row machine. -/
theorem Draft.run_ofSchema (schema : Schema) (limits : Limits) {actions : List Action}
    (writes : ∀ action ∈ actions, action.isWrite = true) :
    (ofSchema schema limits).run actions =
        (RowMachine.ofRun schema limits actions).draft schema limits ∧
      Sound schema limits (.ofRun schema limits actions) := by
  unfold RowMachine.ofRun
  rw [ofSchema_eq_draft]
  exact run_draft (sound_start schema limits) writes

end Columnar
