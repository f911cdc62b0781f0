import Columnar.Proofs.Draft.Simulation

/-!
# When a buffer runs short

A write runs short of room exactly when the row machine comes to hold more than the buffers have
room for. With the limits, the machine therefore needs no draft to tell it what is dropped:
replaying the results of a draft is running the machine by itself.
-/

namespace Columnar

namespace RowMachine

/-- What a machine comes to hold in an operation for which every buffer has room. A row that is
rejected is held up to what was rejected of it. -/
def reach (schema : Schema) (limit : Nat) (machine : RowMachine) : Draft.Action → RowMachine
  | .edit path change => machine.apply schema limit (.edit path change)
  | .save => machine.apply schema limit .save
  | .addRow value =>
      if limit ≤ machine.rows.length then machine
      else
        match Pending.put value (.tuple schema) machine.current with
        | (current, true) => closeRow schema ⟨machine.rows, current⟩
        | (current, false) => ⟨machine.rows, current⟩
  | .finish | .release => machine

instance (schema : Schema) (limits : Limits) (machine : RowMachine) :
    Decidable (machine.HasRoom schema limits) :=
  inferInstanceAs (Decidable ((ColumnType.tuple schema).Room _ _ _))

/-- Does an operation under limits, and tells from what the machine comes to hold whether some
buffer is short of room. -/
def advance (schema : Schema) (limits : Limits) (machine : RowMachine) (action : Draft.Action) :
    RowMachine :=
  machine.act schema limits.rows action
    (!decide ((machine.reach schema limits.rows action).HasRoom schema limits))

/-- Does operations one after the other under limits. -/
def run (schema : Schema) (limits : Limits) (machine : RowMachine) (actions : List Draft.Action) :
    RowMachine :=
  actions.foldl (advance schema limits) machine

variable {schema : Schema} {limits : Limits} {machine : RowMachine}

/-- Once there are as many rows as there may be, an operation comes to hold nothing else. -/
theorem reach_full {limit : Nat} (full : limit ≤ machine.rows.length) (action : Draft.Action) :
    machine.reach schema limit action = machine := by
  cases action <;> simp [reach, apply, full]

/-- There is room for a row that is closed when it fits with the rows before it. -/
theorem hasRoom_closeRow_iff : (machine.closeRow schema).HasRoom schema limits ↔
    (ColumnType.tuple schema).Fits limits.bufferBytes (machine.closeRow schema).rows := by
  have present : (machine.closeRow schema).rows ≠ [] := by simp [closeRow]
  exact ⟨ColumnType.fits_ofRoom _ _ (.inl present), ColumnType.room_ofFits _ _⟩

end RowMachine

namespace Draft

variable {schema : Schema} {limits : Limits} {machine next : RowMachine}
  {outcome : Draft × Outcome Unit}

/-- An edit runs short when there is no room for what is in progress after it, accepted or not. -/
private theorem Edited.ranShort_iff {rows : List Value} {whole : Prop} {answer : Pending × Bool}
    (edited : Edited schema limits rows whole answer outcome) :
    ranShort outcome.2.result = true ↔ ¬RowMachine.HasRoom schema limits ⟨rows, answer.1⟩ := by
  cases edited with
  | accepted room => exact iff_of_false Bool.false_ne_true (not_not_intro room)
  | rejected room => exact iff_of_false Bool.false_ne_true (not_not_intro room)
  | short _ overfull _ => exact iff_of_true rfl overfull

/-- Saving the row in progress runs short when it does not fit with the saved rows. -/
private theorem Saved.ranShort_iff (saved : Saved schema limits machine next outcome)
    (fewer : machine.rows.length < limits.rows) :
    ranShort outcome.2.result = true ↔ ¬(machine.closeRow schema).HasRoom schema limits := by
  cases saved with
  | full full => exact absurd full (Nat.not_le_of_lt fewer)
  | closed room => exact iff_of_false Bool.false_ne_true (not_not_intro room)
  | short _ unfit => exact iff_of_true rfl (mt RowMachine.hasRoom_closeRow_iff.mp unfit)

/-- Adding a row runs short when it is accepted and does not fit with the saved rows, or when there
is no room for what was written of it before it was rejected. -/
private theorem Added.ranShort_iff {value : Value}
    (added : Added schema limits machine value next outcome)
    (fewer : machine.rows.length < limits.rows) :
    ranShort outcome.2.result = true ↔
      ¬(machine.reach schema limits.rows (.addRow value)).HasRoom schema limits := by
  rw [RowMachine.reach, if_neg (Nat.not_le_of_lt fewer)]
  cases added with
  | full full _ => exact absurd full (Nat.not_le_of_lt fewer)
  | saved _ accepted room =>
    rw [accepted]
    exact iff_of_false Bool.false_ne_true (not_not_intro room)
  | rejected refused room =>
    rw [refused]
    exact iff_of_false Bool.false_ne_true (not_not_intro room)
  | @short pending accepted _ _ _ _ _ put overfull unfit =>
    rw [put]
    cases accepted with
    | true => exact iff_of_true rfl (mt RowMachine.hasRoom_closeRow_iff.mp (unfit rfl))
    | false => exact iff_of_true rfl (overfull rfl)

/-- A write that the gate refuses does not run short. -/
private theorem ranShort_full (sound : Sound schema limits machine)
    (full : limits.rows ≤ machine.rows.length) {action : Action} (writes : action.isWrite = true) :
    ranShort ((machine.draft schema limits).act action).2.result = false := by
  cases action with
  | edit steps change =>
    obtain ⟨_, refused, other⟩ := edit_closed (gate_closed full) steps change
    rw [act, refused]
    exact other
  | save =>
    rw [act, save_closed (gate_closed full)]
    rfl
  | addRow value =>
    have idle := discard_idle schema limits (sound.valid.idleWhenFull full)
    obtain ⟨_, _, refused, other⟩ := addRow_closed (gate_closed full) idle value
    rw [act, refused]
    exact other
  | finish => cases writes
  | release => cases writes

/-- A write runs short of room exactly when the row machine comes to hold more in it than the
buffers have room for. -/
theorem ranShort_act_iff (sound : Sound schema limits machine) {action : Action}
    (writes : action.isWrite = true) :
    ranShort ((machine.draft schema limits).act action).2.result = true ↔
      ¬(machine.reach schema limits.rows action).HasRoom schema limits := by
  by_cases fewer : machine.rows.length < limits.rows
  · cases action with
    | edit steps change =>
      rw [RowMachine.reach, RowMachine.apply, if_neg (Nat.not_le_of_lt fewer)]
      exact (edited_edit fewer sound.room steps change).ranShort_iff
    | save =>
      rw [RowMachine.reach, RowMachine.apply, if_neg (Nat.not_le_of_lt fewer)]
      exact (saved_save sound.room).ranShort_iff fewer
    | addRow value => exact (sound.added value).ranShort_iff fewer
    | finish => cases writes
    | release => cases writes
  · have full := Nat.le_of_not_lt fewer
    rw [ranShort_full sound full writes, RowMachine.reach_full full]
    exact iff_of_false Bool.false_ne_true (not_not_intro sound.room)

/-- What a draft tells a machine about room is what the machine tells by itself. -/
theorem step_eq_advance (sound : Sound schema limits machine) {action : Action}
    (writes : action.isWrite = true) :
    machine.step schema limits action = machine.advance schema limits action := by
  have told : ranShort ((machine.draft schema limits).act action).2.result =
      !decide ((machine.reach schema limits.rows action).HasRoom schema limits) := by
    rw [Bool.eq_iff_iff, ranShort_act_iff sound writes, Bool.not_eq_true', decide_eq_false_iff_not]
  rw [RowMachine.step, RowMachine.advance, told]

/-- Replaying writes with the results of a draft is running the machine by itself. -/
private theorem replay_eq_run {actions : List Action} (sound : Sound schema limits machine)
    (writes : ∀ action ∈ actions, action.isWrite = true) :
    machine.replay schema limits.rows
        (actions.zip ((machine.draft schema limits).results actions)) =
      machine.run schema limits actions := by
  induction actions generalizing machine with
  | nil => rfl
  | cons action rest inductionHypothesis =>
    have writesFirst := writes action List.mem_cons_self
    have follows := follows_act sound writesFirst
    have later := inductionHypothesis (sound.step writesFirst)
      fun other member => writes other (List.mem_cons_of_mem action member)
    rw [← follows.draft] at later
    rw [RowMachine.run, List.foldl_cons, ← step_eq_advance sound writesFirst]
    exact later

end Draft

/-- The row machine of a run needs nothing but the schema and the limits: it drops a row by itself
where a buffer of the draft runs short. -/
theorem RowMachine.ofRun_eq_run (schema : Schema) (limits : Limits) {actions : List Draft.Action}
    (writes : ∀ action ∈ actions, action.isWrite = true) :
    ofRun schema limits actions = (start schema).run schema limits actions := by
  rw [ofRun, Draft.ofSchema_eq_draft]
  exact Draft.replay_eq_run (Draft.sound_start schema limits) writes

end Columnar
