import Columnar.Draft.Action
import Columnar.Proofs.Row.Typing

/-!
# The row machine

What a draft is meant to do, told without any columns: a list of saved rows, and the row in
progress. The machine decides by itself what is accepted, except for one thing it knows nothing
about: whether a buffer had room. `RowMachine.replay` takes that from the results of a draft.
-/

namespace Columnar

/-- Whether a result is the refusal of a buffer that had no room. -/
def Refusal.isShortage : Refusal → Bool
  | .overflow (.buffer _ _ _) => true
  | _ => false

/-- Whether an operation was refused because a buffer had no room. -/
def ranShort : Except Refusal Unit → Bool
  | .error refusal => refusal.isShortage
  | .ok () => false

/-- Whether an operation writes, and neither seals nor gives up. -/
def Draft.Action.isWrite : Draft.Action → Bool
  | .edit _ _ | .save | .addRow _ => true
  | .finish | .release => false

/-- The rows saved so far, and what was written into the next one. -/
structure RowMachine where
  rows : List Value
  current : Pending

namespace RowMachine

/-- The machine without rows. -/
def start (schema : Schema) : RowMachine :=
  ⟨[], .ofType (.tuple schema)⟩

/-- Drops the row in progress. -/
def discard (schema : Schema) (machine : RowMachine) : RowMachine :=
  ⟨machine.rows, .ofType (.tuple schema)⟩

/-- Closes the row in progress and begins the next one. -/
def closeRow (schema : Schema) (machine : RowMachine) : RowMachine :=
  ⟨machine.rows ++ [machine.current.close (.tuple schema)], .ofType (.tuple schema)⟩

/-- Does an operation for which every buffer had room. Once there are as many rows as there may be,
nothing changes any more. -/
def apply (schema : Schema) (limit : Nat) (machine : RowMachine) : Draft.Action → RowMachine
  | .edit path change =>
      if limit ≤ machine.rows.length then machine
      else ⟨machine.rows, (machine.current.edit change path (.tuple schema)).1⟩
  | .save => if limit ≤ machine.rows.length then machine else machine.closeRow schema
  | .addRow value =>
      if limit ≤ machine.rows.length then machine
      else
        match Pending.put value (.tuple schema) machine.current with
        | (current, true) => closeRow schema ⟨machine.rows, current⟩
        | (_, false) => machine.discard schema
  | .finish | .release => machine

/-- Does an operation. If some buffer had no room for it, the row in progress is dropped. -/
def act (schema : Schema) (limit : Nat) (machine : RowMachine) (action : Draft.Action)
    (short : Bool) : RowMachine :=
  if short then machine.discard schema else machine.apply schema limit action

/-- Does operations one after the other, each with the result that a draft gave for it. -/
def replay (schema : Schema) (limit : Nat) (machine : RowMachine)
    (steps : List (Draft.Action × Except Refusal Unit)) : RowMachine :=
  steps.foldl (fun machine step => machine.act schema limit step.1 (ranShort step.2)) machine

variable {schema : Schema} {limit : Nat} {machine : RowMachine}

/-! ### What each operation does -/

/-- Once there are as many rows as there may be, nothing changes. -/
theorem act_full (full : limit ≤ machine.rows.length) (action : Draft.Action) :
    machine.act schema limit action false = machine := by
  cases action <;> simp [act, apply, full]

theorem act_edit (fewer : machine.rows.length < limit) (path : List Step) (change : Edit) :
    machine.act schema limit (.edit path change) false =
      ⟨machine.rows, (machine.current.edit change path (.tuple schema)).1⟩ := by
  simp [act, apply, Nat.not_le_of_lt fewer]

theorem act_save (fewer : machine.rows.length < limit) :
    machine.act schema limit .save false = machine.closeRow schema := by
  simp [act, apply, Nat.not_le_of_lt fewer]

/-- A row that is accepted is closed at once. -/
theorem act_addRow (fewer : machine.rows.length < limit) {value : Value} {pending : Pending}
    (accepted : Pending.put value (.tuple schema) machine.current = (pending, true)) :
    machine.act schema limit (.addRow value) false = closeRow schema ⟨machine.rows, pending⟩ := by
  simp [act, apply, Nat.not_le_of_lt fewer, accepted]

/-- A row that is rejected is dropped, with whatever was accepted of it. -/
theorem act_addRow_rejected (fewer : machine.rows.length < limit) {value : Value}
    (refused : (Pending.put value (.tuple schema) machine.current).2 = false) :
    machine.act schema limit (.addRow value) false = machine.discard schema := by
  simp only [act, apply, Nat.not_le_of_lt fewer, Bool.false_eq_true, if_false]
  generalize Pending.put value (.tuple schema) machine.current = answer at refused ⊢
  obtain ⟨pending, accepted⟩ := answer
  cases refused
  rfl

/-- An edit adds no row. -/
theorem rows_act_edit (schema : Schema) (limit : Nat) (machine : RowMachine) (path : List Step)
    (change : Edit) (short : Bool) :
    (machine.act schema limit (.edit path change) short).rows = machine.rows := by
  cases short with
  | true => rfl
  | false =>
    by_cases fewer : machine.rows.length < limit
    · rw [act_edit fewer]
    · rw [act_full (Nat.le_of_not_lt fewer)]

/-! ### What holds at any time -/

/-- What holds of the machine at any time: the rows are in the form in which the columns keep them,
so is what was written, and nothing is in progress once there are as many rows as there may be. -/
structure Valid (schema : Schema) (limit : Nat) (machine : RowMachine) : Prop where
  rowsAdmitted : ∀ row ∈ machine.rows, (ColumnType.tuple schema).Admits row
  currentTyped : machine.current.Typed (.tuple schema)
  idleWhenFull : limit ≤ machine.rows.length → machine.current = .ofType (.tuple schema)

theorem valid_start (schema : Schema) (limit : Nat) : Valid schema limit (start schema) where
  rowsAdmitted := fun _ member => nomatch member
  currentTyped := Pending.typed_ofType (.tuple schema)
  idleWhenFull := fun _ => rfl

theorem Valid.discard (valid : Valid schema limit machine) :
    Valid schema limit (machine.discard schema) where
  rowsAdmitted := valid.rowsAdmitted
  currentTyped := Pending.typed_ofType (.tuple schema)
  idleWhenFull := fun _ => rfl

private theorem valid_closeRow {current : Pending} (valid : Valid schema limit machine)
    (typed : current.Typed (.tuple schema)) :
    Valid schema limit (closeRow schema ⟨machine.rows, current⟩) where
  rowsAdmitted := by
    intro row member
    rcases List.mem_append.mp member with before | last
    · exact valid.rowsAdmitted row before
    · rw [List.mem_singleton.mp last]
      exact Pending.admits_close (.tuple schema) current typed
  currentTyped := Pending.typed_ofType (.tuple schema)
  idleWhenFull := fun _ => rfl

private theorem Valid.addRow (valid : Valid schema limit machine)
    (fewer : machine.rows.length < limit) (value : Value) :
    Valid schema limit (machine.act schema limit (.addRow value) false) := by
  have typed := Pending.typed_put value (.tuple schema) machine.current valid.currentTyped
  cases put : Pending.put value (.tuple schema) machine.current with
  | mk pending accepted =>
    rw [put] at typed
    cases accepted with
    | true =>
      rw [act_addRow fewer put]
      exact valid_closeRow valid typed
    | false =>
      rw [act_addRow_rejected fewer (congrArg Prod.snd put)]
      exact valid.discard

/-- Every operation keeps the machine valid. -/
theorem Valid.act (valid : Valid schema limit machine) (action : Draft.Action) (short : Bool) :
    Valid schema limit (machine.act schema limit action short) := by
  cases short with
  | true => exact valid.discard
  | false =>
    by_cases fewer : machine.rows.length < limit
    · cases action with
      | edit path change =>
        rw [act_edit fewer]
        exact ⟨valid.rowsAdmitted, Pending.typed_edit change path _ _ valid.currentTyped,
          fun reached => absurd reached (Nat.not_le_of_lt fewer)⟩
      | save =>
        rw [act_save fewer]
        exact valid_closeRow valid valid.currentTyped
      | addRow value => exact valid.addRow fewer value
      | finish => exact valid
      | release => exact valid
    · rw [act_full (Nat.le_of_not_lt fewer)]
      exact valid

end RowMachine

end Columnar
