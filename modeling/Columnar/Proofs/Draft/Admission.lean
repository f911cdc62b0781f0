import Columnar.Proofs.Draft.Simulation

/-!
# Which rows are admitted

A row is added to a draft without a row in progress exactly when there may be one more row, the
columns take it, and every buffer is within its limit with that row in it. The checks that are made
value by value, element by element and column by column say neither more nor less.
-/

namespace Columnar

namespace Draft

variable {schema : Schema} {limits : Limits} {machine : RowMachine}

private theorem put_iff_accepts (value : Value) (type : ColumnType) :
    (Pending.put value type (.ofType type)).2 = true ↔ type.Accepts value := by
  constructor
  · exact Pending.accepts_of_put value type (.ofType type)
  · intro accepts
    exact (Pending.put_of_accepts value type accepts).1

/-- With nothing in progress, a row is added exactly when it is one more row that is taken and that
fits. -/
private theorem addRow_idle (sound : Sound schema limits machine)
    (idle : machine.current = .ofType (.tuple schema)) (value : Value) :
    ((machine.draft schema limits).addRow value).2.result = .ok () ↔
      machine.rows.length < limits.rows ∧ (ColumnType.tuple schema).Accepts value ∧
        (ColumnType.tuple schema).Fits limits.bufferBytes
          (machine.rows ++ [(ColumnType.tuple schema).normalize value]) := by
  have added := sound.added value
  have taken := put_iff_accepts value (.tuple schema)
  have normal := Pending.put_of_accepts value (.tuple schema)
  rw [← idle] at taken normal
  generalize machine.step schema limits (.addRow value) = next at added
  generalize (machine.draft schema limits).addRow value = outcome at added ⊢
  cases added with
  | full full _ =>
    constructor
    · rintro ⟨⟩
    · rintro ⟨fewer, _, _⟩
      exact absurd full (Nat.not_le_of_lt fewer)
  | @saved pending _ fewer accepted roomAfter =>
    rw [accepted] at taken normal
    have accepts := taken.mp rfl
    have closes : pending.close (.tuple schema) = (ColumnType.tuple schema).normalize value :=
      (normal accepts).2
    have present : machine.rows ++ [pending.close (.tuple schema)] ≠ [] := by simp
    have fits := ColumnType.fits_ofRoom _ _ (.inl present) roomAfter
    rw [closes] at fits
    exact ⟨fun _ => ⟨fewer, accepts, fits⟩, fun _ => rfl⟩
  | rejected refused _ =>
    rw [refused] at taken
    constructor
    · rintro ⟨⟩
    · rintro ⟨_, accepts, _⟩
      cases taken.mpr accepts
  | short _ _ put _ unfit =>
    rw [put] at taken normal
    constructor
    · rintro ⟨⟩
    · rintro ⟨_, accepts, fits⟩
      rw [← (normal accepts).2] at fits
      exact absurd fits (unfit (taken.mpr accepts))

/-- After any writes that leave no row in progress, a row is added exactly when there may be one
more row, the columns take it, and all rows together fit with it. After any writes at all, what a
buffer lacks is more than its capacity, or more than an offset can tell. -/
theorem addRow_admits_iff_fits (schema : Schema) (limits : Limits) (actions : List Action)
    (writes : ∀ action ∈ actions, action.isWrite = true) :
    let draft := (ofSchema schema limits).run actions
    let saved := (RowMachine.ofRun schema limits actions).rows
    (draft.discardRow = draft → ∀ value,
      ((draft.addRow value).2.result = .ok () ↔
        draft.row < limits.rows ∧ (ColumnType.tuple schema).Accepts value ∧
          (ColumnType.tuple schema).Fits limits.bufferBytes
            (saved ++ [(ColumnType.tuple schema).normalize value]))) ∧
    ∀ action column requested capacity, action.isWrite = true →
      (draft.act action).2.result = .error (.overflow (.buffer column requested capacity)) →
      capacity < requested ∧ (capacity = limits.bufferBytes ∨ capacity = maxOffset) := by
  intro draft saved
  obtain ⟨follows, sound⟩ := run_ofSchema schema limits writes
  have same : draft = (RowMachine.ofRun schema limits actions).draft schema limits := follows
  constructor
  · intro idle value
    rw [same, discardRow_draft] at idle
    have admitted := addRow_idle sound.discard rfl value
    rw [same, ← idle]
    exact admitted
  · intro action column requested capacity writesAlso refused
    rw [same] at refused
    exact (follows_act sound writesAlso).genuine column requested capacity refused

/-- With 16 bytes for each buffer and one row of one byte string, there is room for two more byte
strings in the next row, but not for the offsets of three. -/
theorem addRow_admits_iff_fits_offsets :
    let schema : Schema := .cons "keys" (.array (.scalar .bytes)) .nil
    let actions : List Action :=
      [.addRow (.tuple [.array [.scalar (.bytes ⟨#[1, 2]⟩)]]), .addRow (.tuple [.scalar (.int 1)])]
    let draft := (ofSchema schema ⟨4, 16⟩).run actions
    let keys (count : Nat) : Value :=
      .tuple [.array (List.replicate count (.scalar (.bytes ⟨#[3]⟩)))]
    (∀ action ∈ actions, action.isWrite = true) ∧ draft.discardRow = draft ∧
      (draft.addRow (keys 2)).2.result = .ok () ∧ (draft.addRow (keys 3)).2.result ≠ .ok () := by
  intro schema actions draft keys
  have writes : ∀ action ∈ actions, action.isWrite = true := by decide
  have idle : draft.discardRow = draft := by decide +kernel
  have saved : (RowMachine.ofRun schema ⟨4, 16⟩ actions).rows =
      [.tuple [.array [.scalar (.bytes ⟨#[1, 2]⟩)]]] := by decide +kernel
  have admits := (addRow_admits_iff_fits schema ⟨4, 16⟩ actions writes).1 idle
  rw [saved] at admits
  refine ⟨writes, idle, ?_, ?_⟩
  · exact (admits (keys 2)).mpr ⟨by decide +kernel, by decide +kernel, by decide +kernel⟩
  · intro accepted
    obtain ⟨_, _, fits⟩ := (admits (keys 3)).mp accepted
    exact absurd fits (by decide +kernel)

end Draft

end Columnar
