import Columnar.Proofs.Reader.Scan

/-!
# Drafts and readers refine the row machine

Whatever is written to a draft, in whatever order, and wherever a buffer runs short on the way: what
a reader finds in the sealed batch are the rows of the row machine.
-/

namespace Columnar

/-- Every run of writes on a draft of a checked schema can be finished and read, and the rows read
are those of the row machine after the same run. -/
theorem reader_refines_rowMachine {schema : Schema} (checked : schema.checkAll = .ok ())
    (limits : Limits) {actions : List Draft.Action}
    (writes : ∀ action ∈ actions, action.isWrite = true) :
    ∃ batch reader,
      ((Draft.ofSchema schema limits).run actions).finish.2.result = .ok batch ∧
      (SealedSet.mk schema (some batch)).reader = .ok reader ∧
      reader.remaining.2 = .ok (RowMachine.ofRun schema limits actions).rows := by
  obtain ⟨follows, sound⟩ := Draft.run_ofSchema schema limits writes
  have finished := Draft.finish_draft (Schema.solid_of_checkAll checked) limits
    (RowMachine.ofRun schema limits actions)
  rw [← follows] at finished
  exact ⟨_, _, finished, SealedSet.reader_ofRows schema _,
    Reader.remaining_onRows sound.valid.rowsAdmitted⟩

/-- A run over an array of tuples, a text and an array of byte strings: values that are written
twice, an element that is not saved, a row that is dropped because the array runs short of room in
the middle of a commit, and one that is dropped because its text is too long. -/
theorem reader_refines_rowMachine_nested :
    let schema : Schema :=
      .cons "points" (.array (.tuple (.cons "x" (.scalar .integer)
        (.cons "tags" (.array (.scalar .boolean)) .nil)))) (.cons "total" (.scalar .long)
          (.cons "label" (.scalar .string) (.cons "keys" (.array (.scalar .bytes)) .nil)))
    let points : List Step := [.column (.position 0)]
    let x : List Step := [.column (.position 0), .entry, .column (.position 0)]
    let tag : List Step := [.column (.position 0), .entry, .column (.position 1), .entry]
    let label : List Step := [.column (.name "label")]
    let key : List Step := [.column (.name "keys"), .entry]
    let actions : List Draft.Action :=
      [.edit x (.set (.int 1)), .edit x (.set (.int 2)), .edit tag (.set (.bool true)),
        .edit points .saveElement, .edit x (.set (.int 3)),
        .edit [.column (.position 1)] (.set (.int 4)), .edit label (.set (.string "a longer one")),
        .edit label (.set (.string "né")), .edit key (.set (.bytes ⟨#[1, 2]⟩)), .save,
        .edit points .saveElement, .edit x (.set (.int 5)), .edit points .saveElement,
        .edit points .saveElement, .edit key (.set (.bytes ⟨#[3]⟩)),
        .edit label (.set (.string "fourteen bytes")),
        .addRow (.tuple [.array [.tuple []], .scalar (.int 6), .scalar (.string "")])]
    let rows : List Value :=
      [.tuple [.array [.tuple [.scalar (.int 2), .array [.scalar (.bool true)]]],
          .scalar (.long 4), .scalar (.string "né"), .array [.scalar (.bytes ⟨#[1, 2]⟩)]],
        .tuple [.array [.tuple [.scalar (.int 0), .array []]], .scalar (.long 6),
          .scalar (.string ""), .array []]]
    schema.checkAll = .ok () ∧ (∀ action ∈ actions, action.isWrite = true) ∧
      ∃ batch reader,
        ((Draft.ofSchema schema ⟨8, 16⟩).run actions).finish.2.result = .ok batch ∧
        (SealedSet.mk schema (some batch)).reader = .ok reader ∧
        reader.remaining.2 = .ok rows := by
  intro schema points x tag label key actions rows
  have checked : schema.checkAll = .ok () := rfl
  have writes : ∀ action ∈ actions, action.isWrite = true := by decide
  have saved : (RowMachine.ofRun schema ⟨8, 16⟩ actions).rows = rows := by decide +kernel
  have read := reader_refines_rowMachine checked ⟨8, 16⟩ writes
  rw [saved] at read
  exact ⟨checked, writes, read⟩

end Columnar
