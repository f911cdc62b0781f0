import Columnar.Proofs.Draft.Phases
import Columnar.Proofs.Reader.Spots

/-!
# Batches under other schemas

A sealed batch is bound to another schema just if that has the shape of the one it was written
under. The names that the other schema gives to the columns play no part in what the rows are.
-/

namespace Columnar

mutual

/-- A sealed column binds under no type but those of its shape. -/
theorem ColumnType.sameShape_of_ofData : ∀ {path : String} {type other : ColumnType}
    {values : List Value} {view : View},
    View.ofData path other (.ofValues type values) = .ok view → type.SameShape other
  | _, .scalar type, .scalar other, values, _, bound => by
      rw [ColumnData.ofValues, View.ofData, Leaf.type_ofScalars] at bound
      split at bound
      · assumption
      · cases bound
  | _, .array element, .array other, values, _, bound => by
      rw [ColumnData.ofValues, View.ofData] at bound
      obtain ⟨entry, below, _⟩ := bind_ok_iff.mp bound
      have shape : element.SameShape other := ColumnType.sameShape_of_ofData below
      exact shape
  | path, .tuple columns, .tuple others, values, _, bound => by
      rw [ColumnData.ofValues, View.ofData] at bound
      obtain ⟨_, counted, bound⟩ := bind_ok_iff.mp bound
      obtain ⟨views, below, _⟩ := bind_ok_iff.mp bound
      have length :=
        (DataColumns.count_ofRows columns _).symm.trans (checkCount_eq_ok_iff.mp counted)
      exact Schema.sameShape_of_ofDatas length below
  | _, .scalar _, .array _, _, _, bound => by cases bound
  | _, .scalar _, .tuple _, _, _, bound => by cases bound
  | _, .array _, .scalar _, _, _, bound => by cases bound
  | _, .array _, .tuple _, _, _, bound => by cases bound
  | _, .tuple _, .scalar _, _, _, bound => by cases bound
  | _, .tuple _, .array _, _, _, bound => by cases bound

/-- Sealed columns bind under no schema of as many columns but those of their shape. -/
theorem Schema.sameShape_of_ofDatas : ∀ {parent : String} {schema other : Schema}
    {rows : List (List Value)} {views : Views}, schema.length = other.length →
    Views.ofDatas parent other (DataColumns.ofRows schema rows).datas = .ok views →
    schema.SameShape other
  | _, .nil, .nil, _, _, _, _ => trivial
  | _, .nil, .cons _ _ _, _, _, length, _ => nomatch length
  | _, .cons _ _ _, .nil, _, _, length, _ => nomatch length
  | parent, .cons _ type rest, .cons name other others, rows, _, length, bound => by
      change (View.ofData (childPath parent name) other _ >>= fun view =>
        Views.ofDatas parent others (DataColumns.ofRows rest _).datas >>= fun views =>
          pure (Views.cons name view views)) = _ at bound
      obtain ⟨view, first, bound⟩ := bind_ok_iff.mp bound
      obtain ⟨views, later, _⟩ := bind_ok_iff.mp bound
      exact ⟨ColumnType.sameShape_of_ofData first,
        Schema.sameShape_of_ofDatas (Nat.succ.inj length) later⟩

end

/-- A batch of given rows binds under no schema but those of its shape. -/
theorem Schema.sameShape_of_ofBatch {schema other : Schema} {rows : List Value} {view : View}
    (bound : View.ofBatch other (Batch.ofRows schema rows).columns = .ok view) :
    schema.SameShape other := by
  obtain ⟨_, counted, bound⟩ := bind_ok_iff.mp bound
  obtain ⟨views, below, _⟩ := bind_ok_iff.mp bound
  refine Schema.sameShape_of_ofDatas ?_ below
  have length := checkCount_eq_ok_iff.mp counted
  rwa [Batch.ofRows, DataColumns.length_datas, DataColumns.count_ofRows] at length

/-- A reader of rows that its schema keeps reads the current one. -/
theorem Reader.Reads.row {schema : Schema} {rows : List Value} {reader : Reader}
    (reads : reader.Reads schema rows)
    (admitted : ∀ row ∈ rows, (ColumnType.tuple schema).Admits row) {index : Nat} {row : Value}
    (here : reader.rowIndex? = some index) (found : rows[index]? = some row) :
    reader.row = .ok row := by
  rw [Reader.row, position_eq, here]
  exact View.read_of_atRest reads.root admitted found

namespace SealedSet

/-- Under what schemas a batch of given rows makes a set, and what it is refused for under
others. -/
private inductive Rebinds (schema other : Schema) (rows : List Value) : Prop where
  | bound (same : schema.SameShape other)
      (made : ofBatch? other (.ofRows schema rows) = .ok ⟨other, some (.ofRows schema rows)⟩)
  | refused (cause : BindingError) (different : ¬ schema.SameShape other)
      (refused : ofBatch? other (.ofRows schema rows) = .error (.binding cause))

private theorem rebinds (schema other : Schema) (rows : List Value) :
    Rebinds schema other rows := by
  cases bound : View.ofBatch other (Batch.ofRows schema rows).columns with
  | ok view =>
    refine .bound (Schema.sameShape_of_ofBatch bound) ?_
    rw [ofBatch?, bound]
    rfl
  | error cause =>
    refine .refused cause ?_ ?_
    · intro same
      cases bound.symm.trans (View.ofBatch_ofRows same rows)
    · rw [ofBatch?, bound]
      rfl

/-- A batch that a run of a checked schema seals is bound to another schema just if that has the
same shape, and is refused as not following it otherwise. Under the other schema it has as many
rows, and whatever is done with the readers of both, a row is the same value for both. -/
theorem rebinds_iff_sameShape {schema : Schema} (checked : schema.checkAll = .ok ())
    (limits : Limits) {actions : List Draft.Action} {batch : Batch}
    (finished : ((Draft.ofSchema schema limits).run actions).finish.2.result = .ok batch)
    (other : Schema) :
    let original : SealedSet := ⟨schema, some batch⟩
    ((∃ set, ofBatch? other batch = .ok set) ↔ schema.SameShape other) ∧
      (∀ refusal, ofBatch? other batch = .error refusal → ∃ cause, refusal = .binding cause) ∧
      ∀ set, ofBatch? other batch = .ok set → set.rowCount = original.rowCount ∧
        ∃ reader rebound rows, original.reader = .ok reader ∧ set.reader = .ok rebound ∧
          rows.length = original.rowCount ∧
          reader.remaining.2 = .ok rows ∧ rebound.remaining.2 = .ok rows ∧
          ∀ moves index row, rows[index]? = some row →
            ((reader.run moves).rowIndex? = some index → (reader.run moves).row = .ok row) ∧
            ((rebound.run moves).rowIndex? = some index → (rebound.run moves).row = .ok row) := by
  intro original
  obtain ⟨rfl, admitted⟩ := Draft.ofRows_of_finish checked limits finished
  cases rebinds schema other (RowMachine.ofRun schema limits actions).rows with
  | refused cause different refused =>
    refine ⟨⟨?_, fun same => absurd same different⟩, ?_, ?_⟩
    · rintro ⟨set, made⟩
      cases made.symm.trans refused
    · intro refusal failed
      cases failed.symm.trans refused
      exact ⟨cause, rfl⟩
    · intro set made
      cases made.symm.trans refused
  | bound same made =>
    refine ⟨⟨fun _ => same, fun _ => ⟨_, made⟩⟩, ?_, ?_⟩
    · intro refusal failed
      cases failed.symm.trans made
    · rintro set also
      obtain rfl := Except.ok.inj (also.symm.trans made)
      have whole : (ColumnType.tuple schema).SameShape (.tuple other) := same
      have admittedAlso : ∀ row ∈ (RowMachine.ofRun schema limits actions).rows,
          (ColumnType.tuple other).Admits row := fun row member =>
        whole.admits (admitted row member)
      refine ⟨rfl, _, _, _, reader_ofRows schema _, reader_of_sameShape same _, rfl,
        Reader.remaining_onRows admitted, Reader.remaining_onRows admittedAlso, ?_⟩
      intro moves index row found
      constructor
      · intro here
        exact ((Reader.reads_onRows schema _).run moves).row admitted here found
      · intro here
        exact ((Reader.reads_onRows other _).run moves).row admittedAlso here found

/-- Rows of two columns under a schema of other names, which even repeats one, and under one whose
array is of longs. -/
theorem rebinds_iff_sameShape_renamed :
    let schema : Schema :=
      .cons "id" (.scalar .long) (.cons "tags" (.array (.scalar .integer)) .nil)
    let renamed : Schema := .cons "" (.scalar .long) (.cons "" (.array (.scalar .integer)) .nil)
    let widened : Schema :=
      .cons "id" (.scalar .long) (.cons "tags" (.array (.scalar .long)) .nil)
    let row : Value := .tuple [.scalar (.long 7), .array [.scalar (.int 1), .scalar (.int 2)]]
    let begun := Draft.ofSchema schema ⟨1, 64⟩
    schema.checkAll = .ok () ∧ ∃ batch,
      (begun.run [.addRow row]).finish.2.result = .ok batch ∧
      (∃ cause, ofBatch? widened batch = .error (.binding cause)) ∧
      ∃ set reader, ofBatch? renamed batch = .ok set ∧ set.reader = .ok reader ∧
        reader.remaining.2 = .ok [row] := by
  intro schema renamed widened row begun
  have checked : schema.checkAll = .ok () := rfl
  have writing : (begun.run [.addRow row]).phase = .writing := by decide +kernel
  obtain ⟨finished, admitted⟩ := Draft.finish_of_writing checked ⟨1, 64⟩ writing
  have saved : (RowMachine.ofRun schema ⟨1, 64⟩ [.addRow row]).rows = [row] := by decide +kernel
  obtain ⟨iffSame, _, reads⟩ := rebinds_iff_sameShape checked ⟨1, 64⟩ finished renamed
  obtain ⟨iffWidened, refuses, _⟩ := rebinds_iff_sameShape checked ⟨1, 64⟩ finished widened
  refine ⟨checked, _, finished, ?_, ?_⟩
  · cases outcome : ofBatch? widened (Batch.ofRows schema _) with
    | ok set => exact absurd (iffWidened.mp ⟨set, outcome⟩) (by decide)
    | error refusal =>
      obtain ⟨cause, rfl⟩ := refuses refusal outcome
      exact ⟨cause, rfl⟩
  · obtain ⟨set, made⟩ := iffSame.mpr (by decide)
    obtain ⟨_, reader, rebound, rows, read, readAlso, _, walked, walkedAlso, _⟩ := reads set made
    cases read.symm.trans (reader_ofRows schema _)
    cases walked.symm.trans (Reader.remaining_onRows admitted)
    rw [saved] at walkedAlso
    exact ⟨set, rebound, made, readAlso, walkedAlso⟩

end SealedSet

end Columnar
