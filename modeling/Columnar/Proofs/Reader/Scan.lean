import Columnar.Proofs.Draft.Sealing
import Columnar.Proofs.Reader.Collecting
import Columnar.Proofs.Reader.View
import Columnar.SealedSet

/-!
# Reading all rows

A reader on a batch of given rows visits them in order, each once, and jumps to any of them.
-/

namespace Columnar

/-- The reader on a batch of given rows, with its cursor in a given state. -/
def Reader.onRows (schema : Schema) (rows : List Value) (state : RowState) : Reader :=
  ⟨⟨rows.length, state⟩, .ofValues "" (.tuple schema) rows⟩

/-- A batch of given rows binds, under any schema of its shape, to the view of the rows. -/
theorem View.ofBatch_ofRows {schema other : Schema} (same : schema.SameShape other)
    (rows : List Value) :
    View.ofBatch other (Batch.ofRows schema rows).columns =
      .ok (.ofValues "" (.tuple other) rows) := by
  have counted : checkCount "" other.length
      (DataColumns.ofRows schema (rows.map Value.items)).datas.length = .ok () :=
    if_pos (by rw [DataColumns.length_datas, DataColumns.count_ofRows, same.length_eq])
  rw [View.ofBatch, Batch.ofRows, counted]
  change (do let views ← Views.ofDatas "" other _; pure (View.tuple "" views)) = _
  rw [Views.ofDatas_ofRows "" _ same]
  rfl

/-- A batch of given rows is read, under any schema of its shape, as these rows. -/
theorem SealedSet.reader_of_sameShape {schema other : Schema} (same : schema.SameShape other)
    (rows : List Value) :
    (SealedSet.mk other (some (.ofRows schema rows))).reader =
      .ok (.onRows other rows .beforeFirst) := by
  simp only [SealedSet.reader, View.ofBatch_ofRows same]
  rfl

theorem SealedSet.reader_ofRows (schema : Schema) (rows : List Value) :
    (SealedSet.mk schema (some (.ofRows schema rows))).reader =
      .ok (.onRows schema rows .beforeFirst) :=
  reader_of_sameShape schema.sameShape_refl rows

namespace Reader

variable {schema : Schema} {rows : List Value}

/-- On a row that the columns admit a reader reads that row. -/
theorem row_onRows (admitted : ∀ row ∈ rows, (ColumnType.tuple schema).Admits row) {index : Nat}
    {row : Value} (found : rows[index]? = some row) :
    (onRows schema rows (.on index)).row = .ok row :=
  View.read_ofValues "" (.tuple schema) rows index row found
    (admitted row (List.mem_of_getElem? found))

/-- Jumping to a row and reading it gives that row. -/
theorem setRow_onRows (admitted : ∀ row ∈ rows, (ColumnType.tuple schema).Admits row)
    (state : RowState) {index : Nat} {row : Value} (found : rows[index]? = some row) :
    ∃ moved, (onRows schema rows state).setRow index = .ok moved ∧ moved.row = .ok row := by
  have within := (List.getElem?_eq_some_iff.mp found).1
  have jumped : (RowCursor.mk rows.length state).setRow index =
      .ok ⟨rows.length, .on index⟩ := if_pos within
  refine ⟨onRows schema rows (.on index), ?_, row_onRows admitted found⟩
  simp only [setRow, onRows, jumped]
  rfl

private theorem remainingAfter_onRows
    (admitted : ∀ row ∈ rows, (ColumnType.tuple schema).Admits row) (fuel : Nat) {index : Nat}
    (values : List Value) {state : RowState}
    (advances : (RowCursor.mk rows.length state).next =
      (RowCursor.mk rows.length state).advanceTo index)
    (enough : rows.length < index + fuel) :
    (remainingAfter fuel values (onRows schema rows state)).2 =
      .ok (values.reverse ++ rows.drop index) := by
  induction fuel generalizing index values state with
  | zero =>
    rw [List.drop_of_length_le (by omega), List.append_nil]
    rfl
  | succ fuel inductionHypothesis =>
    by_cases within : index < rows.length
    · have found : rows[index]? = some rows[index] := List.getElem?_eq_getElem within
      have moved : (onRows schema rows state).next = (onRows schema rows (.on index), true) := by
        simp only [next, onRows, advances, RowCursor.advanceTo, if_pos within]
      have later := inductionHypothesis (rows[index] :: values)
        (rfl : (RowCursor.mk rows.length (.on index)).next = _) (by omega)
      simp only [remainingAfter, moved, collectRow_eq, row_onRows admitted found, later]
      rw [List.reverse_cons, List.append_assoc, List.singleton_append,
        ← List.drop_eq_getElem_cons within]
    · have ended : (onRows schema rows state).next = (onRows schema rows .exhausted, false) := by
        simp only [next, onRows, advances, RowCursor.advanceTo, if_neg within]
      rw [List.drop_of_length_le (Nat.le_of_not_lt within), List.append_nil]
      simp only [remainingAfter, ended]

/-- A walk from before the first row reads every row once, in order. -/
theorem remaining_onRows (admitted : ∀ row ∈ rows, (ColumnType.tuple schema).Admits row) :
    (onRows schema rows .beforeFirst).remaining.2 = .ok rows := by
  have walked : (onRows schema rows .beforeFirst).remaining.2 = _ :=
    remainingAfter_onRows admitted (rows.length + 1) [] rfl (by omega)
  rwa [List.reverse_nil, List.nil_append, List.drop_zero] at walked

end Reader

end Columnar
