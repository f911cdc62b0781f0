import Columnar.Proofs.Draft.Columns
import Columnar.Proofs.Reader.Scan

/-!
# Well-formed batches

Sealing never fails, and the batch that it gives is well formed at every depth: the columns of a
tuple are of one length, the offsets of an array cover just its items, and every text is one.
-/

namespace Columnar

mutual

/-- Whether a sealed column is well formed: the offsets of every list in it begin at zero, never
decrease and end with the last item, and the columns of every struct are as long as the struct. -/
def ColumnData.WellFormed : ColumnData → Prop
  | .leaf _ => True
  | .list offsets items =>
      OffsetsRise offsets ∧ offsets.back? = some items.length ∧ items.WellFormed
  | .struct rows columns => columns.WellFormed rows

/-- Whether columns are well formed and have a number of rows each. -/
def DataColumns.WellFormed (rows : Nat) : DataColumns → Prop
  | .nil => True
  | .cons _ data rest => data.length = rows ∧ data.WellFormed ∧ rest.WellFormed rows

end

mutual

/-- The sealed column of given values is well formed. -/
theorem ColumnData.wellFormed_ofValues : ∀ (type : ColumnType) (values : List Value),
    (ColumnData.ofValues type values).WellFormed
  | .scalar _, _ => trivial
  | .array element, values => by
      refine ⟨offsetsRise_offsetsOf _, ?_, ColumnData.wellFormed_ofValues element _⟩
      rw [List.back?_toArray, getLast?_offsetsOf, Value.sum_sizes, ColumnData.length_ofValues]
  | .tuple columns, values => by
      have below := DataColumns.wellFormed_ofRows columns (values.map Value.items)
      rw [List.length_map] at below
      exact below

/-- The sealed columns of given rows are well formed, with as many rows. -/
theorem DataColumns.wellFormed_ofRows : ∀ (schema : Schema) (rows : List (List Value)),
    (DataColumns.ofRows schema rows).WellFormed rows.length
  | .nil, _ => trivial
  | .cons _ type rest, rows => by
      have others := DataColumns.wellFormed_ofRows rest (rows.map List.tail)
      rw [List.length_map] at others
      refine ⟨?_, ColumnData.wellFormed_ofValues type _, others⟩
      rw [ColumnData.length_ofValues, List.length_map]

end

/-- Each of some well-formed columns is well formed. -/
theorem DataColumns.WellFormed.of_mem {rows : Nat} {data : ColumnData} :
    ∀ {columns : DataColumns}, columns.WellFormed rows → data ∈ columns.datas →
      data.length = rows ∧ data.WellFormed
  | .nil, _, member => nomatch member
  | .cons _ _ _, wellFormed, member => by
      rcases List.mem_cons.mp member with rfl | later
      · exact ⟨wellFormed.1, wellFormed.2.1⟩
      · exact DataColumns.WellFormed.of_mem wellFormed.2.2 later

/-- Columns have the types of their Arrow fields. -/
theorem DataColumns.map_type_datas : ∀ columns : DataColumns,
    columns.datas.map ColumnData.type = columns.fields.toList.map Arrow.Field.type
  | .nil => rfl
  | .cons _ data rest => congrArg (data.type :: ·) (DataColumns.map_type_datas rest)

/-- The bytes of every text that a column holds are valid UTF-8. -/
theorem Node.Holds.isValidUTF8 {capacity slot : Nat} {path : String} {strings : ByteStrings}
    (holds : (Node.scalar path (.string strings)).Holds capacity slot) {bytes : ByteArray}
    (member : bytes ∈ strings.values) : bytes.IsValidUTF8 := by
  obtain ⟨type, saved, last, -, held⟩ := holds.scalar
  cases type with
  | string =>
    obtain rfl := ScalarBuffer.string.inj held
    rw [ByteStrings.values_ofList, List.mem_toArray, List.mem_map] at member
    obtain ⟨value, _, rfl⟩ := member
    exact value.toText.isValidUTF8
  | _ => cases held

/-- Every draft of a checked schema that only was written can be finished, with a row in progress
or without one. The batch has the saved rows and the Arrow fields of the schema, its columns are
well formed and of that many rows each, and it can be read. What the columns of texts hold up to
then is valid UTF-8. -/
theorem Draft.finish_wellFormed {schema : Schema} (checked : schema.checkAll = .ok ())
    (limits : Limits) {actions : List Action}
    (writes : ∀ action ∈ actions, action.isWrite = true) :
    let draft := (ofSchema schema limits).run actions
    (∃ batch reader, draft.finish.2.result = .ok batch ∧
      (SealedSet.mk schema (some batch)).reader = .ok reader ∧
      batch.rows = draft.row ∧ batch.fields = schema.toArrow ∧
      batch.columns.map ColumnData.type = schema.toArrow.toList.map Arrow.Field.type ∧
      ∀ column ∈ batch.columns, column.length = draft.row ∧ column.WellFormed) ∧
    ∀ steps address slot path strings,
      draft.root.Leads steps draft.row address slot (.scalar path (.string strings)) →
      ∀ bytes ∈ strings.values, bytes.IsValidUTF8 := by
  intro draft
  constructor
  · obtain ⟨follows, _⟩ := run_ofSchema schema limits writes
    have same : draft = (RowMachine.ofRun schema limits actions).draft schema limits := follows
    have finished := finish_draft (Schema.solid_of_checkAll checked) limits
      (RowMachine.ofRun schema limits actions)
    rw [same]
    refine ⟨_, _, finished, SealedSet.reader_ofRows schema _, rfl, rfl, ?_, ?_⟩
    · rw [Batch.ofRows, DataColumns.map_type_datas, DataColumns.fields_ofRows]
    · intro column member
      have wellFormed := DataColumns.wellFormed_ofRows schema
        ((RowMachine.ofRun schema limits actions).rows.map Value.items)
      rw [List.length_map] at wellFormed
      exact wellFormed.of_mem member
  · intro steps address slot path strings leads bytes member
    exact (holds_of_leads schema limits writes leads).isValidUTF8 member

/-- A batch of one row, sealed while an element of an array of tuples and a text are in progress. -/
theorem Draft.finish_wellFormed_inProgress :
    let schema : Schema :=
      .cons "points" (.array (.tuple (.cons "x" (.scalar .integer)
        (.cons "tags" (.array (.scalar .string)) .nil)))) (.cons "name" (.scalar .string) .nil)
    let points : List Step := [.column (.position 0)]
    let tag : List Step := [.column (.position 0), .entry, .column (.name "tags"), .entry]
    let actions : List Action :=
      [.edit tag (.set (.string "a")), .edit tag (.set (.string "b")), .edit points .saveElement,
        .edit points .saveElement, .save, .edit tag (.set (.string "c")),
        .edit [.column (.name "name")] (.set (.string "d"))]
    let draft := (ofSchema schema ⟨4, 16⟩).run actions
    schema.checkAll = .ok () ∧ (∀ action ∈ actions, action.isWrite = true) ∧
      draft.discardRow ≠ draft ∧
      ∃ batch reader, draft.finish.2.result = .ok batch ∧
        (SealedSet.mk schema (some batch)).reader = .ok reader ∧ batch.rows = 1 ∧
        ∀ column ∈ batch.columns, column.length = 1 ∧ column.WellFormed := by
  intro schema points tag actions draft
  have checked : schema.checkAll = .ok () := rfl
  have writes : ∀ action ∈ actions, action.isWrite = true := by decide
  have saved : draft.row = 1 := by decide +kernel
  have sealing := (finish_wellFormed checked ⟨4, 16⟩ writes).1
  rw [show (ofSchema schema ⟨4, 16⟩).run actions = draft from rfl, saved] at sealing
  obtain ⟨batch, reader, finished, read, rows, _, _, columns⟩ := sealing
  exact ⟨checked, writes, by decide +kernel, batch, reader, finished, read, rows, columns⟩

end Columnar
