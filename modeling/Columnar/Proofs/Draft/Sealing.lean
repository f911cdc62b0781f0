import Columnar.Proofs.Batch.Assembly
import Columnar.Proofs.Batch.Contents
import Columnar.Proofs.Draft.Simulation
import Columnar.Proofs.Solid

/-!
# Sealing

A draft without a row in progress seals: its columns pass every check by which columns are put
together, and the batch has just the saved rows.
-/

namespace Columnar

/-- Offsets within the items that they point at make a list. -/
private theorem ofItems?_offsetsOf {sizes : List Nat} {items : ColumnData}
    (covered : sizes.sum = items.length) :
    ColumnData.ofItems? (offsetsOf sizes).toArray items =
      .ok (.list (offsetsOf sizes).toArray items) := by
  rw [ColumnData.ofItems?_eq_ok_iff, List.back?_toArray, getLast?_offsetsOf, Option.getD_some]
  exact ⟨disordered_offsetsOf sizes, Nat.le_of_eq covered, rfl⟩

/-- The columns of rows, under their names, are the contents of a struct. -/
private theorem zip_names_saved (capacity : Nat) (parent : String) (schema : Schema)
    (rows : List (List Value)) :
    (Nodes.saved capacity parent schema rows).names.zip (DataColumns.ofRows schema rows).datas =
      (DataColumns.ofRows schema rows).toList := by
  cases schema with
  | nil => rfl
  | cons name type rest =>
    rw [Nodes.saved_cons]
    exact congrArg ((name, _) :: ·) (zip_names_saved capacity parent rest (rows.map List.tail))

private theorem head?_datas_ofRows {schema : Schema} (filled : schema.isEmpty = false)
    (rows : List (List Value)) :
    ((DataColumns.ofRows schema rows).datas.head?.map ColumnData.length).getD 0 = rows.length := by
  cases schema with
  | nil => cases filled
  | cons name type rest =>
    simp [DataColumns.ofRows, DataColumns.datas, DataColumns.toList]

private theorem ofColumns?_ofRows (capacity : Nat) (parent : String) {schema : Schema}
    (filled : schema.isEmpty = false) (rows : List (List Value)) :
    ColumnData.ofColumns? (Nodes.saved capacity parent schema rows).names
        (DataColumns.ofRows schema rows).datas =
      .ok (.struct rows.length (.ofRows schema rows)) := by
  have equal : ∀ column ∈ (DataColumns.ofRows schema rows).toList,
      column.2.length = rows.length := by
    intro column member
    exact DataColumns.length_of_mem_ofRows schema rows column.2
      (List.mem_map_of_mem (f := Prod.snd) member)
  have counted : (DataColumns.ofRows schema rows).toList.length =
      (DataColumns.ofRows schema rows).datas.length := by
    rw [DataColumns.datas, List.length_map]
  unfold ColumnData.ofColumns?
  simp only [zip_names_saved, head?_datas_ofRows filled, if_pos counted,
    ColumnData.findUnequal?_eq_none_iff.mpr equal, DataColumns.ofList_toList]

mutual

/-- A column with nothing in progress seals to the column of its values. -/
theorem Node.data?_saved (capacity : Nat) : ∀ (path : String) (type : ColumnType)
    (values : List Value), type.Solid →
    (Node.saved capacity path type values).data? = .ok (.ofValues type values)
  | path, .scalar type, values, _ => by
      rw [Node.saved_scalar, Node.data?, ScalarBuffer.toLeaf?_ofScalars]
      rfl
  | path, .array element, values, solid => by
      have below := Node.data?_saved capacity path element (values.flatMap Value.items) solid
      have covered : (Value.sizes values).sum =
          (ColumnData.ofValues element (values.flatMap Value.items)).length := by
        rw [Value.sum_sizes, ColumnData.length_ofValues]
      rw [Node.saved_array, Node.data?, below, ColumnData.ofValues]
      exact ofItems?_offsetsOf covered
  | path, .tuple columns, values, solid => by
      have below := Nodes.datas?_saved capacity path columns (values.map Value.items) solid.2
      have struct := ofColumns?_ofRows capacity path solid.1 (values.map Value.items)
      rw [List.length_map] at struct
      rw [Node.saved_tuple, Node.data?, below]
      exact struct

/-- Columns with nothing in progress seal to the columns of their rows. -/
theorem Nodes.datas?_saved (capacity : Nat) : ∀ (parent : String) (schema : Schema)
    (rows : List (List Value)), schema.Solid →
    (Nodes.saved capacity parent schema rows).datas? = .ok (DataColumns.ofRows schema rows).datas
  | _, .nil, _, _ => rfl
  | parent, .cons name type rest, rows, solid => by
      have first := Node.data?_saved capacity (childPath parent name) type
        (rows.map Value.firstItem) solid.1
      have others := Nodes.datas?_saved capacity parent rest (rows.map List.tail) solid.2
      rw [Nodes.saved_cons, Nodes.datas?, first, others]
      rfl

end

/-! ### The batch -/

/-- The batch that has the rows of a list. -/
def Batch.ofRows (schema : Schema) (rows : List Value) : Batch :=
  ⟨schema.toArrow, rows.length, (DataColumns.ofRows schema (rows.map Value.items)).datas⟩

private theorem length_fields : ∀ columns : DataColumns,
    columns.fields.toList.length = columns.datas.length
  | .nil => rfl
  | .cons _ _ rest => congrArg (· + 1) (length_fields rest)

private theorem findMistyped?_fields : ∀ (columns : DataColumns) (position : Nat),
    Batch.findMistyped? position columns.fields.toList columns.datas = none
  | .nil, _ => rfl
  | .cons name data rest, position => by
      have typed : data.type = (Arrow.Field.plain name data.type).type := rfl
      exact (if_pos typed).trans (findMistyped?_fields rest (position + 1))

/-- The columns of rows pass the checks of a batch. -/
theorem Batch.assemble?_ofRows (schema : Schema) (rows : List Value) :
    Batch.assemble? schema.toArrow rows.length
        (DataColumns.ofRows schema (rows.map Value.items)).datas =
      .ok (.ofRows schema rows) := by
  have equal : ((DataColumns.ofRows schema (rows.map Value.items)).datas.any
      fun column => column.length != rows.length) = false := by
    rw [List.any_eq_false]
    intro column member
    have length := DataColumns.length_of_mem_ofRows schema _ column member
    rw [List.length_map] at length
    simp [length]
  have typed := findMistyped?_fields (DataColumns.ofRows schema (rows.map Value.items)) 0
  have counted := length_fields (DataColumns.ofRows schema (rows.map Value.items))
  rw [DataColumns.fields_ofRows] at typed counted
  unfold Batch.assemble?
  rw [if_neg (not_not_intro counted), if_neg (by simp [equal]), typed]
  rfl

/-- A draft that is finished gives the batch of its saved rows. -/
theorem Draft.finish_draft {schema : Schema} (solid : schema.Solid) (limits : Limits)
    (machine : RowMachine) :
    (machine.draft schema limits).finish.2.result = .ok (.ofRows schema machine.rows) := by
  have datas := Nodes.datas?_saved limits.bufferBytes "" schema
    (machine.rows.map Value.items) solid
  have batch : ((machine.discard schema).draft schema limits).batch? =
      .ok (.ofRows schema machine.rows) := by
    rw [batch?]
    change (Nodes.saved limits.bufferBytes "" schema
      (machine.rows.map Value.items)).datas? >>= _ = _
    rw [datas]
    exact Batch.assemble?_ofRows schema machine.rows
  have writing : (machine.draft schema limits).phase = .writing := rfl
  rw [finish, writing]
  simp only [discardRow_draft, batch]

end Columnar
