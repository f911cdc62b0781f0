import Columnar.Batch.Basic
import Columnar.Proofs.Buffer.Offsets
import Columnar.Proofs.Buffer.ScalarBuffer
import Columnar.Proofs.Values

/-!
# The contents of sealed columns

`ColumnData.ofValues` is the one sealed column that has given values. It has as many rows as there
are values, and the Arrow type of its column.
-/

namespace Columnar

mutual

/-- The sealed column of a type that has the values of a list. -/
def ColumnData.ofValues : ColumnType → List Value → ColumnData
  | .scalar type, values => .leaf (.ofScalars type (values.map (Value.leaf type)))
  | .array element, values =>
      .list (offsetsOf (Value.sizes values)).toArray
        (ColumnData.ofValues element (values.flatMap Value.items))
  | .tuple columns, values =>
      .struct values.length (DataColumns.ofRows columns (values.map Value.items))

/-- The sealed columns of a schema that have the rows of a list. -/
def DataColumns.ofRows : Schema → List (List Value) → DataColumns
  | .nil, _ => .nil
  | .cons name type rest, rows =>
      .cons name (ColumnData.ofValues type (rows.map Value.firstItem))
        (DataColumns.ofRows rest (rows.map List.tail))

end

@[simp] theorem ColumnData.length_ofValues (type : ColumnType) (values : List Value) :
    (ColumnData.ofValues type values).length = values.length := by
  cases type <;> simp [ColumnData.ofValues, ColumnData.length]

@[simp] theorem DataColumns.count_ofRows : ∀ (schema : Schema) (rows : List (List Value)),
    (DataColumns.ofRows schema rows).count = schema.length
  | .nil, _ => rfl
  | .cons _ _ rest, _ => congrArg (· + 1) (DataColumns.count_ofRows rest _)

mutual

/-- A sealed column has the Arrow type of its column type. -/
theorem ColumnData.type_ofValues : ∀ (type : ColumnType) (values : List Value),
    (ColumnData.ofValues type values).type = type.toArrow
  | .scalar type, values => by
      rw [ColumnData.ofValues, ColumnData.type, Leaf.type_ofScalars, ColumnType.toArrow]
  | .array element, values => by
      rw [ColumnData.ofValues, ColumnData.type, ColumnData.type_ofValues element,
        ColumnType.toArrow]
  | .tuple columns, values => by
      rw [ColumnData.ofValues, ColumnData.type, DataColumns.fields_ofRows columns,
        ColumnType.toArrow]

/-- Sealed columns have the Arrow fields of their schema. -/
theorem DataColumns.fields_ofRows : ∀ (schema : Schema) (rows : List (List Value)),
    (DataColumns.ofRows schema rows).fields = schema.toArrow
  | .nil, _ => rfl
  | .cons name type rest, rows => by
      rw [DataColumns.ofRows, DataColumns.fields, ColumnData.type_ofValues type,
        DataColumns.fields_ofRows rest, Schema.toArrow]

end

/-- Every column of rows has as many rows as there are. -/
theorem DataColumns.length_of_mem_ofRows : ∀ (schema : Schema) (rows : List (List Value))
    (data : ColumnData), data ∈ (DataColumns.ofRows schema rows).datas → data.length = rows.length
  | .nil, _, _, member => nomatch member
  | .cons name type rest, rows, data, member => by
      rcases List.mem_cons.mp member with first | later
      · rw [first, ColumnData.length_ofValues, List.length_map]
      · have below := DataColumns.length_of_mem_ofRows rest (rows.map List.tail) data later
        rwa [List.length_map] at below

/-- A struct has as many columns as data. -/
theorem DataColumns.length_datas : ∀ columns : DataColumns, columns.datas.length = columns.count
  | .nil => rfl
  | .cons _ _ rest => congrArg (· + 1) (DataColumns.length_datas rest)

/-- The columns of a struct come back from their list. -/
@[simp] theorem DataColumns.ofList_toList : ∀ columns : DataColumns,
    DataColumns.ofList columns.toList = columns
  | .nil => rfl
  | .cons name data rest => congrArg (DataColumns.cons name data) (DataColumns.ofList_toList rest)

end Columnar
