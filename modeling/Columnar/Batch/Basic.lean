import Columnar.Batch.Assembly

/-!
# Batches

A batch is a number of rows, held as columns that follow an Arrow schema. Batches are made only
through the checks of `Batch.assemble?`, and cut to a range of rows or to a choice of columns.
-/

namespace Columnar

/-- Columns of one length under an Arrow schema. -/
structure Batch where
  fields : Arrow.Fields
  rows : Nat
  columns : List ColumnData
  deriving DecidableEq

namespace Batch

/-- The first column that does not have the type of its field. -/
def findMistyped? : Nat → List Arrow.Field → List ColumnData → Option AssemblyError
  | position, field :: fields, column :: columns =>
      if column.type = field.type then findMistyped? (position + 1) fields columns
      else some (.columnType field.type column.type position)
  | _, _, _ => none

/-- The batch of the given columns, which must be one for each field, of `rows` rows each, and of
the types of their fields. -/
def assemble? (fields : Arrow.Fields) (rows : Nat) (columns : List ColumnData) :
    Except AssemblyError Batch :=
  if fields.toList.length ≠ columns.length then
    .error (.columnsPerField fields.toList.length columns.length)
  else if columns.any fun column => column.length != rows then .error .unequalRows
  else
    match findMistyped? 0 fields.toList columns with
    | some error => .error error
    | none => .ok ⟨fields, rows, columns⟩

/-- The columns with their names in the batch. -/
def namedColumns (batch : Batch) : List (String × ColumnData) :=
  (batch.fields.toList.map Arrow.Field.name).zip batch.columns

/-- The `length` rows from `offset` on, if the batch has as many. -/
def slice? (batch : Batch) (offset length : Nat) : Option Batch :=
  if offset + length ≤ batch.rows then
    some ⟨batch.fields, length, batch.columns.map fun column => column.slice offset length⟩
  else none

/-- The columns at the given positions, which may repeat, or the first position that is none. -/
def project? (batch : Batch) (positions : List Nat) : Except Nat Batch := do
  let chosen ← positions.mapM fun position =>
    match batch.fields.toList[position]?, batch.columns[position]? with
    | some field, some column => Except.ok (field, column)
    | _, _ => Except.error position
  pure ⟨.ofList (chosen.map Prod.fst), batch.rows, chosen.map Prod.snd⟩

end Batch

end Columnar
