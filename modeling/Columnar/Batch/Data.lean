import Columnar.Batch.Leaf

/-!
# Column data

The data of a sealed column: a leaf, a list given by offsets into its items, or a struct of
columns of one length. Slicing a list keeps all its items and narrows the offsets.
-/

namespace Columnar

mutual

/-- The data of a sealed column. -/
inductive ColumnData where
  | leaf (values : Leaf)
  | list (offsets : Array Nat) (items : ColumnData)
  | struct (rows : Nat) (columns : DataColumns)
  deriving DecidableEq

/-- The columns of a struct, in order, each with its name. -/
inductive DataColumns where
  | nil
  | cons (name : String) (data : ColumnData) (rest : DataColumns)
  deriving DecidableEq

end

namespace ColumnData

/-- The number of rows or elements of a column. -/
def length : ColumnData → Nat
  | .leaf values => values.length
  | .list offsets _ => offsets.size - 1
  | .struct rows _ => rows

end ColumnData

namespace DataColumns

/-- The number of columns of a struct. -/
def count : DataColumns → Nat
  | .nil => 0
  | .cons _ _ rest => rest.count + 1

/-- The columns of a struct as a list. -/
def toList : DataColumns → List (String × ColumnData)
  | .nil => []
  | .cons name data rest => (name, data) :: rest.toList

/-- The struct columns of a list. -/
def ofList : List (String × ColumnData) → DataColumns
  | [] => .nil
  | (name, data) :: rest => .cons name data (ofList rest)

/-- The data of the columns, in order. -/
def datas (columns : DataColumns) : List ColumnData :=
  columns.toList.map Prod.snd

end DataColumns

mutual

/-- The Arrow type of a column. -/
def ColumnData.type : ColumnData → Arrow.DataType
  | .leaf values => values.type.toArrow
  | .list _ items => .list (Arrow.listItem items.type)
  | .struct _ columns => .struct columns.fields

/-- The Arrow fields of the columns of a struct. -/
def DataColumns.fields : DataColumns → Arrow.Fields
  | .nil => .nil
  | .cons name data rest => .cons (.plain name data.type) rest.fields

end

mutual

/-- The rows of a column from `offset` on, `length` of them. -/
def ColumnData.slice (offset length : Nat) : ColumnData → ColumnData
  | .leaf values => .leaf (values.slice offset length)
  | .list offsets items => .list (offsets.extract offset (offset + length + 1)) items
  | .struct _ columns => .struct length (columns.slice offset length)

/-- The rows of every column of a struct from `offset` on, `length` of them. -/
def DataColumns.slice (offset length : Nat) : DataColumns → DataColumns
  | .nil => .nil
  | .cons name data rest => .cons name (data.slice offset length) (rest.slice offset length)

end

end Columnar
