import Columnar.Schema.Arrow

/-!
# Leaves

The values of a sealed scalar column.
-/

namespace Columnar

/-- The values of a scalar column, in row or element order. -/
inductive Leaf where
  | int (values : Array Int32)
  | long (values : Array Int64)
  | double (values : Array Double)
  | bool (values : Array Bool)
  | string (values : Array String)
  | bytes (values : Array ByteArray)
  deriving DecidableEq

namespace Leaf

/-- The scalar type of the values. -/
def type : Leaf → ScalarType
  | .int _ => .integer
  | .long _ => .long
  | .double _ => .double
  | .bool _ => .boolean
  | .string _ => .string
  | .bytes _ => .bytes

/-- The number of values. -/
def length : Leaf → Nat
  | .int values => values.size
  | .long values => values.size
  | .double values => values.size
  | .bool values => values.size
  | .string values => values.size
  | .bytes values => values.size

/-- The value at an index. -/
def get? (leaf : Leaf) (index : Nat) : Option Scalar :=
  match leaf with
  | .int values => values[index]?.map .int
  | .long values => values[index]?.map .long
  | .double values => values[index]?.map .double
  | .bool values => values[index]?.map .bool
  | .string values => values[index]?.map .string
  | .bytes values => values[index]?.map .bytes

/-- The `length` values from `offset` on. -/
def slice (offset length : Nat) : Leaf → Leaf
  | .int values => .int (values.extract offset (offset + length))
  | .long values => .long (values.extract offset (offset + length))
  | .double values => .double (values.extract offset (offset + length))
  | .bool values => .bool (values.extract offset (offset + length))
  | .string values => .string (values.extract offset (offset + length))
  | .bytes values => .bytes (values.extract offset (offset + length))

/-- There is a value at an index exactly when the index is below the length. -/
theorem get?_isSome_iff (leaf : Leaf) (index : Nat) :
    (leaf.get? index).isSome ↔ index < leaf.length := by
  cases leaf <;> simp [get?, length]

end Leaf

end Columnar
