import Columnar.Proofs.Conformance
import Mathlib.Algebra.GroupWithZero.Nat

/-!
# Parts of values

The parts of values that the columns of a type store one after the other: the scalars of a scalar
column, the elements of an array, and the items of a tuple.
-/

namespace Columnar

namespace Value

/-- The scalar that a value is, or the blank one of a type. -/
def leaf (type : ScalarType) (value : Value) : Scalar :=
  value.scalar?.getD type.blank

/-- The elements of an array, or the items of a tuple. -/
def items : Value → List Value
  | .scalar _ => []
  | .array items => items
  | .tuple items => items

/-- How many elements or items each of some values has. -/
def sizes (values : List Value) : List Nat :=
  values.map fun value => value.items.length

/-- The first of the items of a tuple. -/
def firstItem (items : List Value) : Value :=
  items.headD (.tuple [])

@[simp] theorem length_sizes (values : List Value) : (sizes values).length = values.length :=
  List.length_map _

/-- The sizes of all values together are the number of all their elements. -/
theorem sum_sizes (values : List Value) :
    (sizes values).sum = (values.flatMap Value.items).length := by
  rw [sizes, List.length_flatMap]

@[simp] theorem take_sizes (values : List Value) (count : Nat) :
    (sizes values).take count = sizes (values.take count) :=
  List.map_take.symm

end Value

/-- A scalar behind the values is stored behind their scalars. -/
theorem map_leaf_append (type : ScalarType) (saved : List Value) (value : Scalar) :
    (saved ++ [Value.scalar value]).map (Value.leaf type) =
      saved.map (Value.leaf type) ++ [value] := by
  rw [List.map_append]
  rfl

end Columnar
