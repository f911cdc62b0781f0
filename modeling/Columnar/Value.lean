/-!
# Values

The scalars a column can hold, and the values built from them: arrays of values and tuples of
values. Equality of values is exact, so two doubles are equal when their bits are; the comparison
of IEEE arithmetic is the separate function `Value.ieeeEq`.
-/

namespace Columnar

/-- The three shapes of a column and of a value. -/
inductive Kind where
  | scalar
  | array
  | tuple
  deriving DecidableEq

namespace Kind

/-- The name of a shape in messages. -/
def name : Kind → String
  | .scalar => "Scalar"
  | .array => "Array"
  | .tuple => "Tuple"

end Kind

/-- The types of scalar columns. -/
inductive ScalarType where
  | integer
  | long
  | double
  | boolean
  | string
  | bytes
  deriving DecidableEq

namespace ScalarType

/-- The name of a scalar type in messages. -/
def name : ScalarType → String
  | .integer => "Integer"
  | .long => "Long"
  | .double => "Double"
  | .boolean => "Boolean"
  | .string => "String"
  | .bytes => "Bytes"

end ScalarType

/-- A 64-bit floating point number, known by its IEEE bits. Columns store and compare doubles and
never compute with them. -/
structure Double where
  bits : UInt64
  deriving DecidableEq

namespace Double

/-- Positive zero. -/
def zero : Double := ⟨0⟩

/-- The bits below the sign. -/
def magnitude (d : Double) : UInt64 :=
  d.bits &&& 0x7fffffffffffffff

/-- A double is not a number when its magnitude lies above that of infinity. -/
def isNaN (d : Double) : Bool :=
  0x7ff0000000000000 < d.magnitude

/-- IEEE comparison: what is not a number equals nothing, and the two zeros are equal. -/
def ieeeEq (left right : Double) : Bool :=
  !left.isNaN && !right.isNaN &&
    (left.bits == right.bits || (left.magnitude == 0 && right.magnitude == 0))

end Double

/-- Byte strings are equal when their bytes are. The priority makes this the one instance that the
types built on byte strings use. -/
instance (priority := 2000) byteStringDecidableEq : DecidableEq ByteArray :=
  ByteArray.instDecidableEq

/-- A scalar value. -/
inductive Scalar where
  | int (value : Int32)
  | long (value : Int64)
  | double (value : Double)
  | bool (value : Bool)
  | string (value : String)
  | bytes (value : ByteArray)
  deriving DecidableEq

namespace Scalar

/-- The type of a scalar value. -/
def type : Scalar → ScalarType
  | .int _ => .integer
  | .long _ => .long
  | .double _ => .double
  | .bool _ => .boolean
  | .string _ => .string
  | .bytes _ => .bytes

/-- Equality with IEEE comparison of doubles. -/
def ieeeEq : Scalar → Scalar → Bool
  | .double left, .double right => left.ieeeEq right
  | left, right => left == right

end Scalar

/-- A value of any column. An array holds its elements in order, and a tuple one value per column
in the order of its columns. -/
inductive Value where
  | scalar (value : Scalar)
  | array (items : List Value)
  | tuple (items : List Value)

namespace Value

/-- The shape of a value. -/
def kind : Value → Kind
  | .scalar _ => .scalar
  | .array _ => .array
  | .tuple _ => .tuple

/-- The scalar that a value is, if it is one. -/
def scalar? : Value → Option Scalar
  | .scalar value => some value
  | _ => none

mutual

/-- Equality with IEEE comparison of doubles at every depth. -/
def ieeeEq : Value → Value → Bool
  | .scalar left, .scalar right => left.ieeeEq right
  | .array left, .array right => ieeeEqItems left right
  | .tuple left, .tuple right => ieeeEqItems left right
  | _, _ => false

/-- Item by item equality of lists of one length, with IEEE comparison of doubles. -/
def ieeeEqItems : List Value → List Value → Bool
  | [], [] => true
  | left :: lefts, right :: rights => ieeeEq left right && ieeeEqItems lefts rights
  | _, _ => false

end

mutual

/-- Whether two values are exactly the same, doubles by their bits. -/
def same : Value → Value → Bool
  | .scalar left, .scalar right => left == right
  | .array left, .array right => sameItems left right
  | .tuple left, .tuple right => sameItems left right
  | _, _ => false

/-- Whether two lists hold exactly the same values. -/
def sameItems : List Value → List Value → Bool
  | [], [] => true
  | left :: lefts, right :: rights => same left right && sameItems lefts rights
  | _, _ => false

end

mutual

theorem same_iff : ∀ left right : Value, same left right = true ↔ left = right
  | .scalar left, .scalar right => by simp [same]
  | .array left, .array right => by simp [same, sameItems_iff left right]
  | .tuple left, .tuple right => by simp [same, sameItems_iff left right]
  | .scalar _, .array _ | .scalar _, .tuple _ | .array _, .scalar _ | .array _, .tuple _
  | .tuple _, .scalar _ | .tuple _, .array _ => by simp [same]

theorem sameItems_iff : ∀ left right : List Value, sameItems left right = true ↔ left = right
  | [], [] => by simp [sameItems]
  | left :: lefts, right :: rights => by
      simp [sameItems, same_iff left right, sameItems_iff lefts rights]
  | [], _ :: _ | _ :: _, [] => by simp [sameItems]

end

instance : DecidableEq Value := fun left right =>
  decidable_of_iff (same left right = true) (same_iff left right)

end Value

end Columnar
