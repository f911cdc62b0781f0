import Columnar.Batch.Data

/-!
# Assembly

The rules by which columns are put together from parts: what makes a list, a struct and a batch,
and why parts that do not fit are refused.
-/

namespace Columnar

/-- Why parts do not make a column or a batch. -/
inductive AssemblyError where
  /-- A list has no items to point at. -/
  | noItems
  /-- The last offset of a list lies past its items. -/
  | offsetPastItems (last length : Nat)
  /-- The offsets of a column are none, or one is smaller than the one before it. -/
  | decreasingOffsets
  /-- The last offset of a column of byte strings lies past its bytes. -/
  | offsetPastBytes (last length : Nat)
  /-- A text column holds bytes that are no text. -/
  | notText
  /-- An offset of a text column lies past its bytes. -/
  | offsetPastText (offset length : Nat)
  /-- An offset of a text column lies within a character. -/
  | splitText (offset : Nat)
  /-- A struct has more or fewer columns than names. -/
  | columnsPerName (names columns : Nat)
  /-- A column of a struct differs in length from the first one. -/
  | unequalLength (name : String) (expected found : Nat)
  /-- A batch has more or fewer columns than fields. -/
  | columnsPerField (fields columns : Nat)
  /-- A column of a batch has more or fewer rows than the batch. -/
  | unequalRows
  /-- A column of a batch has another type than its field. -/
  | columnType (expected found : Arrow.DataType) (position : Nat)
  /-- A buffer names a child that is not there, or is a descendant of itself. -/
  | unresolved (id : Nat)
  deriving DecidableEq

namespace AssemblyError

/-- The text of an assembly error. -/
def text : AssemblyError → String
  | .noItems => "repeated vector without entry"
  | .offsetPastItems last length => s!"Max offset of {last} exceeds length of values {length}"
  | .decreasingOffsets => "offsets must not decrease"
  | .offsetPastBytes last length =>
      s!"Maximum offset of {last} is larger than values of length {length}"
  | .notText => "Encountered non UTF-8 data"
  | .offsetPastText offset length => s!"Offset of {offset} exceeds length of values {length}"
  | .splitText offset => s!"Split UTF-8 codepoint at offset {offset}"
  | .columnsPerName names columns =>
      s!"Incorrect number of arrays for StructArray fields, expected {names} got {columns}"
  | .unequalLength name expected found =>
      "Incorrect array length for StructArray field " ++ Text.quote name ++
        s!", expected {expected} got {found}"
  | .columnsPerField fields columns =>
      s!"number of columns({columns}) must match number of fields({fields}) in schema"
  | .unequalRows => "all columns in a record batch must have the specified row count"
  | .columnType expected found position =>
      "column types must match schema types, expected " ++ expected.text ++ " but found " ++
        found.text ++ s!" at column index {position}"
  | .unresolved id => s!"no buffer {id}"

/-- The message of an assembly error. -/
def message (error : AssemblyError) : String :=
  "Invalid argument error: " ++ error.text

end AssemblyError

/-- Whether some offset is smaller than the one before it. -/
def decreases : List Nat → Bool
  | first :: second :: rest => second < first || decreases (second :: rest)
  | _ => false

/-- Whether offsets tell no values apart, because there are none or because they decrease. -/
def disordered (offsets : Array Nat) : Bool :=
  offsets.isEmpty || decreases offsets.toList

namespace ColumnData

/-- The list of the given offsets and items. There must be offsets, which must not decrease, and the
last one must lie within the items. -/
def ofItems? (offsets : Array Nat) (items : ColumnData) : Except AssemblyError ColumnData :=
  let last := offsets.back?.getD 0
  if disordered offsets then .error .decreasingOffsets
  else if items.length < last then .error (.offsetPastItems last items.length)
  else .ok (.list offsets items)

/-- The first column whose length is not `expected`, with that length. -/
def findUnequal? (expected : Nat) : List (String × ColumnData) → Option (String × Nat)
  | [] => none
  | (name, data) :: rest =>
      if data.length = expected then findUnequal? expected rest else some (name, data.length)

/-- The struct of the given columns, which must all have the length of the first. A struct without
columns has length zero. -/
def ofColumns? (names : List String) (columns : List ColumnData) :
    Except AssemblyError ColumnData :=
  let named := names.zip columns
  if named.length = columns.length then
    let length := (columns.head?.map ColumnData.length).getD 0
    match findUnequal? length named with
    | some (name, found) => .error (.unequalLength name length found)
    | none => .ok (.struct length (.ofList named))
  else .error (.columnsPerName named.length columns.length)

end ColumnData

end Columnar
