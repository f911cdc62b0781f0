import Columnar.Text.Quoted

/-!
# Arrow data types

The types an Arrow schema can name, with the fields of nested types, and the text that shows a
type with its whole structure.
-/

namespace Columnar.Arrow

/-- The types without parameters. -/
inductive Primitive where
  | null
  | boolean
  | int8
  | int16
  | int32
  | int64
  | uint8
  | uint16
  | uint32
  | uint64
  | float16
  | float32
  | float64
  | date32
  | date64
  | binary
  | largeBinary
  | binaryView
  | utf8
  | largeUtf8
  | utf8View
  deriving DecidableEq

namespace Primitive

/-- Every type without parameters. -/
def all : List Primitive :=
  [.null, .boolean, .int8, .int16, .int32, .int64, .uint8, .uint16, .uint32, .uint64, .float16,
    .float32, .float64, .date32, .date64, .binary, .largeBinary, .binaryView, .utf8, .largeUtf8,
    .utf8View]

/-- The name of a type without parameters. -/
def name : Primitive → String
  | .null => "Null"
  | .boolean => "Boolean"
  | .int8 => "Int8"
  | .int16 => "Int16"
  | .int32 => "Int32"
  | .int64 => "Int64"
  | .uint8 => "UInt8"
  | .uint16 => "UInt16"
  | .uint32 => "UInt32"
  | .uint64 => "UInt64"
  | .float16 => "Float16"
  | .float32 => "Float32"
  | .float64 => "Float64"
  | .date32 => "Date32"
  | .date64 => "Date64"
  | .binary => "Binary"
  | .largeBinary => "LargeBinary"
  | .binaryView => "BinaryView"
  | .utf8 => "Utf8"
  | .largeUtf8 => "LargeUtf8"
  | .utf8View => "Utf8View"

/-- The type of a given name. -/
def ofName? (text : String) : Option Primitive :=
  all.find? fun primitive => primitive.name == text

end Primitive

/-- The units of time stamps and durations. -/
inductive TimeUnit where
  | second
  | millisecond
  | microsecond
  | nanosecond
  deriving DecidableEq

namespace TimeUnit

/-- Every unit, from the longest. -/
def all : List TimeUnit :=
  [.second, .millisecond, .microsecond, .nanosecond]

/-- The name of a unit. -/
def name : TimeUnit → String
  | .second => "Second"
  | .millisecond => "Millisecond"
  | .microsecond => "Microsecond"
  | .nanosecond => "Nanosecond"

/-- The unit of a given name. -/
def ofName? (text : String) : Option TimeUnit :=
  all.find? fun unit => unit.name == text

end TimeUnit

/-- The units of calendar intervals. -/
inductive IntervalUnit where
  | yearMonth
  | dayTime
  | monthDayNano
  deriving DecidableEq

namespace IntervalUnit

/-- The name of a unit of intervals. -/
def name : IntervalUnit → String
  | .yearMonth => "YearMonth"
  | .dayTime => "DayTime"
  | .monthDayNano => "MonthDayNano"

end IntervalUnit

/-- How the values of a union are laid out. -/
inductive UnionMode where
  | sparse
  | dense
  deriving DecidableEq

namespace UnionMode

/-- The name of a layout of unions. -/
def name : UnionMode → String
  | .sparse => "Sparse"
  | .dense => "Dense"

end UnionMode

/-- What is noted about a field or a schema, by key. -/
abbrev Metadata := List (String × String)

mutual

/-- The type of an Arrow column. -/
inductive DataType where
  | primitive (primitive : Primitive)
  | list (item : Field)
  | listView (item : Field)
  | largeList (item : Field)
  | largeListView (item : Field)
  | fixedSizeList (item : Field) (size : Int)
  | struct (fields : Fields)
  | union (variants : Variants) (mode : UnionMode)
  | map (entries : Field) (sorted : Bool)
  | fixedSizeBinary (size : Int)
  | decimal128 (precision : Nat) (scale : Int)
  | decimal256 (precision : Nat) (scale : Int)
  | timestamp (unit : TimeUnit) (zone : Option String)
  | time32 (unit : TimeUnit)
  | time64 (unit : TimeUnit)
  | duration (unit : TimeUnit)
  | interval (unit : IntervalUnit)
  | dictionary (key value : DataType)
  | runEndEncoded (ends values : Field)
  deriving DecidableEq

/-- A named column of a struct or of a schema, or the item of a list. -/
inductive Field where
  | mk (name : String) (type : DataType) (nullable : Bool) (metadata : Metadata)
  deriving DecidableEq

/-- The fields of a struct or of a schema, in order. -/
inductive Fields where
  | nil
  | cons (field : Field) (rest : Fields)
  deriving DecidableEq

/-- The alternatives of a union, in order, each with its tag. -/
inductive Variants where
  | nil
  | cons (tag : Int) (field : Field) (rest : Variants)
  deriving DecidableEq

end

namespace Field

/-- The name of a field. -/
def name : Field → String
  | .mk name _ _ _ => name

/-- The type of a field. -/
def type : Field → DataType
  | .mk _ type _ _ => type

/-- Whether a field may hold nulls. -/
def nullable : Field → Bool
  | .mk _ _ nullable _ => nullable

/-- A field that holds no nulls and has no metadata. -/
def plain (name : String) (type : DataType) : Field :=
  .mk name type false []

end Field

namespace Fields

/-- The fields as a list. -/
def toList : Fields → List Field
  | .nil => []
  | .cons field rest => field :: rest.toList

/-- The fields of a list. -/
def ofList : List Field → Fields
  | [] => .nil
  | field :: rest => .cons field (ofList rest)

/-- Fields of a list come back as that list. -/
@[simp] theorem toList_ofList (fields : List Field) : (ofList fields).toList = fields := by
  induction fields with
  | nil => rfl
  | cons field rest inductionHypothesis => simp [ofList, toList, inductionHypothesis]

/-- A list of all fields gives the fields back. -/
@[simp] theorem ofList_toList (fields : Fields) : ofList fields.toList = fields := by
  match fields with
  | .nil => rfl
  | .cons field rest => simp [ofList, toList, ofList_toList rest]

end Fields

/-- The schema of a batch. -/
structure Schema where
  fields : Fields
  metadata : Metadata
  deriving DecidableEq

/-- The time zone of a time stamp, in the text of its type. -/
def zoneText : Option String → String
  | none => "None"
  | some zone => "Some(" ++ Text.quote zone ++ ")"

/-- The text of metadata. -/
def metadataText (metadata : Metadata) : String :=
  let entry : String × String → String := fun (key, value) =>
    Text.quote key ++ ": " ++ Text.quote value
  "\x7b" ++ String.intercalate ", " (metadata.map entry) ++ "\x7d"

mutual

/-- The text of a type with its whole structure. -/
def DataType.text : DataType → String
  | .primitive primitive => primitive.name
  | .list item => "List(" ++ item.text ++ ")"
  | .listView item => "ListView(" ++ item.text ++ ")"
  | .largeList item => "LargeList(" ++ item.text ++ ")"
  | .largeListView item => "LargeListView(" ++ item.text ++ ")"
  | .fixedSizeList item size => "FixedSizeList(" ++ item.text ++ ", " ++ toString size ++ ")"
  | .struct fields => "Struct([" ++ String.intercalate ", " fields.texts ++ "])"
  | .union variants mode =>
      "Union([" ++ String.intercalate ", " variants.texts ++ "], " ++ mode.name ++ ")"
  | .map entries sorted => "Map(" ++ entries.text ++ ", " ++ toString sorted ++ ")"
  | .fixedSizeBinary size => "FixedSizeBinary(" ++ toString size ++ ")"
  | .decimal128 precision scale =>
      "Decimal128(" ++ toString precision ++ ", " ++ toString scale ++ ")"
  | .decimal256 precision scale =>
      "Decimal256(" ++ toString precision ++ ", " ++ toString scale ++ ")"
  | .timestamp unit zone => "Timestamp(" ++ unit.name ++ ", " ++ zoneText zone ++ ")"
  | .time32 unit => "Time32(" ++ unit.name ++ ")"
  | .time64 unit => "Time64(" ++ unit.name ++ ")"
  | .duration unit => "Duration(" ++ unit.name ++ ")"
  | .interval unit => "Interval(" ++ unit.name ++ ")"
  | .dictionary key value => "Dictionary(" ++ key.text ++ ", " ++ value.text ++ ")"
  | .runEndEncoded ends values => "RunEndEncoded(" ++ ends.text ++ ", " ++ values.text ++ ")"

/-- The text of a field. Dictionary marks are always those of a field without any. -/
def Field.text : Field → String
  | .mk name type nullable metadata =>
      "Field \x7b name: " ++ Text.quote name ++ ", data_type: " ++ type.text ++ ", nullable: " ++
        toString nullable ++ ", dict_id: 0, dict_is_ordered: false, metadata: " ++
        metadataText metadata ++ " \x7d"

/-- The texts of the fields, in order. -/
def Fields.texts : Fields → List String
  | .nil => []
  | .cons field rest => field.text :: rest.texts

/-- The texts of the alternatives of a union, in order. -/
def Variants.texts : Variants → List String
  | .nil => []
  | .cons tag field rest => ("(" ++ toString tag ++ ", " ++ field.text ++ ")") :: rest.texts

end

end Columnar.Arrow
