import Columnar.Schema.Index

/-!
# Schemas in Arrow

Every schema has an Arrow schema, with no field nullable and every list item named alike. Of the
Arrow schemas, those made of the six scalar types, lists and structs have a schema here, whatever
their nullability, their item names and their metadata.
-/

namespace Columnar

namespace ScalarType

/-- The Arrow type that holds a scalar type. -/
def toPrimitive : ScalarType → Arrow.Primitive
  | .integer => .int32
  | .long => .int64
  | .double => .float64
  | .boolean => .boolean
  | .string => .utf8
  | .bytes => .binary

/-- The Arrow type of a scalar column. -/
def toArrow (type : ScalarType) : Arrow.DataType :=
  .primitive type.toPrimitive

/-- The scalar type that an Arrow type holds, if it holds one. -/
def ofPrimitive? : Arrow.Primitive → Option ScalarType
  | .int32 => some .integer
  | .int64 => some .long
  | .float64 => some .double
  | .boolean => some .boolean
  | .utf8 => some .string
  | .binary => some .bytes
  | _ => none

/-- The Arrow type of a scalar type holds that scalar type. -/
@[simp] theorem ofPrimitive?_toPrimitive (type : ScalarType) :
    ofPrimitive? type.toPrimitive = some type := by
  cases type <;> rfl

end ScalarType

namespace Arrow

/-- The item of a list: never null, and of one name for every list. -/
def listItem (type : DataType) : Field :=
  .plain "item" type

end Arrow

mutual

/-- The Arrow type of a column. -/
def ColumnType.toArrow : ColumnType → Arrow.DataType
  | .scalar type => type.toArrow
  | .array element => .list (Arrow.listItem element.toArrow)
  | .tuple columns => .struct columns.toArrow

/-- The Arrow fields of the columns of a schema. -/
def Schema.toArrow : Schema → Arrow.Fields
  | .nil => .nil
  | .cons name type rest => .cons (.plain name type.toArrow) rest.toArrow

end

/-- The Arrow schema of a schema. -/
def IndexedSchema.toArrow (schema : IndexedSchema) : Arrow.Schema :=
  ⟨schema.columns.toArrow, []⟩

mutual

/-- The column type of an Arrow type. A fault below a list or at a struct is reported under `name`,
the name of the column that encloses it. -/
def ColumnType.ofArrow (name : String) : Arrow.DataType → Except SchemaError ColumnType
  | .primitive primitive =>
      match ScalarType.ofPrimitive? primitive with
      | some type => .ok (.scalar type)
      | none => .error (.unsupportedType name (.primitive primitive))
  | .list (.mk _ item _ _) => do
      let element ← ColumnType.ofArrow name item
      pure (.array element)
  | .struct fields => do
      let columns ← Schema.ofArrowFields fields
      if columns.isEmpty then .error (.emptyTuple name)
      else
        columns.check
        pure (.tuple columns)
  | other => .error (.unsupportedType name other)

/-- The columns of Arrow fields, before they are checked as the columns of one tuple. -/
def Schema.ofArrowFields : Arrow.Fields → Except SchemaError Schema
  | .nil => .ok .nil
  | .cons (.mk name type _ _) rest => do
      let columnType ← ColumnType.ofArrow name type
      let columns ← Schema.ofArrowFields rest
      pure (.cons name columnType columns)

end

/-- The schema of an Arrow schema. -/
def IndexedSchema.ofArrow (schema : Arrow.Schema) : Except SchemaError IndexedSchema := do
  let columns ← Schema.ofArrowFields schema.fields
  columns.indexed?

end Columnar
