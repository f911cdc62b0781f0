import Columnar.Proofs.Schema.Building
import Columnar.Schema.Arrow

/-!
# Reading Arrow schemas

Which Arrow schemas have a schema here, what is left of them, and what is wrong with the others.
The faults of an Arrow schema are listed as they are met: depth first and from left to right, with
the repeated names of a list of fields behind everything inside those fields.
-/

namespace Columnar

namespace Arrow

/-- The names of the fields, in order. -/
def Fields.names (fields : Fields) : List String :=
  fields.toList.map Field.name

/-- The types without parameters that a column can have. -/
def Primitive.supported : List Primitive :=
  [.int32, .int64, .float64, .boolean, .utf8, .binary]

mutual

/-- Whether there are columns of a type: it is made of supported types, lists, and structs that have
fields, all of different names. -/
def DataType.Supported : DataType → Prop
  | .primitive primitive => primitive ∈ Primitive.supported
  | .list (.mk _ item _ _) => item.Supported
  | .struct fields => fields ≠ .nil ∧ fields.names.Nodup ∧ fields.Supported
  | _ => False

/-- Whether there are columns of the types of all fields. -/
def Fields.Supported : Fields → Prop
  | .nil => True
  | .cons (.mk _ type _ _) rest => type.Supported ∧ rest.Supported

end

/-- Whether there are columns for all fields, and the fields have different names. -/
def Schema.Supported (schema : Schema) : Prop :=
  schema.fields.names.Nodup ∧ schema.fields.Supported

mutual

/-- A type with no field nullable, every list item called `item`, and no metadata. -/
def DataType.normal : DataType → DataType
  | .list (.mk _ item _ _) => .list (.mk "item" item.normal false [])
  | .struct fields => .struct fields.normal
  | other => other

/-- Fields of the same names that are not nullable, of types with no field nullable, every list item
called `item`, and no metadata. -/
def Fields.normal : Fields → Fields
  | .nil => .nil
  | .cons (.mk name type _ _) rest => .cons (.mk name type.normal false []) rest.normal

end

/-- A schema with no field nullable, every list item called `item`, and no metadata. -/
def Schema.normal (schema : Schema) : Schema :=
  ⟨schema.fields.normal, []⟩

/-- The faults of names that are among those before them or in a list of earlier ones. -/
def repeatFaults (earlier : List String) : List String → List SchemaError
  | [] => []
  | name :: rest =>
      if name ∈ earlier then .duplicateColumn name :: repeatFaults earlier rest
      else repeatFaults (name :: earlier) rest

mutual

/-- The faults of the type of a column, or of the items in its lists. They are reported under the
name of the column, but those of the fields of a struct under the names of these. -/
def DataType.faults (column : String) : DataType → List SchemaError
  | .primitive primitive =>
      if primitive ∈ Primitive.supported then []
      else [.unsupportedType column (.primitive primitive)]
  | .list (.mk _ item _ _) => item.faults column
  | .struct fields =>
      if fields = .nil then [.emptyTuple column]
      else fields.faults ++ repeatFaults [] fields.names
  | other => [.unsupportedType column other]

/-- The faults of the types of fields, field by field. -/
def Fields.faults : Fields → List SchemaError
  | .nil => []
  | .cons (.mk name type _ _) rest => type.faults name ++ rest.faults

end

/-- The faults of a schema. -/
def Schema.faults (schema : Schema) : List SchemaError :=
  schema.fields.faults ++ repeatFaults [] schema.fields.names

end Arrow

open Arrow (repeatFaults)

namespace ScalarType

/-- The types without parameters that hold a scalar type are the supported ones. -/
theorem ofPrimitive?_eq_some_iff {primitive : Arrow.Primitive} {type : ScalarType} :
    ofPrimitive? primitive = some type ↔ primitive = type.toPrimitive := by
  constructor
  · intro holds
    cases primitive <;> cases holds <;> rfl
  · rintro rfl
    exact ofPrimitive?_toPrimitive type

theorem ofPrimitive?_isSome_iff {primitive : Arrow.Primitive} :
    (ofPrimitive? primitive).isSome ↔ primitive ∈ Arrow.Primitive.supported := by
  cases primitive <;> decide

end ScalarType

/-! ### Repeated names -/

/-- Names have no fault when they differ among themselves and from the earlier ones. -/
private theorem repeatFaults_eq_nil_iff : ∀ {names earlier : List String},
    repeatFaults earlier names = [] ↔ names.Nodup ∧ ∀ name ∈ names, name ∉ earlier
  | [], _ => ⟨fun _ => ⟨List.nodup_nil, List.forall_mem_nil _⟩, fun _ => rfl⟩
  | name :: rest, earlier => by
      rw [repeatFaults, List.nodup_cons, List.forall_mem_cons]
      by_cases known : name ∈ earlier
      · rw [if_pos known]
        constructor
        · intro none
          cases none
        · rintro ⟨_, fresh, _⟩
          exact absurd known fresh
      · rw [if_neg known, repeatFaults_eq_nil_iff]
        constructor
        · rintro ⟨differ, fresh⟩
          refine ⟨⟨fun again => fresh name again (.head _), differ⟩, known, ?_⟩
          exact fun other member inside => fresh other member (.tail _ inside)
        · rintro ⟨⟨apart, differ⟩, _, fresh⟩
          refine ⟨differ, fun other member inside => ?_⟩
          rcases List.mem_cons.mp inside with rfl | inside
          · exact apart member
          · exact fresh other member inside

/-- What may come of entering columns that are no empty tuples: their names have no fault, or the
first fault of their names is the one reported. -/
private inductive Entry (names earlier : List String) : Except SchemaError NameIndex → Prop where
  | entered {index : NameIndex} (sound : repeatFaults earlier names = []) :
      Entry names earlier (.ok index)
  | refused {error : SchemaError} (first : (repeatFaults earlier names).head? = some error) :
      Entry names earlier (.error error)

private theorem entry_indexAfter : ∀ (schema : Schema) {index : NameIndex} {earlier : List String}
    (position : Nat), (∀ column ∈ schema.toList, ¬ column.type.Hollow) →
    (∀ name, (index.lookup name).isSome ↔ name ∈ earlier) →
    Entry schema.names earlier (schema.indexAfter index position)
  | .nil, _, _, _, _, _ => .entered rfl
  | .cons name type rest, index, earlier, position, filled, known => by
      obtain ⟨first, later⟩ := List.forall_mem_cons.mp filled
      have names : (Schema.cons name type rest).names = name :: rest.names := rfl
      rw [names, Schema.indexAfter, (type.isHollow_eq_false_iff).mpr first,
        if_neg Bool.false_ne_true]
      by_cases repeated : name ∈ earlier
      · rw [if_pos ((known name).mpr repeated)]
        refine .refused ?_
        rw [repeatFaults, if_pos repeated, List.head?_cons]
      · rw [if_neg (mt (known name).mp repeated)]
        have knownAlso : ∀ other, (List.lookup other ((name, position) :: index)).isSome ↔
            other ∈ name :: earlier := by
          intro other
          rw [List.lookup_cons, List.mem_cons]
          by_cases same : other = name
          · simp [same]
          · rw [beq_eq_false_iff_ne.mpr same]
            simpa [same] using known other
        have entry := entry_indexAfter rest (position + 1) later knownAlso
        generalize rest.indexAfter ((name, position) :: index) (position + 1) = result at entry ⊢
        have skipped : repeatFaults earlier (name :: rest.names) =
            repeatFaults (name :: earlier) rest.names := by
          rw [repeatFaults, if_neg repeated]
        cases entry with
        | entered sound => exact .entered (skipped.trans sound)
        | refused first => exact .refused (by rw [skipped, first])

/-- Columns of which none is an empty tuple are entered into an index when their names have no
fault, and are else refused with the first one. -/
private theorem entry_nameIndex? {schema : Schema}
    (filled : ∀ column ∈ schema.toList, ¬ column.type.Hollow) :
    Entry schema.names [] schema.nameIndex? :=
  entry_indexAfter schema 0 filled fun name => by simp

/-! ### Types and fields -/

/-- What may come of reading a type: a column type that is no empty tuple, or the first fault. -/
inductive ColumnType.Reading (column : String) (type : Arrow.DataType) :
    Except SchemaError ColumnType → Prop where
  | read {columnType : ColumnType} (supported : type.Supported) (sound : type.faults column = [])
      (normal : columnType.toArrow = type.normal) (filled : ¬ columnType.Hollow) :
      Reading column type (.ok columnType)
  | refused {error : SchemaError} (unsupported : ¬ type.Supported)
      (first : (type.faults column).head? = some error) : Reading column type (.error error)

/-- What may come of reading fields: columns of the same names, none of them an empty tuple, or the
first fault. -/
inductive Schema.Reading (fields : Arrow.Fields) : Except SchemaError Schema → Prop where
  | read {columns : Schema} (supported : fields.Supported) (sound : fields.faults = [])
      (normal : columns.toArrow = fields.normal) (named : columns.names = fields.names)
      (filled : ∀ column ∈ columns.toList, ¬ column.type.Hollow) : Reading fields (.ok columns)
  | refused {error : SchemaError} (unsupported : ¬ fields.Supported)
      (first : fields.faults.head? = some error) : Reading fields (.error error)

/-- Fields that are read have columns just when there are fields. -/
private theorem Schema.isEmpty_iff_of_names {fields : Arrow.Fields} {columns : Schema}
    (named : columns.names = fields.names) : columns.isEmpty = true ↔ fields = .nil := by
  cases columns <;> cases fields <;> simp_all [names, Arrow.Fields.names, toList,
    Arrow.Fields.toList, isEmpty]

/-- Fields that are read make a struct when there are some and their names differ. -/
private theorem Schema.Reading.struct {fields : Arrow.Fields} {result : Except SchemaError Schema}
    (reading : Reading fields result) (column : String) :
    ColumnType.Reading column (.struct fields) (result >>= fun columns =>
      if columns.isEmpty then .error (.emptyTuple column)
      else columns.check >>= fun _ => pure (.tuple columns)) := by
  cases reading with
  | @refused error unsupported first =>
    have present : fields ≠ .nil := by
      rintro rfl
      cases first
    refine .refused (fun supported => unsupported supported.2.2) ?_
    rw [Arrow.DataType.faults, if_neg present, List.head?_append, first]
    rfl
  | @read columns supported sound normal named filled =>
    change ColumnType.Reading column _ (if columns.isEmpty then _ else _)
    by_cases empty : fields = .nil
    · rw [if_pos ((isEmpty_iff_of_names named).mpr empty)]
      refine .refused (fun supported => supported.1 empty) ?_
      rw [Arrow.DataType.faults, if_pos empty, List.head?_cons]
    · have occupied := mt (isEmpty_iff_of_names named).mp empty
      have faults : (Arrow.DataType.struct fields).faults column =
          repeatFaults [] columns.names := by
        rw [Arrow.DataType.faults, if_neg empty, sound, List.nil_append, named]
      rw [if_neg occupied, check]
      have entry := entry_nameIndex? filled
      generalize columns.nameIndex? = checked at entry ⊢
      cases entry with
      | entered none =>
        obtain ⟨differ, _⟩ := repeatFaults_eq_nil_iff.mp none
        refine .read ⟨empty, named ▸ differ, supported⟩ (faults.trans none) ?_ fun hollow => ?_
        · rw [ColumnType.toArrow, normal, Arrow.DataType.normal]
        · cases hollow with
          | tuple => exact occupied rfl
      | refused first =>
        refine .refused (fun supported => ?_) (by rw [faults, first])
        have differ : columns.names.Nodup := named ▸ supported.2.1
        rw [repeatFaults_eq_nil_iff.mpr ⟨differ, fun _ _ => List.not_mem_nil⟩] at first
        cases first

/-- A field is read before the others. -/
private theorem Schema.Reading.cons {name : String} {type : Arrow.DataType} {nullable : Bool}
    {metadata : Arrow.Metadata} {rest : Arrow.Fields} {first : Except SchemaError ColumnType}
    {later : Except SchemaError Schema} (reading : ColumnType.Reading name type first)
    (others : Reading rest later) :
    Reading (.cons (.mk name type nullable metadata) rest) (first >>= fun columnType =>
      later >>= fun columns => pure (.cons name columnType columns)) := by
  cases reading with
  | refused unsupported first =>
    refine .refused (fun supported => unsupported supported.1) ?_
    rw [Arrow.Fields.faults, List.head?_append, first]
    rfl
  | read supported sound normal filled =>
    have faults : (Arrow.Fields.cons (.mk name type nullable metadata) rest).faults =
        rest.faults := by
      rw [Arrow.Fields.faults, sound, List.nil_append]
    cases others with
    | refused unsupported first =>
      exact .refused (fun supported => unsupported supported.2) (by rw [faults, first])
    | read supportedAlso soundAlso normalAlso named filledAlso =>
      refine .read ⟨supported, supportedAlso⟩ (faults.trans soundAlso) ?_ ?_
        (List.forall_mem_cons.mpr ⟨filled, filledAlso⟩)
      · rw [toArrow, normal, normalAlso, Arrow.Fields.normal, Arrow.Field.plain]
      · exact congrArg (name :: ·) named

mutual

private theorem ColumnType.reading_ofArrow (column : String) : ∀ type : Arrow.DataType,
    ColumnType.Reading column type (ColumnType.ofArrow column type)
  | .primitive primitive => by
      rw [ColumnType.ofArrow]
      cases holds : ScalarType.ofPrimitive? primitive with
      | some type =>
        obtain rfl := ScalarType.ofPrimitive?_eq_some_iff.mp holds
        have supported := ScalarType.ofPrimitive?_isSome_iff.mp (Option.isSome_of_eq_some holds)
        exact .read supported (if_pos supported) rfl fun hollow => nomatch hollow
      | none =>
        have unsupported : primitive ∉ Arrow.Primitive.supported := by
          rw [← ScalarType.ofPrimitive?_isSome_iff, holds]
          exact Bool.false_ne_true
        refine .refused unsupported ?_
        rw [Arrow.DataType.faults, if_neg unsupported, List.head?_cons]
  | .list (.mk name item nullable metadata) => by
      rw [ColumnType.ofArrow]
      have reading := ColumnType.reading_ofArrow column item
      generalize ColumnType.ofArrow column item = result at reading ⊢
      cases reading with
      | read supported sound normal filled =>
        refine .read supported sound ?_ fun hollow => ?_
        · rw [ColumnType.toArrow, normal]
          rfl
        · cases hollow with
          | array hollow => exact filled hollow
      | refused unsupported first => exact .refused unsupported first
  | .struct fields => by
      rw [ColumnType.ofArrow]
      exact (Schema.reading_ofArrowFields fields).struct column
  | .listView _ | .largeList _ | .largeListView _ | .fixedSizeList _ _ | .union _ _ | .map _ _
  | .fixedSizeBinary _ | .decimal128 _ _ | .decimal256 _ _ | .timestamp _ _ | .time32 _ | .time64 _
  | .duration _ | .interval _ | .dictionary _ _ | .runEndEncoded _ _ => .refused id rfl

private theorem Schema.reading_ofArrowFields : ∀ fields : Arrow.Fields,
    Schema.Reading fields (Schema.ofArrowFields fields)
  | .nil => .read trivial rfl rfl rfl (List.forall_mem_nil _)
  | .cons (.mk name type nullable metadata) rest => by
      rw [Schema.ofArrowFields]
      exact .cons (ColumnType.reading_ofArrow name type) (Schema.reading_ofArrowFields rest)

end

namespace IndexedSchema

/-- What may come of reading a schema: one whose Arrow schema is the normal form, or the first
fault. -/
inductive Reading (schema : Arrow.Schema) : Except SchemaError IndexedSchema → Prop where
  | read {built : IndexedSchema} (supported : schema.Supported) (sound : schema.faults = [])
      (normal : built.toArrow = schema.normal) : Reading schema (.ok built)
  | refused {error : SchemaError} (unsupported : ¬ schema.Supported)
      (first : schema.faults.head? = some error) : Reading schema (.error error)

private theorem reading_ofArrow (schema : Arrow.Schema) : Reading schema (ofArrow schema) := by
  rw [ofArrow]
  have reading := Schema.reading_ofArrowFields schema.fields
  generalize Schema.ofArrowFields schema.fields = result at reading ⊢
  cases reading with
  | refused unsupported first =>
    refine .refused (fun supported => unsupported supported.2) ?_
    rw [Arrow.Schema.faults, List.head?_append, first]
    rfl
  | @read columns supported sound normal named filled =>
    have faults : schema.faults = repeatFaults [] columns.names := by
      rw [Arrow.Schema.faults, sound, List.nil_append, named]
    change Reading schema (columns.nameIndex? >>= fun index => pure ⟨columns, index⟩)
    have entry := entry_nameIndex? filled
    generalize columns.nameIndex? = checked at entry ⊢
    cases entry with
    | entered none =>
      obtain ⟨differ, _⟩ := repeatFaults_eq_nil_iff.mp none
      exact .read ⟨named ▸ differ, supported⟩ (faults.trans none)
        (congrArg (Arrow.Schema.mk · []) normal)
    | refused first =>
      refine .refused (fun supported => ?_) (by rw [faults, first])
      rw [repeatFaults_eq_nil_iff.mpr ⟨named ▸ supported.1, fun _ _ => List.not_mem_nil⟩] at first
      cases first

/-- An Arrow schema is read just when it is supported. The Arrow schema of what was read is the
normal form, and what was not read is refused with the first of its faults. -/
theorem ofArrow_exact (schema : Arrow.Schema) :
    ((∃ built, ofArrow schema = .ok built) ↔ schema.Supported) ∧
      (∀ built, ofArrow schema = .ok built → built.toArrow = schema.normal) ∧
      ∀ error, ofArrow schema = .error error ↔ schema.faults.head? = some error := by
  have reading := reading_ofArrow schema
  generalize ofArrow schema = result at reading ⊢
  cases reading with
  | @read built supported sound normal =>
    refine ⟨⟨fun _ => supported, fun _ => ⟨built, rfl⟩⟩, ?_, fun error => ?_⟩
    · rintro _ ⟨⟩
      exact normal
    · rw [sound]
      constructor <;> intro wrong <;> cases wrong
  | @refused cause unsupported first =>
    refine ⟨⟨?_, fun supported => absurd supported unsupported⟩, ?_, fun error => ?_⟩
    · rintro ⟨_, ⟨⟩⟩
    · rintro _ ⟨⟩
    · rw [first, Option.some.injEq, Except.error.injEq]

/-- Tags in a nullable list with items of another name come back without either, and an unsupported
type in such a list is reported under the name of the column, before the name that is repeated. -/
theorem ofArrow_exact_of_tags :
    (∃ built, ofArrow ⟨.cons (.mk "tags" (.list (.mk "element" (.primitive .utf8) true
        [("doc", "a tag")])) true []) .nil, [("owner", "ops")]⟩ = .ok built ∧
      built.toArrow = ⟨.cons (.mk "tags" (.list (.mk "item" (.primitive .utf8) false []))
        false []) .nil, []⟩) ∧
    ofArrow ⟨.cons (.mk "tags" (.primitive .int64) false [])
        (.cons (.mk "tags" (.list (.mk "element" (.primitive .uint8) true [])) false []) .nil),
      []⟩ = .error (.unsupportedType "tags" (.primitive .uint8)) := by
  constructor
  · obtain ⟨_, normal, _⟩ := ofArrow_exact ⟨.cons (.mk "tags" (.list (.mk "element"
      (.primitive .utf8) true [("doc", "a tag")])) true []) .nil, [("owner", "ops")]⟩
    exact ⟨_, rfl, normal _ rfl⟩
  · exact ((ofArrow_exact _).2.2 _).mpr rfl

end IndexedSchema

end Columnar
