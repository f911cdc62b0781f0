import Columnar.Proofs.Schema.Building
import Columnar.Schema.Arrow

/-!
# Schemas through Arrow

The Arrow schema of a schema that was built gives that schema back, with its name index. Converting
checks every tuple again, and the checks pass because each of them passed when the tuple was built.
-/

namespace Columnar

/-- Columns whose types come back from Arrow come back themselves. -/
private theorem Schema.ofArrowFields_toArrow : ∀ {columns : List Column},
    (∀ column ∈ columns, ColumnType.ofArrow column.name column.type.toArrow = .ok column.type) →
    Schema.ofArrowFields (Schema.ofList columns).toArrow = .ok (Schema.ofList columns)
  | [], _ => rfl
  | column :: rest, each => by
      obtain ⟨first, later⟩ := List.forall_mem_cons.mp each
      rw [ofList, toArrow, Arrow.Field.plain, ofArrowFields, first, ofArrowFields_toArrow later]
      rfl

/-- The Arrow type of a column type that was built gives that type back, under every name. An empty
tuple is the one type that does not come back. -/
theorem ColumnType.Built.ofArrow_toArrow {type : ColumnType} (built : type.Built)
    (filled : ¬ type.Hollow) (name : String) : ColumnType.ofArrow name type.toArrow = .ok type := by
  induction built generalizing name with
  | scalar type =>
    rw [toArrow, ScalarType.toArrow, ofArrow, ScalarType.ofPrimitive?_toPrimitive]
  | array made inductionHypothesis =>
    rw [toArrow, Arrow.listItem, Arrow.Field.plain, ofArrow,
      inductionHypothesis (fun hollow => filled (.array hollow)) name]
    rfl
  | @tuple columns schema parts made inductionHypothesis =>
    have filledParts : ∀ column ∈ columns,
        ofArrow column.name column.type.toArrow = .ok column.type := fun column member =>
      inductionHypothesis column member (IndexedSchema.filled_of_ofColumns? made member) column.name
    obtain ⟨index, entered, same⟩ := bind_ok_iff.mp made
    cases same
    have checked := Schema.check_eq_ok_iff.mpr ⟨index, entered⟩
    have occupied : (Schema.ofList columns).isEmpty = false :=
      ((ColumnType.tuple (.ofList columns)).isHollow_eq_false_iff).mpr filled
    rw [toArrow, ofArrow, Schema.ofArrowFields_toArrow filledParts]
    simp only [bind, Except.bind, occupied, Bool.false_eq_true, if_false, checked]
    rfl

/-- A schema that was built comes back from Arrow with its name index. -/
private theorem IndexedSchema.Built.ofArrow_toArrow {schema : IndexedSchema}
    (built : schema.Built) : IndexedSchema.ofArrow schema.toArrow = .ok schema := by
  obtain ⟨columns, parts, made⟩ := built
  have filledParts : ∀ column ∈ columns,
      ColumnType.ofArrow column.name column.type.toArrow = .ok column.type :=
    fun column member =>
      (parts column member).ofArrow_toArrow (filled_of_ofColumns? made member) column.name
  obtain ⟨index, entered, same⟩ := bind_ok_iff.mp made
  cases same
  rw [toArrow, ofArrow, Schema.ofArrowFields_toArrow filledParts]
  exact made

/-- A schema that was built comes back from Arrow as it was, down to its name index, and no other
schema that was built has the same Arrow schema. -/
theorem IndexedSchema.arrow_round_trip {schema : IndexedSchema} (built : schema.Built) :
    IndexedSchema.ofArrow schema.toArrow = .ok schema ∧
      ∀ other : IndexedSchema, other.Built → other.toArrow = schema.toArrow → other = schema := by
  have back := built.ofArrow_toArrow
  refine ⟨back, fun other otherBuilt same => ?_⟩
  have there := otherBuilt.ofArrow_toArrow
  rw [same, back] at there
  exact (Except.ok.inj there).symm

/-- Lines in an array of tuples, and the schema without columns, come back. -/
theorem IndexedSchema.arrow_round_trip_lines :
    (∃ schema, ofColumns? [⟨"id", .scalar .long⟩,
        ⟨"lines", .array (.tuple (.cons "id" (.array (.scalar .string)) .nil))⟩] = .ok schema ∧
      IndexedSchema.ofArrow schema.toArrow = .ok schema) ∧
    IndexedSchema.ofArrow ⟨.nil, []⟩ = .ok ⟨.nil, []⟩ := by
  have made : ofColumns? [⟨"id", .array (.scalar .string)⟩] =
      .ok ⟨.cons "id" (.array (.scalar .string)) .nil, [("id", 0)]⟩ := rfl
  have line : (ColumnType.tuple (.cons "id" (.array (.scalar .string)) .nil)).Built :=
    .tuple (List.forall_mem_singleton.mpr (.array (.scalar .string))) made
  constructor
  · refine ⟨_, rfl, (arrow_round_trip ⟨[⟨"id", .scalar .long⟩,
      ⟨"lines", .array (.tuple (.cons "id" (.array (.scalar .string)) .nil))⟩], ?_, rfl⟩).1⟩
    exact List.forall_mem_cons.mpr ⟨.scalar .long, List.forall_mem_singleton.mpr (.array line)⟩
  · have empty : IndexedSchema.Built ⟨.nil, []⟩ := ⟨[], List.forall_mem_nil _, rfl⟩
    exact (arrow_round_trip empty).1

/-- The schema of every tuple in a built schema comes back from Arrow too, with the one name index
that it was built with, and that index finds what the search through its columns finds. -/
theorem IndexedSchema.Built.nested_round_trip {schema : IndexedSchema} (built : schema.Built)
    {nested : Schema} (nests : (ColumnType.tuple schema.columns).Nests nested) :
    ∃ index, nested.nameIndex? = .ok index ∧
      IndexedSchema.ofArrow (IndexedSchema.mk nested index).toArrow = .ok ⟨nested, index⟩ ∧
      ∀ sought, (IndexedSchema.mk nested index).position sought = nested.position sought := by
  obtain ⟨index, made, _⟩ := built.tuple.existsUnique_index nests
  exact ⟨index, made.nameIndex?_eq, made.ofArrow_toArrow, made.position_eq⟩

end Columnar
