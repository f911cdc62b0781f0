import Columnar.Proofs.Results
import Columnar.Schema.Check

/-!
# Schemas without empty tuples

A schema that passes its check at every depth has no tuple without columns below its root. The
number of rows of a tuple can then be told from its columns.
-/

namespace Columnar

mutual

/-- Whether no tuple of a column type is empty. -/
def ColumnType.Solid : ColumnType → Prop
  | .scalar _ => True
  | .array element => element.Solid
  | .tuple columns => columns.isEmpty = false ∧ columns.Solid

/-- Whether no tuple below the columns of a schema is empty. -/
def Schema.Solid : Schema → Prop
  | .nil => True
  | .cons _ type rest => type.Solid ∧ rest.Solid

end

mutual

private theorem ColumnType.solid_of_check : ∀ type : ColumnType, type.checkBelow = .ok () →
    type.isHollow = false → type.Solid
  | .scalar _, _, _ => trivial
  | .array element, below, filled => ColumnType.solid_of_check element below filled
  | .tuple columns, below, filled => by
      obtain ⟨_, deeper, here⟩ := bind_ok_iff.mp below
      obtain ⟨index, entered⟩ := Schema.check_eq_ok_iff.mp here
      exact ⟨filled, Schema.solid_of_check columns deeper entered⟩

private theorem Schema.solid_of_check : ∀ (schema : Schema) {index after : NameIndex}
    {position : Nat}, schema.checkBelow = .ok () → schema.indexAfter index position = .ok after →
    schema.Solid
  | .nil, _, _, _, _, _ => trivial
  | .cons name type rest, _, _, _, below, entered => by
      obtain ⟨_, first, later⟩ := bind_ok_iff.mp below
      obtain ⟨filled, _, others⟩ := Schema.indexAfter_cons_eq_ok_iff.mp entered
      exact ⟨ColumnType.solid_of_check type first filled, Schema.solid_of_check rest later others⟩

end

/-- A checked schema has no empty tuples. -/
theorem Schema.solid_of_checkAll {schema : Schema} (checked : schema.checkAll = .ok ()) :
    schema.Solid := by
  obtain ⟨_, below, here⟩ := bind_ok_iff.mp checked
  obtain ⟨index, entered⟩ := Schema.check_eq_ok_iff.mp here
  exact Schema.solid_of_check schema below entered

end Columnar
