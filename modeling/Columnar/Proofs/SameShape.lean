import Columnar.Proofs.Conformance

/-!
# Schemas of the same shape

Two schemas have the same shape when their columns agree, position by position and at every depth,
in everything but their names. Such schemas keep the same values.
-/

namespace Columnar

mutual

/-- Whether two column types differ in nothing but the names in their tuples. -/
def ColumnType.SameShape : ColumnType → ColumnType → Prop
  | .scalar one, .scalar other => one = other
  | .array one, .array other => one.SameShape other
  | .tuple one, .tuple other => one.SameShape other
  | _, _ => False

/-- Whether two schemas have as many columns and differ in nothing but names. -/
def Schema.SameShape : Schema → Schema → Prop
  | .nil, .nil => True
  | .cons _ one rest, .cons _ other others => one.SameShape other ∧ rest.SameShape others
  | _, _ => False

end

mutual

/-- Whether column types are of the same shape can be computed. -/
def ColumnType.decideSameShape : (one other : ColumnType) → Decidable (one.SameShape other)
  | .scalar one, .scalar other => inferInstanceAs (Decidable (one = other))
  | .array one, .array other => one.decideSameShape other
  | .tuple one, .tuple other => one.decideSameShape other
  | .scalar _, .array _ | .scalar _, .tuple _ | .array _, .scalar _ | .array _, .tuple _
  | .tuple _, .scalar _ | .tuple _, .array _ => .isFalse id

/-- Whether schemas are of the same shape can be computed. -/
def Schema.decideSameShape : (one other : Schema) → Decidable (one.SameShape other)
  | .nil, .nil => .isTrue trivial
  | .cons _ one rest, .cons _ other others =>
      have := one.decideSameShape other
      have := rest.decideSameShape others
      inferInstanceAs (Decidable (one.SameShape other ∧ rest.SameShape others))
  | .nil, .cons _ _ _ | .cons _ _ _, .nil => .isFalse id

end

instance (one other : Schema) : Decidable (one.SameShape other) :=
  one.decideSameShape other

mutual

/-- Every column type has its own shape. -/
theorem ColumnType.sameShape_refl : ∀ type : ColumnType, type.SameShape type
  | .scalar _ => rfl
  | .array element => element.sameShape_refl
  | .tuple columns => columns.sameShape_refl

/-- Every schema has its own shape. -/
theorem Schema.sameShape_refl : ∀ schema : Schema, schema.SameShape schema
  | .nil => trivial
  | .cons _ type rest => ⟨type.sameShape_refl, rest.sameShape_refl⟩

end

/-- Schemas of the same shape have as many columns. -/
theorem Schema.SameShape.length_eq : ∀ {one other : Schema}, one.SameShape other →
    one.length = other.length
  | .nil, .nil, _ => rfl
  | .nil, .cons _ _ _, same => same.elim
  | .cons _ _ _, .nil, same => same.elim
  | .cons _ _ _, .cons _ _ _, same => congrArg (· + 1) (Schema.SameShape.length_eq same.2)

mutual

/-- Column types of the same shape keep the same values. -/
theorem ColumnType.SameShape.admits : ∀ {one other : ColumnType} {value : Value},
    one.SameShape other → one.Admits value → other.Admits value
  | .scalar _, .scalar _, .scalar _, same, admitted => same ▸ admitted
  | .array _, .array _, .array _, same, admitted => fun item member =>
      ColumnType.SameShape.admits same (admitted item member)
  | .tuple _, .tuple _, .tuple _, same, admitted => Schema.SameShape.admits same admitted
  | .scalar _, .array _, _, same, _ => same.elim
  | .scalar _, .tuple _, _, same, _ => same.elim
  | .array _, .scalar _, _, same, _ => same.elim
  | .array _, .tuple _, _, same, _ => same.elim
  | .tuple _, .scalar _, _, same, _ => same.elim
  | .tuple _, .array _, _, same, _ => same.elim

/-- Schemas of the same shape keep the same rows. -/
theorem Schema.SameShape.admits : ∀ {one other : Schema} {items : List Value},
    one.SameShape other → one.Admits items → other.Admits items
  | .nil, .nil, _, _, admitted => admitted
  | .nil, .cons _ _ _, _, same, _ => same.elim
  | .cons _ _ _, .nil, _, same, _ => same.elim
  | .cons _ _ _, .cons _ _ _, [], _, admitted => admitted.elim
  | .cons _ _ _, .cons _ _ _, _ :: _, same, admitted =>
      ⟨ColumnType.SameShape.admits same.1 admitted.1, Schema.SameShape.admits same.2 admitted.2⟩

end

end Columnar
