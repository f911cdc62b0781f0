import Columnar.Schema.Basic

/-!
# Conforming values

Which values a column takes, and the form in which it keeps them: an integer in a column of longs
becomes a long, and columns that a tuple leaves out at its end are blank. `Accepts` describes the
values as they are given, `Admits` those in the kept form, and `normalize` leads from the one to
the other.
-/

namespace Columnar

namespace ScalarType

/-- The value of a scalar column that nothing was written to. -/
def blank : ScalarType → Scalar
  | .integer => .int 0
  | .long => .long 0
  | .double => .double .zero
  | .boolean => .bool false
  | .string => .string ""
  | .bytes => .bytes .empty

/-- The form in which a scalar column keeps a value, if it takes it: a value of its own type as it
is, and an integer as a long. -/
def keep? : ScalarType → Scalar → Option Scalar
  | .integer, .int value => some (.int value)
  | .long, .int value => some (.long value.toInt64)
  | .long, .long value => some (.long value)
  | .double, .double value => some (.double value)
  | .boolean, .bool value => some (.bool value)
  | .string, .string value => some (.string value)
  | .bytes, .bytes value => some (.bytes value)
  | _, _ => none

@[simp] theorem type_blank (type : ScalarType) : type.blank.type = type := by
  cases type <;> rfl

/-- What a column keeps is of its type. -/
theorem type_of_keep? {type : ScalarType} {value kept : Scalar}
    (keeps : type.keep? value = some kept) : kept.type = type := by
  cases type <;> cases value <;> simp [keep?] at keeps <;> subst kept <;> rfl

/-- Only a column of longs keeps a value in another form. -/
theorem eq_of_keep? {type : ScalarType} (other : type ≠ .long) {value kept : Scalar}
    (keeps : type.keep? value = some kept) : kept = value := by
  cases type <;> cases value <;> simp_all [keep?]

/-- A column keeps the values of its own type and, if it is one of longs, integers. -/
theorem keep?_isSome_iff (type : ScalarType) (value : Scalar) :
    (type.keep? value).isSome ↔
      value.type = type ∨ type = .long ∧ value.type = .integer := by
  cases type <;> cases value <;> simp [keep?, Scalar.type]

end ScalarType

mutual

/-- The value of a column that nothing was written to: an array is empty, and a tuple is blank in
every column. -/
def ColumnType.blank : ColumnType → Value
  | .scalar type => .scalar type.blank
  | .array _ => .array []
  | .tuple columns => .tuple columns.blanks

/-- The blank values of all columns. -/
def Schema.blanks : Schema → List Value
  | .nil => []
  | .cons _ type rest => type.blank :: rest.blanks

end

mutual

/-- Whether a value is in the form in which a column keeps it. -/
def ColumnType.Admits : ColumnType → Value → Prop
  | .scalar type, .scalar value => value.type = type
  | .array element, .array items => ∀ item ∈ items, element.Admits item
  | .tuple columns, .tuple items => columns.Admits items
  | _, _ => False

/-- Whether values are those of all columns, in the form in which these keep them. -/
def Schema.Admits : Schema → List Value → Prop
  | .nil, [] => True
  | .cons _ type rest, item :: items => type.Admits item ∧ rest.Admits items
  | _, _ => False

end

mutual

/-- Whether a column takes a value: a scalar that it keeps, an array of elements that it takes, or
a tuple whose items its leading columns take. -/
def ColumnType.Accepts : ColumnType → Value → Prop
  | .scalar type, .scalar value => value.type = type ∨ type = .long ∧ value.type = .integer
  | .array element, .array items => ∀ item ∈ items, element.Accepts item
  | .tuple columns, .tuple items => columns.Accepts items
  | _, _ => False

/-- Whether values are at most as many as the columns and each is taken by the column at its
position. -/
def Schema.Accepts : Schema → List Value → Prop
  | _, [] => True
  | .nil, _ :: _ => False
  | .cons _ type rest, item :: items => type.Accepts item ∧ rest.Accepts items

end

mutual

/-- Whether a column takes a value can be computed. -/
def ColumnType.decideAccepts : (type : ColumnType) → (value : Value) →
    Decidable (type.Accepts value)
  | .scalar type, .scalar value =>
      inferInstanceAs (Decidable (value.type = type ∨ type = .long ∧ value.type = .integer))
  | .array element, .array items =>
      have : DecidablePred element.Accepts := element.decideAccepts
      inferInstanceAs (Decidable (∀ item ∈ items, element.Accepts item))
  | .tuple columns, .tuple items => columns.decideAccepts items
  | .scalar _, .array _ | .scalar _, .tuple _ | .array _, .scalar _ | .array _, .tuple _
  | .tuple _, .scalar _ | .tuple _, .array _ => .isFalse id

/-- Whether the leading columns take values can be computed. -/
def Schema.decideAccepts : (schema : Schema) → (items : List Value) →
    Decidable (schema.Accepts items)
  | .nil, [] | .cons _ _ _, [] => .isTrue (by simp [Schema.Accepts])
  | .nil, _ :: _ => .isFalse id
  | .cons _ type rest, item :: items =>
      have := type.decideAccepts item
      have := rest.decideAccepts items
      inferInstanceAs (Decidable (type.Accepts item ∧ rest.Accepts items))

end

instance (type : ColumnType) (value : Value) : Decidable (type.Accepts value) :=
  type.decideAccepts value

mutual

/-- The form in which a column keeps a value that it takes. -/
def ColumnType.normalize : ColumnType → Value → Value
  | .scalar .long, .scalar (.int value) => .scalar (.long value.toInt64)
  | .array element, .array items => .array (items.map element.normalize)
  | .tuple columns, .tuple items => .tuple (columns.normalize items)
  | _, value => value

/-- The form in which columns keep the values given for the leading ones. -/
def Schema.normalize : Schema → List Value → List Value
  | .nil, _ => []
  | .cons _ type rest, [] => type.blank :: rest.blanks
  | .cons _ type rest, item :: items => type.normalize item :: rest.normalize items

end

/-- Without values every column is blank. -/
theorem Schema.normalize_nil (schema : Schema) : schema.normalize [] = schema.blanks := by
  cases schema <;> rfl

/-- No more values are taken than there are columns. -/
theorem Schema.length_le_of_accepts : ∀ {schema : Schema} {items : List Value},
    schema.Accepts items → items.length ≤ schema.length
  | _, [], _ => Nat.zero_le _
  | .nil, _ :: _, accepted => accepted.elim
  | .cons _ _ _, _ :: _, accepted => by
      have below := Schema.length_le_of_accepts accepted.2
      simp only [List.length_cons, Schema.length]
      omega

/-- A scalar column keeps exactly the normal form of the values that it takes. -/
theorem ScalarType.keep?_eq_some_iff (type : ScalarType) (value kept : Scalar) :
    type.keep? value = some kept ↔
      (ColumnType.scalar type).Accepts (.scalar value) ∧
        (ColumnType.scalar type).normalize (.scalar value) = .scalar kept := by
  cases type <;> cases value <;>
    simp [ScalarType.keep?, ColumnType.Accepts, ColumnType.normalize, Scalar.type]

mutual

/-- The blank value of a column is in its kept form. -/
theorem ColumnType.admits_blank : ∀ type : ColumnType, type.Admits type.blank
  | .scalar type => type.type_blank
  | .array _ => fun _ member => nomatch member
  | .tuple columns => columns.admits_blanks

/-- The blank values of all columns are in the kept form. -/
theorem Schema.admits_blanks : ∀ schema : Schema, schema.Admits schema.blanks
  | .nil => trivial
  | .cons _ type rest => ⟨type.admits_blank, rest.admits_blanks⟩

end

end Columnar
