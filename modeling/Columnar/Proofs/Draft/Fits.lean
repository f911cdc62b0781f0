import Columnar.Proofs.Buffer.Measures
import Columnar.Proofs.Draft.Holding

/-!
# What fits

`ColumnType.Fits` says of a list of values that every buffer of a column that holds them is within
its limit: the cells or the bytes of each scalar column, and the offsets of each column of texts,
byte strings or arrays. `ColumnType.Room` says the same of a column in the middle of a row, where
columns below an array may still be empty and then have nothing to be measured.
-/

namespace Columnar

mutual

/-- Whether values fit into all buffers of a column. The elements of all arrays of a column are
stored one after the other. -/
def ColumnType.Fits (capacity : Nat) : ColumnType → List Value → Prop
  | .scalar type, values => type.Fits capacity (values.map (Value.leaf type))
  | .array element, values =>
      offsetsFit capacity values.length (values.flatMap Value.items).length ∧
        element.Fits capacity (values.flatMap Value.items)
  | .tuple columns, values => columns.Fits capacity (values.map Value.items)

/-- Whether rows fit into all buffers of the columns of a schema. -/
def Schema.Fits (capacity : Nat) : Schema → List (List Value) → Prop
  | .nil, _ => True
  | .cons _ type rest, rows =>
      type.Fits capacity (rows.map Value.firstItem) ∧ rest.Fits capacity (rows.map List.tail)

end

mutual

/-- Whether values fit can be computed. -/
def ColumnType.decideFits (capacity : Nat) : (type : ColumnType) → (values : List Value) →
    Decidable (type.Fits capacity values)
  | .scalar type, values =>
      inferInstanceAs (Decidable (type.Fits capacity (values.map (Value.leaf type))))
  | .array element, values =>
      have := element.decideFits capacity (values.flatMap Value.items)
      inferInstanceAs (Decidable (offsetsFit capacity values.length _ ∧ element.Fits capacity _))
  | .tuple columns, values => columns.decideFits capacity (values.map Value.items)

/-- Whether rows fit can be computed. -/
def Schema.decideFits (capacity : Nat) : (schema : Schema) → (rows : List (List Value)) →
    Decidable (schema.Fits capacity rows)
  | .nil, _ => .isTrue trivial
  | .cons _ type rest, rows =>
      have := type.decideFits capacity (rows.map Value.firstItem)
      have := rest.decideFits capacity (rows.map List.tail)
      inferInstanceAs (Decidable (type.Fits capacity _ ∧ rest.Fits capacity _))

end

instance (capacity : Nat) (type : ColumnType) (values : List Value) :
    Decidable (type.Fits capacity values) :=
  type.decideFits capacity values

mutual

/-- Whether a column has room for what it holds. A column that holds nothing has no need of any. -/
def ColumnType.Room (capacity : Nat) : ColumnType → List Value → Pending → Prop
  | .scalar type, saved, pending =>
      saved.map (Value.leaf type) ++ pending.written.toList = [] ∨
        type.Fits capacity (saved.map (Value.leaf type) ++ pending.written.toList)
  | .array element, saved, pending =>
      (saved = [] ∨ offsetsFit capacity saved.length (saved.flatMap Value.items).length) ∧
        element.Room capacity (saved.flatMap Value.items ++ pending.closed) pending.current
  | .tuple columns, saved, pending => columns.Room capacity (saved.map Value.items) pending.columns

/-- Whether columns have room for what they hold. -/
def Schema.Room (capacity : Nat) : Schema → List (List Value) → List Pending → Prop
  | .nil, _, _ => True
  | .cons _ type rest, rows, pendings =>
      type.Room capacity (rows.map Value.firstItem) (Pending.first pendings) ∧
        rest.Room capacity (rows.map List.tail) pendings.tail

end

mutual

/-- Whether there is room can be computed. -/
def ColumnType.decideRoom (capacity : Nat) : (type : ColumnType) → (saved : List Value) →
    (pending : Pending) → Decidable (type.Room capacity saved pending)
  | .scalar type, saved, pending =>
      inferInstanceAs (Decidable (saved.map (Value.leaf type) ++ pending.written.toList = [] ∨
        type.Fits capacity (saved.map (Value.leaf type) ++ pending.written.toList)))
  | .array element, saved, pending =>
      have := element.decideRoom capacity (saved.flatMap Value.items ++ pending.closed)
        pending.current
      inferInstanceAs (Decidable ((saved = [] ∨ offsetsFit capacity saved.length _) ∧
        element.Room capacity _ _))
  | .tuple columns, saved, pending =>
      columns.decideRoom capacity (saved.map Value.items) pending.columns

/-- Whether there is room in columns can be computed. -/
def Schema.decideRoom (capacity : Nat) : (schema : Schema) → (rows : List (List Value)) →
    (pendings : List Pending) → Decidable (schema.Room capacity rows pendings)
  | .nil, _, _ => .isTrue trivial
  | .cons _ type rest, rows, pendings =>
      have := type.decideRoom capacity (rows.map Value.firstItem) (Pending.first pendings)
      have := rest.decideRoom capacity (rows.map List.tail) pendings.tail
      inferInstanceAs (Decidable (type.Room capacity _ _ ∧ rest.Room capacity _ _))

end

instance (capacity : Nat) (type : ColumnType) (saved : List Value) (pending : Pending) :
    Decidable (type.Room capacity saved pending) :=
  type.decideRoom capacity saved pending

/-! ### Fewer values fit as well -/

mutual

/-- Where values fit, the first of them fit. -/
theorem ColumnType.fits_ofAppend {capacity : Nat} : ∀ (type : ColumnType)
    (values others : List Value), type.Fits capacity (values ++ others) → type.Fits capacity values
  | .scalar type, values, others, fits => by
      simp only [ColumnType.Fits, List.map_append] at fits
      exact ScalarType.fits_ofAppend fits
  | .array element, values, others, fits => by
      simp only [ColumnType.Fits, List.flatMap_append, List.length_append] at fits
      obtain ⟨offsets, below⟩ := fits
      exact ⟨offsetsFit_mono (Nat.le_add_right _ _) (Nat.le_add_right _ _) offsets,
        ColumnType.fits_ofAppend element _ _ below⟩
  | .tuple columns, values, others, fits => by
      simp only [ColumnType.Fits, List.map_append] at fits
      exact Schema.fits_ofAppend columns _ _ fits

/-- Where rows fit, the first of them fit. -/
theorem Schema.fits_ofAppend {capacity : Nat} : ∀ (schema : Schema)
    (rows others : List (List Value)), schema.Fits capacity (rows ++ others) →
    schema.Fits capacity rows
  | .nil, _, _, _ => trivial
  | .cons _ type rest, rows, others, fits => by
      simp only [Schema.Fits, List.map_append] at fits
      exact ⟨ColumnType.fits_ofAppend type _ _ fits.1, Schema.fits_ofAppend rest _ _ fits.2⟩

end

/-! ### Room without anything in progress -/

mutual

/-- Dropping what is in progress, and some of the last values with it, leaves room. -/
theorem ColumnType.room_ofAppend {capacity : Nat} : ∀ (type : ColumnType)
    (values others : List Value) (pending : Pending),
    type.Room capacity (values ++ others) pending → type.Room capacity values (.ofType type)
  | .scalar type, values, others, pending, room => by
      simp only [ColumnType.Room, Pending.ofType, Pending.written, Option.toList_none,
        List.append_nil, List.map_append, List.append_assoc] at room ⊢
      rcases room with empty | fits
      · exact Or.inl (List.append_eq_nil_iff.mp empty).1
      · exact Or.inr (ScalarType.fits_ofAppend fits)
  | .array element, values, others, pending, room => by
      simp only [ColumnType.Room, Pending.ofType, Pending.closed, Pending.current,
        List.append_nil, List.flatMap_append, List.length_append, List.append_assoc] at room ⊢
      obtain ⟨slots, below⟩ := room
      refine ⟨?_, ColumnType.room_ofAppend element _ _ _ below⟩
      rcases slots with empty | offsets
      · exact Or.inl (List.append_eq_nil_iff.mp empty).1
      · exact Or.inr (offsetsFit_mono (Nat.le_add_right _ _) (Nat.le_add_right _ _) offsets)
  | .tuple columns, values, others, pending, room => by
      simp only [ColumnType.Room, List.map_append] at room
      exact Schema.room_ofAppend columns _ _ _ room

/-- Dropping the row in progress, and some of the last rows with it, leaves room. -/
theorem Schema.room_ofAppend {capacity : Nat} : ∀ (schema : Schema)
    (rows others : List (List Value)) (pendings : List Pending),
    schema.Room capacity (rows ++ others) pendings →
    schema.Room capacity rows (Pending.ofSchema schema)
  | .nil, _, _, _, _ => trivial
  | .cons _ type rest, _, _, _, room => by
      simp only [Schema.Room, List.map_append] at room
      exact ⟨ColumnType.room_ofAppend type _ _ _ room.1, Schema.room_ofAppend rest _ _ _ room.2⟩

end

/-- Dropping what is in progress leaves room. -/
theorem ColumnType.room_discard {capacity : Nat} {type : ColumnType} {saved : List Value}
    {pending : Pending} (room : type.Room capacity saved pending) :
    type.Room capacity saved (.ofType type) := by
  rw [← List.append_nil saved] at room
  exact type.room_ofAppend saved [] pending room

private theorem ScalarType.fits_nil {capacity : Nat} (type : ScalarType) (enough : 8 ≤ capacity) :
    type.Fits capacity [] := by
  cases type <;> simp [ScalarType.Fits, stringsFit, offsetsFit, offsetBytes] <;> omega

private theorem offsetsFit_least {capacity count last : Nat} (some : 0 < count)
    (fits : offsetsFit capacity count last) : 8 ≤ capacity := by
  obtain ⟨offsets, _⟩ := fits
  unfold offsetBytes at offsets
  omega

mutual

/-- A column with room for its saved values and nothing in progress is one that they fit into. Only
the column of no values is not measured, and that matters for a limit below that of any array. -/
theorem ColumnType.fits_ofRoom {capacity : Nat} : ∀ (type : ColumnType) (saved : List Value),
    saved ≠ [] ∨ 8 ≤ capacity → type.Room capacity saved (.ofType type) →
    type.Fits capacity saved
  | .scalar type, saved, measured, room => by
      simp only [ColumnType.Room, Pending.ofType, Pending.written, Option.toList_none,
        List.append_nil] at room
      rcases room with empty | fits
      · have none : saved = [] := List.map_eq_nil_iff.mp empty
        have enough : 8 ≤ capacity := by
          rcases measured with present | enough
          · exact absurd none present
          · exact enough
        subst none
        exact type.fits_nil enough
      · exact fits
  | .array element, saved, measured, room => by
      simp only [ColumnType.Room, Pending.ofType, Pending.closed, Pending.current,
        List.append_nil] at room
      obtain ⟨slots, below⟩ := room
      have offsets : offsetsFit capacity saved.length (saved.flatMap Value.items).length := by
        rcases slots with none | fits
        · subst none
          have enough : 8 ≤ capacity := by simpa using measured
          unfold offsetsFit offsetBytes
          simp
          omega
        · exact fits
      have enough : 8 ≤ capacity := by
        rcases measured with present | enough
        · exact offsetsFit_least (List.length_pos_iff.mpr present) offsets
        · exact enough
      exact ⟨offsets, ColumnType.fits_ofRoom element _ (Or.inr enough) below⟩
  | .tuple columns, saved, measured, room =>
      Schema.fits_ofRoom columns _ (by simpa using measured) room

/-- Columns with room for their saved rows and nothing in progress are such that they fit into. -/
theorem Schema.fits_ofRoom {capacity : Nat} : ∀ (schema : Schema) (rows : List (List Value)),
    rows ≠ [] ∨ 8 ≤ capacity → schema.Room capacity rows (Pending.ofSchema schema) →
    schema.Fits capacity rows
  | .nil, _, _, _ => trivial
  | .cons _ type rest, rows, measured, room =>
      ⟨ColumnType.fits_ofRoom type _ (by simpa using measured) room.1,
        Schema.fits_ofRoom rest _ (by simpa using measured) room.2⟩

end

mutual

/-- Where values fit, there is room for them. -/
theorem ColumnType.room_ofFits {capacity : Nat} : ∀ (type : ColumnType) (saved : List Value),
    type.Fits capacity saved → type.Room capacity saved (.ofType type)
  | .scalar _, _, fits => by
      rw [ColumnType.Room, Pending.ofType, Pending.written, Option.toList_none, List.append_nil]
      exact .inr fits
  | .array element, saved, ⟨offsets, below⟩ => by
      refine ⟨.inr offsets, ?_⟩
      rw [Pending.ofType, Pending.closed, Pending.current, List.append_nil]
      exact ColumnType.room_ofFits element _ below
  | .tuple columns, _, fits => Schema.room_ofFits columns _ fits

/-- Where rows fit, there is room for them. -/
theorem Schema.room_ofFits {capacity : Nat} : ∀ (schema : Schema) (rows : List (List Value)),
    schema.Fits capacity rows → schema.Room capacity rows (Pending.ofSchema schema)
  | .nil, _, _ => trivial
  | .cons _ type rest, _, fits =>
      ⟨ColumnType.room_ofFits type _ fits.1, Schema.room_ofFits rest _ fits.2⟩

end

/-- Where there is room for values and for more behind them, the first values fit. -/
theorem ColumnType.fits_ofRoom_append {capacity : Nat} {type : ColumnType}
    {values others : List Value} {pending : Pending} (present : values ≠ [])
    (room : type.Room capacity (values ++ others) pending) : type.Fits capacity values :=
  ColumnType.fits_ofRoom type values (.inl present)
    (ColumnType.room_ofAppend type values others pending room)

mutual

/-- Without values there is nothing to be measured. -/
theorem ColumnType.room_nil (capacity : Nat) : ∀ type : ColumnType,
    type.Room capacity [] (.ofType type)
  | .scalar _ => Or.inl rfl
  | .array element => ⟨Or.inl rfl, ColumnType.room_nil capacity element⟩
  | .tuple columns => Schema.room_nil capacity columns

/-- Without rows there is nothing to be measured. -/
theorem Schema.room_nil (capacity : Nat) : ∀ schema : Schema,
    schema.Room capacity [] (Pending.ofSchema schema)
  | .nil => trivial
  | .cons _ type rest => ⟨ColumnType.room_nil capacity type, Schema.room_nil capacity rest⟩

end

end Columnar
