import Columnar.Proofs.Places
import Columnar.Proofs.Reader.Filled
import Columnar.Proofs.Reader.Indices

/-!
# What spots show

A spot in a view of given rows shows the values of its place in the schema: all of those that the
rows have there, one after the other. A position there points at one of them, and that one is a part
of the value that the position above points at.
-/

namespace Columnar

/-- Why a reader refuses to read or to move. -/
inductive Refusal.OfReading : Refusal → Prop where
  | noCurrentRow : OfReading (.misuse .noCurrentRow)
  | rowOutOfRange (index rows : Nat) : OfReading (.misuse (.rowOutOfRange index rows))
  | elementOutOfRange (index size : Nat) : OfReading (.misuse (.elementOutOfRange index size))
  | wrongKind (column : String) (requested actual : Kind) :
      OfReading (.mismatch (.wrongKind column requested actual))
  | wrongScalarType (column : String) (requested actual : ScalarType) :
      OfReading (.mismatch (.wrongScalarType column requested actual))

/-- The values that lie in a value: the value itself, and what lies in its elements or items. -/
inductive Value.Within : Value → Value → Prop where
  | self (whole : Value) : Within whole whole
  | item {whole item part : Value} (member : item ∈ whole.items) (within : Within item part) :
      Within whole part

/-- What lies in a part lies in the whole. -/
theorem Value.Within.trans {whole middle part : Value} (outer : whole.Within middle)
    (inner : middle.Within part) : whole.Within part := by
  induction outer with
  | self _ => exact inner
  | item member _ inductionHypothesis => exact .item member (inductionHypothesis inner)

/-! ### Columns and slots -/

/-- An index finds the view of the items that the rows have in its column. -/
theorem Views.get?_ofRows {column : Column} : ∀ {schema : Schema} (parent : String)
    (rows : List (List Value)) {index : ColumnIndex}, schema.find? index = some column →
    ∃ item : List Value → Value,
      (Views.ofRows parent schema rows).get? index =
        some (.ofValues (childPath parent column.name) column.type (rows.map item)) ∧
      ∀ row, schema.Admits row → item row ∈ row ∧ column.type.Admits (item row)
  | .nil, _, _, _, found => nomatch found
  | .cons name type rest, parent, rows, index, found => by
      have here : column = ⟨name, type⟩ → ∃ item : List Value → Value,
          some (View.ofValues (childPath parent name) type (rows.map Value.firstItem)) =
            some (.ofValues (childPath parent column.name) column.type (rows.map item)) ∧
          ∀ row, (Schema.cons name type rest).Admits row →
            item row ∈ row ∧ column.type.Admits (item row) := by
        rintro rfl
        refine ⟨Value.firstItem, rfl, ?_⟩
        intro row admitted
        cases row with
        | nil => exact admitted.elim
        | cons item items => exact ⟨List.mem_cons_self, admitted.1⟩
      have later : ∀ sought, rest.find? sought = some column → ∃ item : List Value → Value,
          (Views.ofRows parent rest (rows.map List.tail)).get? sought =
            some (.ofValues (childPath parent column.name) column.type (rows.map item)) ∧
          ∀ row, (Schema.cons name type rest).Admits row →
            item row ∈ row ∧ column.type.Admits (item row) := by
        intro sought below
        obtain ⟨item, present, parts⟩ := Views.get?_ofRows parent (rows.map List.tail) below
        refine ⟨item ∘ List.tail, by rw [present, List.map_map], ?_⟩
        intro row admitted
        cases row with
        | nil => exact admitted.elim
        | cons first items =>
          obtain ⟨member, admits⟩ := parts items admitted.2
          exact ⟨List.mem_cons_of_mem first member, admits⟩
      cases index with
      | position sought =>
        cases sought with
        | zero => exact here (Option.some.inj found).symm
        | succ sought => exact later (.position sought) found
      | name sought =>
        rw [Schema.find?] at found
        by_cases same : name = sought
        · rw [if_pos same] at found
          simpa only [Views.ofRows, Views.get?, if_pos same] using here (Option.some.inj found).symm
        · rw [if_neg same] at found
          simpa only [Views.ofRows, Views.get?, if_neg same] using later (.name sought) found

/-- An index that points at no column of a schema finds no view either. -/
theorem Views.get?_ofRows_none : ∀ {schema : Schema} (parent : String) (rows : List (List Value))
    {index : ColumnIndex}, schema.find? index = none →
    (Views.ofRows parent schema rows).get? index = none
  | .nil, _, _, _, _ => rfl
  | .cons _ _ _, _, _, .position 0, absent => nomatch absent
  | .cons _ _ rest, parent, rows, .position (position + 1), absent =>
      Views.get?_ofRows_none parent (rows.map List.tail)
        (show rest.find? (.position position) = none from absent)
  | .cons name _ rest, parent, rows, .name sought, absent => by
      rw [Schema.find?] at absent
      split at absent
      · cases absent
      · rename_i other
        rw [Views.ofRows, Views.get?, if_neg other]
        exact Views.get?_ofRows_none parent (rows.map List.tail) absent

@[simp] theorem Views.length_ofRows (parent : String) (schema : Schema)
    (rows : List (List Value)) : (Views.ofRows parent schema rows).length = schema.length := by
  cases schema with
  | nil => rfl
  | cons _ _ rest => exact congrArg (· + 1) (Views.length_ofRows parent rest _)

/-- An index of an element is one among the elements of all values, and that of an element of the
value at the slot if it is not wrapped. -/
theorem getElem?_of_itemIndex {values : List Value} {position : Position} {element index : Nat}
    (within : ∀ slot, position = .ok slot → slot < values.length)
    (found : itemIndex (offsetsOf (Value.sizes values)).toArray position element = .ok index) :
    ∃ slot value item, position = .ok slot ∧ values[slot]? = some value ∧
      (values.flatMap Value.items)[index]? = some item ∧
      (Unwrapped (offsetsOf (Value.sizes values)).toArray position element →
        item ∈ value.items) := by
  obtain ⟨slot, _, _, rfl, _⟩ := slotBounds_of_itemIndex found
  have here := List.getElem?_eq_getElem (within slot rfl)
  have bounds := slotBounds_offsetsOf here
  have before := (lt_of_itemIndex bounds found).1
  have parts := congrArg List.length (flatMap_items_eq here)
  simp only [List.length_append] at parts
  have there := List.getElem?_eq_getElem
    (show index < (values.flatMap Value.items).length by omega)
  refine ⟨slot, _, _, rfl, here, there, fun unwrapped => ?_⟩
  obtain ⟨_, _, _, ⟨⟩, same, rfl, inside⟩ := bounds_of_itemIndex unwrapped found
  obtain ⟨rfl, rfl⟩ := Prod.mk.inj (Except.ok.inj (same.symm.trans bounds))
  have own := List.getElem?_eq_getElem (Nat.lt_of_add_lt_add_left inside)
  obtain same := Option.some.inj (there.symm.trans (getElem?_flatMap_items here own))
  exact same ▸ List.getElem_mem _

/-- Looking for an element is refused for no other reasons than reading is. -/
theorem ofReading_of_itemIndex {values : List Value} {position : Position} {element : Nat}
    {refusal : Refusal} (within : ∀ slot, position = .ok slot → slot < values.length)
    (refused : ∀ refusal, position = .error refusal → refusal.OfReading)
    (missing : itemIndex (offsetsOf (Value.sizes values)).toArray position element =
      .error refusal) : refusal.OfReading := by
  cases position with
  | error cause =>
    obtain rfl := Except.error.inj missing
    exact refused _ rfl
  | ok slot =>
    have bounds := slotBounds_offsetsOf (List.getElem?_eq_getElem (within slot rfl))
    rw [itemIndex_eq bounds] at missing
    split at missing
    · cases missing
      exact .elementOutOfRange _ _
    · cases missing

/-! ### Values -/

/-- A column at rest reads the value at an index, wherever its entries were moved. -/
theorem View.read_of_atRest {view : View} {path : String} {type : ColumnType} {values : List Value}
    (rest : view.atRest = .ofValues path type values)
    (admitted : ∀ value ∈ values, type.Admits value)
    {index : Nat} {value : Value} (found : values[index]? = some value) :
    view.read (.ok index) = .ok value := by
  rw [← View.read_atRest, rest]
  exact View.read_ofValues path type values index value found
    (admitted value (List.mem_of_getElem? found))

/-- A scalar is read as the type that keeps it, if that type does. -/
theorem Leaf.readAs_ofScalars {type : ScalarType} {values : List Scalar} {index : Nat}
    {value : Scalar} (found : values[index]? = some value) (typed : value.type = type)
    (path : String) (requested : ScalarType) :
    (Leaf.ofScalars type values).readAs path requested index =
      match requested.keep? value with
      | some kept => .ok kept
      | none => .error (.mismatch (.wrongScalarType path requested type)) := by
  have looked : (Leaf.ofScalars type values).read index = .ok value := by
    rw [Leaf.read, Leaf.get?_ofScalars found typed]
  unfold Leaf.readAs
  rw [Leaf.type_ofScalars]
  by_cases own : type = requested
  · have kept : requested.keep? value = some value := by
      subst own typed
      cases value <;> rfl
    rw [if_pos own, looked, kept]
  · rw [if_neg own]
    subst typed
    cases value with
    | int value =>
      cases requested with
      | integer => exact absurd rfl own
      | long =>
        change (Leaf.read _ index >>= _) = _
        rw [looked]
        rfl
      | _ => rfl
    | _ => cases requested <;> first | exact absurd rfl own | rfl

/-! ### Spots -/

namespace Spot

/-- Whether a spot shows the values of a place. -/
structure Shows (spot : Spot) (place : Place) (values : List Value) : Prop where
  view : spot.view.atRest = .ofValues place.path place.type values
  admitted : ∀ value ∈ values, place.type.Admits value
  within : ∀ index, spot.position = .ok index → index < values.length
  refused : ∀ refusal, spot.position = .error refusal → refusal.OfReading

/-- Whether a spot points at one of the values that it shows whenever another spot does, and, under
a condition, at one that lies in what the other one points at. -/
def LiesIn (condition : Prop) (below : Spot) (parts : List Value) (spot : Spot)
    (values : List Value) : Prop :=
  ∀ index, below.position = .ok index → ∃ slot value part, spot.position = .ok slot ∧
    values[slot]? = some value ∧ parts[index]? = some part ∧ (condition → value.Within part)

theorem LiesIn.trans {condition : Prop} {inner middle outer : Spot}
    {parts items values : List Value} (below : LiesIn condition inner parts middle items)
    (above : LiesIn condition middle items outer values) :
    LiesIn condition inner parts outer values := by
  intro index here
  obtain ⟨slot, item, part, pointed, itemFound, partFound, within⟩ := below index here
  obtain ⟨top, value, same, there, valueFound, alsoFound, around⟩ := above slot pointed
  obtain rfl := Option.some.inj (alsoFound.symm.trans itemFound)
  exact ⟨top, value, part, there, valueFound, partFound,
    fun holds => (around holds).trans (within holds)⟩

theorem LiesIn.imp {condition weaker : Prop} {below spot : Spot} {parts values : List Value}
    (implies : condition → weaker) (lies : LiesIn weaker below parts spot values) :
    LiesIn condition below parts spot values := by
  intro index here
  obtain ⟨slot, value, part, pointed, found, partFound, within⟩ := lies index here
  exact ⟨slot, value, part, pointed, found, partFound, fun holds => within (implies holds)⟩

variable {spot : Spot} {place : Place} {values : List Value}

/-- A position of a spot points at one of the values, which the place admits. -/
theorem Shows.pointed (shows : spot.Shows place values) {index : Nat}
    (here : spot.position = .ok index) :
    ∃ value, values[index]? = some value ∧ place.type.Admits value := by
  have found := List.getElem?_eq_getElem (shows.within index here)
  exact ⟨_, found, shows.admitted _ (List.mem_of_getElem? found)⟩

private theorem Shows.column {path : String} {schema : Schema} {columns : Views}
    {position : Position} {index : ColumnIndex} {column : Column}
    (shows : Shows ⟨.tuple path columns, position⟩ ⟨path, .tuple schema⟩ values)
    (found : schema.find? index = some column) :
    ∃ view parts, columns.get? index = some view ∧
      Shows ⟨view, position⟩ ⟨childPath path column.name, column.type⟩ parts ∧
      ∀ condition, LiesIn condition ⟨view, position⟩ parts ⟨.tuple path columns, position⟩
        values := by
  have rest : columns.atRest = .ofRows path schema (values.map Value.items) :=
    (View.tuple.inj shows.view).2
  obtain ⟨item, present, items⟩ := Views.get?_ofRows path (values.map Value.items) found
  rw [← rest, Views.get?_atRest] at present
  obtain ⟨view, here, same⟩ := Option.map_eq_some_iff.mp present
  have parts : ∀ value ∈ values,
      item value.items ∈ value.items ∧ column.type.Admits (item value.items) := by
    intro value member
    have admitted : (ColumnType.tuple schema).Admits value := shows.admitted value member
    cases value with
    | tuple row => exact items row admitted
    | scalar _ => exact admitted.elim
    | array _ => exact admitted.elim
  refine ⟨view, (values.map Value.items).map item, here, ⟨same, ?_, ?_, shows.refused⟩, ?_⟩
  · simp only [List.map_map, List.mem_map]
    rintro part ⟨value, member, rfl⟩
    exact (parts value member).2
  · intro slot pointed
    simpa using shows.within slot pointed
  · intro condition slot pointed
    have inside := List.getElem?_eq_getElem (shows.within slot pointed)
    refine ⟨slot, _, item (Value.items _), pointed, inside, ?_,
      fun _ => .item (parts _ (List.mem_of_getElem? inside)).1 (.self _)⟩
    rw [List.map_map, List.getElem?_map, inside]
    rfl

/-- Every element of an array, at the current slot, is a spot that shows the elements of all
values. It lies in the slot unless its index was wrapped. -/
theorem Shows.element {path : String} {element : ColumnType} {offsets : Array Nat}
    {selected : Option Selection} {entry : View} {position : Position}
    (shows : Shows ⟨.array path offsets selected entry, position⟩ ⟨path, .array element⟩ values)
    (chosen : Nat) :
    Shows ⟨entry, itemIndex offsets position chosen⟩ ⟨path, element⟩
        (values.flatMap Value.items) ∧
      LiesIn (Unwrapped offsets position chosen) ⟨entry, itemIndex offsets position chosen⟩
        (values.flatMap Value.items) ⟨.array path offsets selected entry, position⟩ values := by
  obtain ⟨_, rfl, _, rest⟩ := View.array.inj shows.view
  refine ⟨⟨rest, ?_, ?_, fun _ => ofReading_of_itemIndex shows.within shows.refused⟩, ?_⟩
  · intro item member
    obtain ⟨value, inside, member⟩ := List.mem_flatMap.mp member
    have admitted : (ColumnType.array element).Admits value := shows.admitted value inside
    cases value with
    | array items => exact admitted item member
    | scalar _ => exact admitted.elim
    | tuple _ => exact admitted.elim
  · intro index here
    obtain ⟨_, _, _, _, _, there, _⟩ := getElem?_of_itemIndex shows.within here
    exact (List.getElem?_eq_some_iff.mp there).1
  · intro index here
    obtain ⟨slot, value, item, above, found, there, member⟩ :=
      getElem?_of_itemIndex shows.within here
    exact ⟨slot, value, item, above, found, there,
      fun unwrapped => .item (member unwrapped) (.self item)⟩

/-- The entry of an array is at some element of the current slot, whose index is not wrapped if the
entry was moved to an element that its slot has. -/
private theorem entryPosition_eq (own : String) (offsets : Array Nat)
    (selected : Option Selection) (entry : View) (position : Position) :
    ∃ chosen, entryPosition offsets selected position = itemIndex offsets position chosen ∧
      ((View.array own offsets selected entry).Selected →
        Unwrapped offsets position chosen) := by
  cases position with
  | error _ => exact ⟨0, rfl, fun _ => nofun⟩
  | ok slot => exact ⟨elementFor selected slot, rfl, fun valid => unwrapped_elementFor valid slot⟩

/-- What is one step below has its entries at elements of their slots, if all have. -/
private theorem selected_child {step : Step} {next : Spot} (taken : spot.child step = .ok next)
    (selected : spot.view.Selected) : next.view.Selected := by
  have reaches : spot.view.Reaches spot.position [step] next :=
    find_eq_ok_iff.mp (by rw [Spot.find, taken]; rfl)
  exact reaches.selected selected

/-- The spot one step below shows the place one step below. -/
theorem Shows.child (shows : spot.Shows place values) {step : Step} {below : Place}
    (leads : place.child step = .ok below) :
    ∃ next parts, spot.child step = .ok next ∧ next.Shows below parts ∧
      LiesIn spot.view.Selected next parts spot values := by
  obtain ⟨view, position⟩ := spot
  obtain ⟨path, type⟩ := place
  have rest := shows.view
  cases type with
  | scalar _ => cases step <;> cases leads
  | array element =>
    cases step with
    | column _ => cases leads
    | entry =>
      cases leads
      obtain ⟨selected, entry, rfl, _⟩ := View.eq_array_of_atRest rest
      obtain ⟨chosen, same, unwrapped⟩ :=
        entryPosition_eq path (offsetsOf (Value.sizes values)).toArray selected entry position
      obtain ⟨showsBelow, inside⟩ := shows.element chosen
      refine ⟨⟨entry, itemIndex _ position chosen⟩, _, ?_, showsBelow, inside.imp unwrapped⟩
      simp only [Spot.child, same]
  | tuple schema =>
    cases step with
    | entry => cases leads
    | column index =>
      cases found : schema.lookup index with
      | error _ =>
        rw [Place.child, found] at leads
        cases leads
      | ok column =>
        rw [Place.child, found] at leads
        cases leads
        obtain ⟨columns, rfl, _⟩ := View.eq_tuple_of_atRest rest
        obtain ⟨view, parts, here, showsBelow, inside⟩ :=
          shows.column (Schema.find?_of_lookup found)
        refine ⟨⟨view, position⟩, parts, ?_, showsBelow, inside _⟩
        simp only [Spot.child, here]

/-- A spot has the path and the kind of its place. -/
theorem Shows.wrongKind (shows : spot.Shows place values) (requested : Kind) :
    spot.view.wrongKind requested = place.wrongKind requested := by
  have path : spot.view.path = place.path := by
    rw [← View.path_atRest, shows.view]
    cases place.type <;> rfl
  have kind : spot.view.kind = place.type.kind := by
    rw [← View.kind_atRest, shows.view]
    cases place.type <;> rfl
  rw [View.wrongKind, path, kind, Place.wrongKind]

/-- A step that cannot be taken in the schema cannot be taken in the view, for the same reason. -/
theorem Shows.child_refused (shows : spot.Shows place values) {step : Step} {mismatch : Mismatch}
    (refused : place.child step = .error mismatch) : spot.child step = .error mismatch := by
  have wrong := shows.wrongKind
  obtain ⟨view, position⟩ := spot
  obtain ⟨path, type⟩ := place
  have rest := shows.view
  cases step with
  | entry =>
    cases type with
    | array _ => cases refused
    | _ =>
      obtain rfl := Except.error.inj refused
      rw [← wrong]
      cases view <;> first | rfl | cases rest
  | column index =>
    cases type with
    | tuple schema =>
      obtain ⟨columns, rfl, below⟩ := View.eq_tuple_of_atRest rest
      have counted : columns.length = schema.length := by
        rw [← Views.length_atRest, below, Views.length_ofRows]
      rw [Place.child, Schema.lookup_eq] at refused
      cases found : schema.find? index with
      | some column =>
        rw [found] at refused
        cases refused
      | none =>
        rw [found] at refused
        obtain rfl := Except.error.inj refused
        have absent := Views.get?_ofRows_none path (values.map Value.items) found
        rw [← below, Views.get?_atRest, Option.map_eq_none_iff] at absent
        simp only [Spot.child, absent, counted]
    | _ =>
      obtain rfl := Except.error.inj refused
      rw [← wrong]
      cases view <;> first | rfl | cases rest

/-- The spot at the end of a path shows the place at its end. -/
theorem Shows.find (shows : spot.Shows place values) {path : List Step} {below : Place}
    (leads : place.find path = .ok below) :
    ∃ next parts, spot.find path = .ok next ∧ next.Shows below parts ∧
      LiesIn spot.view.Selected next parts spot values := by
  induction path generalizing spot place values with
  | nil =>
    cases leads
    refine ⟨spot, values, rfl, shows, ?_⟩
    intro index here
    have found := List.getElem?_eq_getElem (shows.within index here)
    exact ⟨index, _, _, here, found, found, fun _ => .self _⟩
  | cons step rest inductionHypothesis =>
    obtain ⟨first, taken, leads⟩ := bind_ok_iff.mp leads
    obtain ⟨middle, items, stepped, showsMiddle, outer⟩ := shows.child taken
    obtain ⟨next, parts, found, showsNext, inner⟩ := inductionHypothesis showsMiddle leads
    refine ⟨next, parts, ?_, showsNext, (inner.imp (selected_child stepped)).trans outer⟩
    rw [Spot.find, stepped]
    exact found

/-- A path that leads nowhere in the schema leads nowhere in the view, for the same reason. -/
theorem Shows.find_refused (shows : spot.Shows place values) {path : List Step}
    {mismatch : Mismatch} (refused : place.find path = .error mismatch) :
    spot.find path = .error mismatch := by
  induction path generalizing spot place values with
  | nil => cases refused
  | cons step rest inductionHypothesis =>
    cases taken : place.child step with
    | error cause =>
      rw [Place.find, taken] at refused
      obtain rfl := Except.error.inj refused
      rw [Spot.find, shows.child_refused taken]
      rfl
    | ok next =>
      rw [Place.find, taken] at refused
      obtain ⟨middle, items, stepped, showsMiddle, _⟩ := shows.child taken
      rw [Spot.find, stepped]
      exact inductionHypothesis showsMiddle refused

end Spot

end Columnar
