import Columnar.Proofs.Reader.AtRest

/-!
# Indices of elements

The index of an element is counted from the start of its slot. As long as the sum is a machine word,
what is found by it lies in the slot, so that an entry which is moved is at an element that its slot
has, whatever is done with the reader later.
-/

namespace Columnar

/-! ### The current slot -/

section Slot

variable {offsets : Array Nat} {slot first last element item : Nat}

theorem slotSize_eq (bounds : slotBounds offsets slot = .ok (first, last)) :
    slotSize offsets (.ok slot) = .ok (last - first) :=
  bind_ok_iff.mpr ⟨slot, rfl, bind_ok_iff.mpr ⟨_, bounds, rfl⟩⟩

/-- An index that is found is that of a slot with bounds. -/
theorem slotBounds_of_itemIndex {position : Position}
    (found : itemIndex offsets position element = .ok item) :
    ∃ slot first last, position = .ok slot ∧ slotBounds offsets slot = .ok (first, last) := by
  obtain ⟨slot, here, inSlot⟩ := bind_ok_iff.mp found
  obtain ⟨⟨first, last⟩, bounds, _⟩ := bind_ok_iff.mp inSlot
  exact ⟨slot, first, last, here, bounds⟩

/-- Whether the index of an element is its distance from the start of the slot at a position, so
that no sum was wrapped. -/
def Unwrapped (offsets : Array Nat) (position : Position) (element : Nat) : Prop :=
  ∀ slot first last, position = .ok slot → slotBounds offsets slot = .ok (first, last) →
    itemOf first last element = first + element

/-- An element that is found without a wrapped sum is one of its slot. -/
theorem bounds_of_itemIndex {position : Position} (unwrapped : Unwrapped offsets position element)
    (found : itemIndex offsets position element = .ok item) :
    ∃ slot first last, position = .ok slot ∧ slotBounds offsets slot = .ok (first, last) ∧
      item = first + element ∧ item < last := by
  obtain ⟨slot, first, last, rfl, bounds⟩ := slotBounds_of_itemIndex found
  obtain ⟨before, rfl⟩ := lt_of_itemIndex bounds found
  exact ⟨slot, first, last, rfl, bounds, unwrapped slot first last rfl bounds, before⟩

end Slot

/-! ### Counting from the start of a slot -/

namespace Reader

/-- Where the current slot of the array at the end of a path begins. -/
def slotStart (reader : Reader) (path : List Step) : Except Refusal Nat := do
  let array ← reader.findArray path
  let slot ← array.position
  let (first, _) ← slotBounds array.offsets slot
  pure first

/-- Whether the index of an element, counted from the start of the current slot, is a machine
word. -/
def CountsTo (reader : Reader) (path : List Step) (index : Nat) : Prop :=
  match reader.slotStart path with
  | .ok first => first + index < wordRange
  | .error _ => True

/-- Whether the index of the element that an operation is about, if it is about one, is a machine
word when it is counted from the start of the current slot. -/
def Counts (reader : Reader) : Action → Prop
  | .select path index => reader.CountsTo path index
  | .selectTuple path index => reader.CountsTo path index
  | .element path index => reader.CountsTo path index
  | .scalarElement path index _ => reader.CountsTo path index
  | _ => True

/-- Whether that is so for all operations of a sequence, one after the other. -/
def CountsAll : Reader → List Action → Prop
  | _, [] => True
  | reader, action :: rest => reader.Counts action ∧ CountsAll (reader.act action).1 rest

variable {reader : Reader} {path : List Step} {index : Nat}

instance (reader : Reader) (path : List Step) (index : Nat) :
    Decidable (reader.CountsTo path index) :=
  show Decidable (match reader.slotStart path with
    | .ok first => first + index < wordRange
    | .error _ => True) from
  match reader.slotStart path with
  | .ok first => inferInstanceAs (Decidable (first + index < wordRange))
  | .error _ => inferInstanceAs (Decidable True)

instance (reader : Reader) (action : Action) : Decidable (reader.Counts action) :=
  match action with
  | .select path index => inferInstanceAs (Decidable (reader.CountsTo path index))
  | .selectTuple path index => inferInstanceAs (Decidable (reader.CountsTo path index))
  | .element path index => inferInstanceAs (Decidable (reader.CountsTo path index))
  | .scalarElement path index _ => inferInstanceAs (Decidable (reader.CountsTo path index))
  | .next | .setRow _ | .reset | .row | .object _ | .scalar _ _ | .size _ =>
      inferInstanceAs (Decidable True)

/-- Sequences of operations are decided one after the other. -/
def decideCountsAll : ∀ (reader : Reader) (actions : List Action),
    Decidable (reader.CountsAll actions)
  | _, [] => inferInstanceAs (Decidable True)
  | reader, action :: rest =>
      have := decideCountsAll (reader.act action).1 rest
      inferInstanceAs (Decidable (reader.Counts action ∧ CountsAll (reader.act action).1 rest))

instance (reader : Reader) (actions : List Action) : Decidable (reader.CountsAll actions) :=
  reader.decideCountsAll actions

theorem CountsTo.lt {array : ArraySpot} {slot first last : Nat}
    (counts : reader.CountsTo path index) (found : reader.findArray path = .ok array)
    (here : array.position = .ok slot)
    (bounds : slotBounds array.offsets slot = .ok (first, last)) : first + index < wordRange := by
  have start : reader.slotStart path = .ok first :=
    bind_ok_iff.mpr ⟨array, found, bind_ok_iff.mpr ⟨slot, here, bind_ok_iff.mpr ⟨_, bounds, rfl⟩⟩⟩
  rwa [CountsTo, start] at counts

theorem CountsTo.unwrapped {array : ArraySpot} (counts : reader.CountsTo path index)
    (found : reader.findArray path = .ok array) :
    Unwrapped array.offsets array.position index :=
  fun _ _ _ here bounds => itemOf_of_lt (counts.lt found here bounds)

/-- The element that an operation chooses is one that it is about. -/
theorem Counts.of_choice {action : Action} (counts : reader.Counts action)
    (chosen : action.choice? = some (path, index)) : reader.CountsTo path index := by
  cases action <;> cases chosen <;> exact counts

end Reader

/-! ### Moved entries -/

mutual

/-- Whether every entry of a view that was moved is at an element of the slot it was moved for. -/
def View.Selected : View → Prop
  | .scalar _ _ => True
  | .array _ offsets selected entry =>
      (∀ selection, selected = some selection →
        ∃ size, slotSize offsets (.ok selection.slot) = .ok size ∧ selection.element < size) ∧
      entry.Selected
  | .tuple _ columns => columns.Selected

/-- Whether every entry of some views that was moved is at an element of the slot it was moved
for. -/
def Views.Selected : Views → Prop
  | .nil => True
  | .cons _ view rest => view.Selected ∧ rest.Selected

end

mutual

/-- At rest no entry was moved. -/
theorem View.selected_atRest : ∀ view : View, view.atRest.Selected
  | .scalar _ _ => trivial
  | .array _ _ _ entry => ⟨nofun, View.selected_atRest entry⟩
  | .tuple _ columns => Views.selected_atRest columns

/-- At rest no entry was moved. -/
theorem Views.selected_atRest : ∀ columns : Views, columns.atRest.Selected
  | .nil => trivial
  | .cons _ view rest => ⟨View.selected_atRest view, Views.selected_atRest rest⟩

end

section Entry

variable {own : String} {offsets : Array Nat} {selected : Option Selection} {entry : View}
  {slot first last : Nat}

/-- An entry is at an element that the current slot has, or at the first one. -/
theorem elementFor_eq_zero_or_lt (valid : (View.array own offsets selected entry).Selected)
    (bounds : slotBounds offsets slot = .ok (first, last)) :
    elementFor selected slot = 0 ∨ elementFor selected slot < last - first := by
  cases selected with
  | none => exact .inl rfl
  | some selection =>
    rw [elementFor]
    split
    · rename_i here
      obtain ⟨size, counted, below⟩ := valid.1 selection rfl
      rw [here, slotSize_eq bounds] at counted
      obtain rfl := Except.ok.inj counted
      exact .inr below
    · exact .inl rfl

/-- The index of the element that an entry is at is never wrapped. -/
theorem unwrapped_elementFor (valid : (View.array own offsets selected entry).Selected)
    (slot : Nat) : Unwrapped offsets (.ok slot) (elementFor selected slot) := by
  rintro _ first last ⟨⟩ bounds
  have inside := elementFor_eq_zero_or_lt valid bounds
  exact if_pos (by omega)

end Entry

private theorem Views.Selected.modify {change : View → View} {view : View} :
    ∀ {columns : Views} {index : ColumnIndex}, columns.Selected →
      columns.get? index = some view → (change view).Selected →
      (columns.modify change index).Selected
  | .nil, _, _, found, _ => nomatch found
  | .cons _ _ _, .position 0, selected, found, changed => by
      obtain rfl := Option.some.inj found
      exact ⟨changed, selected.2⟩
  | .cons _ _ _, .position (_ + 1), selected, found, changed =>
      ⟨selected.1, Views.Selected.modify selected.2 found changed⟩
  | .cons _ _ _, .name _, selected, found, changed => by
      rw [Views.get?] at found
      rw [Views.modify]
      split at found
      · rename_i own
        obtain rfl := Option.some.inj found
        rw [if_pos own]
        exact ⟨changed, selected.2⟩
      · rename_i other
        rw [if_neg other]
        exact ⟨selected.1, Views.Selected.modify selected.2 found changed⟩

namespace View

variable {view : View} {position : Position} {path : List Step} {spot : Spot}

/-- Entries below the end of a path are at elements of their slots, as all are. -/
theorem Reaches.selected (reaches : view.Reaches position path spot) (selected : view.Selected) :
    spot.view.Selected := by
  induction reaches with
  | here _ _ => exact selected
  | column found _ inductionHypothesis =>
    exact inductionHypothesis (Views.of_get? id selected found)
  | entry _ inductionHypothesis => exact inductionHypothesis selected.2

/-- Putting an entry to an element of a slot that has it keeps entries at elements of their slots.
-/
theorem Reaches.selected_restore {own : String} {offsets : Array Nat} {chosen : Option Selection}
    {entry : View} (reaches : view.Reaches position path spot)
    (isArray : spot.view = .array own offsets chosen entry) (selected : view.Selected)
    {slot element : Nat}
    (has : ∃ size, slotSize offsets (.ok slot) = .ok size ∧ element < size) :
    (view.restore (some ⟨slot, element⟩) path).Selected := by
  induction reaches with
  | here view position =>
    subst isArray
    refine ⟨?_, selected.2⟩
    rintro _ ⟨⟩
    exact has
  | column found _ inductionHypothesis =>
    have below := inductionHypothesis isArray (Views.of_get? id selected found)
    exact Views.Selected.modify selected found below
  | entry _ inductionHypothesis => exact ⟨selected.1, inductionHypothesis isArray selected.2⟩

end View

namespace Reader

variable {reader moved : Reader} {path : List Step} {index : Nat}

/-- A reader begins with no entry moved. -/
theorem selected_onRows (schema : Schema) (rows : List Value) :
    (onRows schema rows .beforeFirst).root.Selected := by
  have resting := View.selected_atRest (onRows schema rows .beforeFirst).root
  rwa [(reads_onRows schema rows).root] at resting

/-- An entry that is moved to an element by an index that a machine word holds is at an element that
its slot has. -/
theorem selected_select (selected : reader.root.Selected) (counts : reader.CountsTo path index)
    (chosen : reader.select path index = .ok moved) : moved.root.Selected := by
  obtain ⟨array, slot, item, found, here, inside, rfl⟩ := select_eq_ok_iff.mp chosen
  obtain ⟨_, first, last, ⟨⟩, bounds, item, before⟩ :=
    bounds_of_itemIndex (here ▸ counts.unwrapped found) inside
  exact (findArray_eq_ok_iff.mp found).selected_restore rfl selected
    ⟨last - first, slotSize_eq bounds, by omega⟩

/-- An operation keeps entries at elements of the slots they were moved for. -/
theorem selected_act (selected : reader.root.Selected) {action : Action}
    (counts : reader.Counts action) : (reader.act action).1.root.Selected := by
  rcases reader.act_cases action with moves | ⟨path, index, choice, chosen⟩
  · rwa [moves]
  · exact selected_select selected (counts.of_choice choice) chosen

/-- Operations one after the other keep entries at elements of the slots they were moved for. -/
theorem selected_run (selected : reader.root.Selected) {actions : List Action}
    (counts : reader.CountsAll actions) : (reader.run actions).root.Selected := by
  induction actions generalizing reader with
  | nil => exact selected
  | cons action rest inductionHypothesis =>
    exact inductionHypothesis (selected_act selected counts.1) counts.2

end Reader

end Columnar
