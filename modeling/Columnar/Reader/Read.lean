import Columnar.Reader.View
import Columnar.Word

/-!
# Reading

Reading the values of a view at a position: the current row for the columns of the row, and for the
entry of an array the selected element of its current slot. Every look-up is guarded, so reading
past the data is a refusal of its own kind.
-/

namespace Columnar

/-- The index that a column is read at, or why there is none. -/
abbrev Position := Except Refusal Nat

namespace Leaf

/-- The value at an index. -/
def read (values : Leaf) (index : Nat) : Except Refusal Scalar :=
  match values.get? index with
  | some value => .ok value
  | none => .error (.outOfBounds index values.length)

/-- The value at an index as a value of a type. The column must hold that type, or integers where
longs are asked for. -/
def readAs (values : Leaf) (path : String) (requested : ScalarType) (index : Nat) :
    Except Refusal Scalar :=
  if values.type = requested then values.read index
  else
    match values, requested with
    | .int _, .long => do
        match ← values.read index with
        | .int value => pure (.long value.toInt64)
        | value => pure value
    | values, requested => .error (.mismatch (.wrongScalarType path requested values.type))

end Leaf

/-- Where the elements of a slot begin and where they end. -/
def slotBounds (offsets : Array Nat) (slot : Nat) : Except Refusal (Nat × Nat) :=
  match offsets[slot]?, offsets[slot + 1]? with
  | some first, some last => .ok (first, last)
  | _, _ => .error (.outOfBounds slot offsets.size)

/-- The number of elements of a slot. -/
def slotSize (offsets : Array Nat) (position : Position) : Except Refusal Nat := do
  let slot ← position
  let (first, last) ← slotBounds offsets slot
  pure (last - first)

/-- The index among all items of an element of a slot that begins at `first` and ends at `last`. Up
to its end a slot is stored, so these indices do not wrap; past it the sum is a machine word. -/
def itemOf (first last element : Nat) : Nat :=
  if element ≤ last - first then first + element else toWord (first + element)

/-- The index among all items of an element of a slot. -/
def itemIndex (offsets : Array Nat) (position : Position) (element : Nat) : Position := do
  let slot ← position
  let (first, last) ← slotBounds offsets slot
  let item := itemOf first last element
  if last ≤ item then throw (.misuse (.elementOutOfRange element (last - first)))
  else pure item

section Items

variable {offsets : Array Nat} {slot first last element : Nat}

/-- A sum that fits into a machine word is not wrapped. -/
theorem itemOf_of_lt (small : first + element < wordRange) :
    itemOf first last element = first + element := by
  rw [itemOf, toWord_of_lt small, ite_self]

theorem itemIndex_eq (bounds : slotBounds offsets slot = .ok (first, last)) (element : Nat) :
    itemIndex offsets (.ok slot) element =
      if last ≤ itemOf first last element then
        .error (.misuse (.elementOutOfRange element (last - first)))
      else .ok (itemOf first last element) := by
  simp only [itemIndex, bind, Except.bind, bounds]
  rfl

/-- The elements of a slot have their indices. -/
theorem itemIndex_of_lt (bounds : slotBounds offsets slot = .ok (first, last))
    (inside : first + element < last) :
    itemIndex offsets (.ok slot) element = .ok (first + element) := by
  have item : itemOf first last element = first + element := if_pos (by omega)
  rw [itemIndex_eq bounds, item, if_neg (Nat.not_le.mpr inside)]

/-- Past a slot there is no element, as long as the sum fits into a machine word. -/
theorem itemIndex_of_ge (bounds : slotBounds offsets slot = .ok (first, last))
    (past : last ≤ first + element) (small : first + element < wordRange) :
    itemIndex offsets (.ok slot) element =
      .error (.misuse (.elementOutOfRange element (last - first))) := by
  rw [itemIndex_eq bounds, itemOf_of_lt small, if_pos past]

/-- An index that is found lies before the end of the slot. -/
theorem lt_of_itemIndex (bounds : slotBounds offsets slot = .ok (first, last)) {item : Nat}
    (found : itemIndex offsets (.ok slot) element = .ok item) :
    item < last ∧ item = itemOf first last element := by
  rw [itemIndex_eq bounds] at found
  split at found
  · cases found
  · rename_i inside
    cases found
    exact ⟨Nat.not_le.mp inside, rfl⟩

end Items

/-- The element that an array's entry is at in a slot: the selected one if the selection was made
for that slot, else the first. -/
def elementFor (selected : Option Selection) (slot : Nat) : Nat :=
  match selected with
  | some selection => if selection.slot = slot then selection.element else 0
  | none => 0

/-- The position of an array's entry. -/
def entryPosition (offsets : Array Nat) (selected : Option Selection) (position : Position) :
    Position := do
  let slot ← position
  itemIndex offsets (.ok slot) (elementFor selected slot)

mutual

/-- The value of a column at a position, with everything below it. -/
def View.read : View → Position → Except Refusal Value
  | .scalar _ values, position => do
      let index ← position
      let value ← values.read index
      pure (.scalar value)
  | .array _ offsets _ entry, position => do
      let slot ← position
      let (first, last) ← slotBounds offsets slot
      let items ← (List.range (last - first)).mapM fun element =>
        entry.read (.ok (first + element))
      pure (.array items)
  | .tuple _ columns, position => do
      let items ← columns.read position
      pure (.tuple items)

/-- The values of columns at a position, in order. -/
def Views.read : Views → Position → Except Refusal (List Value)
  | .nil, _ => .ok []
  | .cons _ view rest, position => do
      let value ← view.read position
      let values ← rest.read position
      pure (value :: values)

end

/-- A column and the position it is read at. -/
structure Spot where
  view : View
  position : Position

namespace Spot

/-- The column one step below. The position of an array's entry is looked for only when something
is read there. -/
def child (spot : Spot) (step : Step) : Except Mismatch Spot :=
  match step, spot.view with
  | .column index, .tuple _ columns =>
      match columns.get? index with
      | some view => .ok ⟨view, spot.position⟩
      | none => .error (index.missing columns.length)
  | .column _, view => .error (view.wrongKind .tuple)
  | .entry, .array _ offsets selected entry =>
      .ok ⟨entry, entryPosition offsets selected spot.position⟩
  | .entry, view => .error (view.wrongKind .array)

/-- The column at the end of a path. -/
def find (spot : Spot) : List Step → Except Mismatch Spot
  | [] => .ok spot
  | step :: rest => do
      let below ← spot.child step
      below.find rest

/-- The value of the column. -/
def read (spot : Spot) : Except Refusal Value :=
  spot.view.read spot.position

/-- The value of a scalar column, as it is or as a value of a type. The position is looked for
before the type. -/
def readScalar (spot : Spot) (requested : Option ScalarType) : Except Refusal Scalar := do
  let values ← spot.view.asScalar.mapError .mismatch
  let index ← spot.position
  match requested with
  | some type => values.readAs spot.view.path type index
  | none => values.read index

end Spot

/-- An array and the position it is read at. -/
structure ArraySpot where
  path : String
  offsets : Array Nat
  selected : Option Selection
  entry : View
  position : Position

namespace Spot

/-- The array that a column is. -/
def asArray (spot : Spot) : Except Mismatch ArraySpot :=
  match spot.view with
  | .array path offsets selected entry => .ok ⟨path, offsets, selected, entry, spot.position⟩
  | view => .error (view.wrongKind .array)

end Spot

namespace ArraySpot

/-- The number of elements of the current slot. -/
def size (array : ArraySpot) : Except Refusal Nat :=
  slotSize array.offsets array.position

/-- An element of the current slot, whatever its shape. -/
def readAt (array : ArraySpot) (element : Nat) : Except Refusal Value := do
  let index ← itemIndex array.offsets array.position element
  array.entry.read (.ok index)

/-- A scalar element of the current slot as a value of a type. The entry must be a scalar; the
element is looked for before the type. -/
def readScalarAt (array : ArraySpot) (element : Nat) (requested : ScalarType) :
    Except Refusal Scalar := do
  let values ← array.entry.asScalar.mapError .mismatch
  let index ← itemIndex array.offsets array.position element
  values.readAs array.entry.path requested index

end ArraySpot

/-- Moves the entry of the array at the end of a path to an element of the current slot. -/
def View.select (element : Nat) :
    (path : List Step) → (position : Position) → (view : View) → Except Refusal View
  | [], position, .array path offsets _ entry => do
      let slot ← position
      let _ ← itemIndex offsets position element
      pure (.array path offsets (some ⟨slot, element⟩) entry)
  | [], _, view => .error (.mismatch (view.wrongKind .array))
  | .column index :: rest, position, .tuple path columns => do
      let missing := index.missing columns.length
      let columns ←
        columns.update (fun child => View.select element rest position child) missing index
      pure (.tuple path columns)
  | .column _ :: _, _, view => .error (.mismatch (view.wrongKind .tuple))
  | .entry :: rest, position, .array path offsets selected entry => do
      let below := entryPosition offsets selected position
      let entry ← View.select element rest below entry
      pure (.array path offsets selected entry)
  | .entry :: _, _, view => .error (.mismatch (view.wrongKind .array))

/-- Puts the entry of the array at the end of a path back to where it was, if there is one. -/
def View.restore (selected : Option Selection) : List Step → View → View
  | [], .array path offsets _ entry => .array path offsets selected entry
  | .column index :: rest, .tuple path columns =>
      .tuple path (columns.modify (fun child => View.restore selected rest child) index)
  | .entry :: rest, .array path offsets own entry =>
      .array path offsets own (View.restore selected rest entry)
  | _, view => view

end Columnar
