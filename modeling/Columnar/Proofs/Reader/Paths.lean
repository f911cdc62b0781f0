import Columnar.Proofs.Results
import Columnar.Reader.Basic

/-!
# Columns at the end of a path in a view

A path leads from a view to a column and to the position that it is read at. Moving the entry of the
array at the end of a path, if the path leads to one and the array has the element, is putting the
entry there for the current slot; it changes nothing about the way.
-/

namespace Columnar

/-! ### One of the columns -/

namespace Views

/-- What holds of all columns holds of the one that is found. -/
theorem of_get? {each : View → Prop} {all : Views → Prop}
    (split : ∀ {name : String} {view : View} {rest : Views},
      all (.cons name view rest) → each view ∧ all rest) :
    ∀ {columns : Views} {index : ColumnIndex} {view : View}, all columns →
      columns.get? index = some view → each view
  | .nil, _, _, _, found => nomatch found
  | .cons _ _ _, .position 0, _, holds, found => by
      obtain rfl := Option.some.inj found
      exact (split holds).1
  | .cons _ _ rest, .position (position + 1), _, holds, found =>
      of_get? split (split holds).2 found
  | .cons name _ rest, .name sought, _, holds, found => by
      rw [get?] at found
      split at found
      · obtain rfl := Option.some.inj found
        exact (split holds).1
      · exact of_get? split (split holds).2 found

/-- A changed column is found changed. -/
theorem get?_modify (change : View → View) : ∀ (columns : Views) (index : ColumnIndex),
    (columns.modify change index).get? index = (columns.get? index).map change
  | .nil, _ => rfl
  | .cons _ _ _, .position 0 => rfl
  | .cons _ _ rest, .position (position + 1) => get?_modify change rest (.position position)
  | .cons name _ rest, .name sought => by
      by_cases own : name = sought
      · rw [modify, if_pos own, get?, if_pos own, get?, if_pos own]
        rfl
      · rw [modify, if_neg own, get?, if_neg own, get?, if_neg own]
        exact get?_modify change rest (.name sought)

/-- Two changes of a column are one. -/
theorem modify_modify (first second : View → View) : ∀ (columns : Views) (index : ColumnIndex),
    (columns.modify first index).modify second index =
      columns.modify (fun view => second (first view)) index
  | .nil, _ => rfl
  | .cons _ _ _, .position 0 => rfl
  | .cons name view rest, .position (position + 1) =>
      congrArg (cons name view) (modify_modify first second rest (.position position))
  | .cons name _ rest, .name sought => by
      by_cases own : name = sought
      · simp only [modify, if_pos own]
      · simp only [modify, if_neg own, modify_modify first second rest (.name sought)]

/-- A change of a column is known by what it makes of the column that is found. -/
theorem modify_congr {first second : View → View} {view : View} (same : first view = second view) :
    ∀ (columns : Views) {index : ColumnIndex}, columns.get? index = some view →
      columns.modify first index = columns.modify second index
  | .nil, _, found => nomatch found
  | .cons name _ rest, .position 0, found => by
      obtain rfl := Option.some.inj found
      rw [modify, modify, same]
  | .cons name own rest, .position (position + 1), found =>
      congrArg (cons name own) (modify_congr same rest found)
  | .cons name own rest, .name sought, found => by
      rw [get?] at found
      split at found
      · rename_i here
        obtain rfl := Option.some.inj found
        rw [modify, modify, if_pos here, if_pos here, same]
      · rename_i other
        rw [modify, modify, if_neg other, if_neg other, modify_congr same rest found]

/-- A change that leaves the column that is found leaves all columns. -/
theorem modify_self {change : View → View} {view : View} (same : change view = view) :
    ∀ (columns : Views) {index : ColumnIndex}, columns.get? index = some view →
      columns.modify change index = columns
  | .nil, _, found => nomatch found
  | .cons name _ rest, .position 0, found => by
      obtain rfl := Option.some.inj found
      rw [modify, same]
  | .cons name own rest, .position (position + 1), found =>
      congrArg (cons name own) (modify_self same rest found)
  | .cons name own rest, .name sought, found => by
      rw [get?] at found
      split at found
      · rename_i here
        obtain rfl := Option.some.inj found
        rw [modify, if_pos here, same]
      · rename_i other
        rw [modify, if_neg other, modify_self same rest found]

/-- A column that is found is updated by what the change makes of it, if that is not refused. -/
theorem update_of_get? {change : View → Except Refusal View} {missing : Mismatch} {view : View} :
    ∀ (columns : Views) {index : ColumnIndex}, columns.get? index = some view →
      columns.update change missing index =
        (change view).map fun changed => columns.modify (fun _ => changed) index
  | .nil, _, found => nomatch found
  | .cons name own rest, .position 0, found => by
      obtain rfl := Option.some.inj found
      rw [update]
      cases change own <;> rfl
  | .cons name own rest, .position (position + 1), found => by
      rw [update, update_of_get? rest found]
      cases change view <;> rfl
  | .cons name own rest, .name sought, found => by
      rw [get?] at found
      split at found
      · rename_i here
        obtain rfl := Option.some.inj found
        simp only [update, modify, if_pos here]
        cases change own <;> rfl
      · rename_i other
        simp only [update, modify, if_neg other, update_of_get? rest found]
        cases change view <;> rfl

/-- Without a column to update there is a mismatch. -/
theorem update_of_missing {change : View → Except Refusal View} {missing : Mismatch} :
    ∀ (columns : Views) {index : ColumnIndex}, columns.get? index = none →
      columns.update change missing index = .error (.mismatch missing)
  | .nil, .name _, _ => rfl
  | .nil, .position _, _ => rfl
  | .cons _ _ _, .position 0, absent => nomatch absent
  | .cons _ _ rest, .position (position + 1), absent => by
      rw [update, update_of_missing rest absent]
      rfl
  | .cons name _ rest, .name sought, absent => by
      rw [get?] at absent
      split at absent
      · cases absent
      · rename_i other
        rw [update, if_neg other, update_of_missing rest absent]
        rfl

end Views

/-! ### Where paths lead -/

/-- Where a path leads from a view at a position. -/
inductive View.Reaches : View → Position → List Step → Spot → Prop where
  | here (view : View) (position : Position) : Reaches view position [] ⟨view, position⟩
  | column {path : String} {columns : Views} {index : ColumnIndex} {child : View}
      {position : Position} {rest : List Step} {spot : Spot}
      (found : columns.get? index = some child) (below : Reaches child position rest spot) :
      Reaches (.tuple path columns) position (.column index :: rest) spot
  | entry {path : String} {offsets : Array Nat} {selected : Option Selection} {entry : View}
      {position : Position} {rest : List Step} {spot : Spot}
      (below : Reaches entry (entryPosition offsets selected position) rest spot) :
      Reaches (.array path offsets selected entry) position (.entry :: rest) spot

theorem Spot.find_eq_ok_iff {view : View} {position : Position} {path : List Step} {spot : Spot} :
    Spot.find ⟨view, position⟩ path = .ok spot ↔ view.Reaches position path spot := by
  constructor
  · intro found
    induction path generalizing view position with
    | nil =>
      cases found
      exact .here view position
    | cons step rest inductionHypothesis =>
      obtain ⟨next, taken, found⟩ := bind_ok_iff.mp found
      cases step with
      | column index =>
        cases view with
        | scalar _ _ => cases taken
        | array _ _ _ _ => cases taken
        | tuple path columns =>
          simp only [child] at taken
          split at taken
          · rename_i below present
            cases taken
            exact .column present (inductionHypothesis found)
          · cases taken
      | entry =>
        cases view with
        | scalar _ _ => cases taken
        | tuple _ _ => cases taken
        | array path offsets selected entry =>
          cases taken
          exact .entry (inductionHypothesis found)
  · intro reaches
    induction reaches with
    | here view position => rfl
    | column found _ inductionHypothesis =>
      refine bind_ok_iff.mpr ⟨_, ?_, inductionHypothesis⟩
      simp only [child, found]
    | entry _ inductionHypothesis => exact bind_ok_iff.mpr ⟨_, rfl, inductionHypothesis⟩

/-- A path is walked part by part. -/
theorem Spot.find_append (spot : Spot) (first second : List Step) :
    spot.find (first ++ second) = spot.find first >>= fun below => below.find second := by
  induction first generalizing spot with
  | nil => rfl
  | cons step rest inductionHypothesis =>
    simp only [List.cons_append, Spot.find]
    cases spot.child step with
    | error _ => rfl
    | ok below => exact inductionHypothesis below

namespace View

variable {view : View} {position : Position} {path : List Step} {spot : Spot}

/-- Paths are walked one after the other. -/
theorem Reaches.append {more : List Step} {below : Spot} (first : view.Reaches position path spot)
    (second : spot.view.Reaches spot.position more below) :
    view.Reaches position (path ++ more) below := by
  induction first with
  | here _ _ => exact second
  | column found _ inductionHypothesis => exact .column found (inductionHypothesis second)
  | entry _ inductionHypothesis => exact .entry (inductionHypothesis second)

/-- Without a position there is none anywhere below. -/
theorem Reaches.position_eq_error (reaches : view.Reaches position path spot) {refusal : Refusal}
    (missing : position = .error refusal) : spot.position = .error refusal := by
  induction reaches with
  | here _ _ => exact missing
  | column _ _ inductionHypothesis => exact inductionHypothesis missing
  | entry _ inductionHypothesis =>
    refine inductionHypothesis ?_
    rw [missing]
    rfl

/-! ### Putting entries back -/

/-- Where an entry was put last is where it is. -/
theorem restore_restore (first last : Option Selection) : ∀ (path : List Step) (view : View),
    (view.restore first path).restore last path = view.restore last path
  | [], .scalar _ _ => rfl
  | [], .array _ _ _ _ => rfl
  | [], .tuple _ _ => rfl
  | .column _ :: _, .scalar _ _ => rfl
  | .column _ :: _, .array _ _ _ _ => rfl
  | .column index :: rest, .tuple path columns => by
      simp only [restore, Views.modify_modify, restore_restore first last rest]
  | .entry :: _, .scalar _ _ => rfl
  | .entry :: rest, .array path offsets selected entry =>
      congrArg (array path offsets selected) (restore_restore first last rest entry)
  | .entry :: _, .tuple _ _ => rfl

variable {own : String} {offsets : Array Nat} {selected : Option Selection} {entry : View}

/-- Putting an entry where it is changes nothing. -/
theorem Reaches.restore_self (reaches : view.Reaches position path spot)
    (array : spot.view = .array own offsets selected entry) :
    view.restore selected path = view := by
  induction reaches with
  | here view position =>
    subst array
    rfl
  | @column path columns index child position rest spot found below inductionHypothesis =>
    rw [restore, Views.modify_self (inductionHypothesis array) columns found]
  | entry below inductionHypothesis => rw [restore, inductionHypothesis array]

/-- Putting an entry anywhere changes nothing about the way to its array. -/
theorem Reaches.restore (reaches : view.Reaches position path spot)
    (array : spot.view = .array own offsets selected entry) (moved : Option Selection) :
    (view.restore moved path).Reaches position path
      ⟨.array own offsets moved entry, spot.position⟩ := by
  induction reaches with
  | here view position =>
    subst array
    exact .here _ _
  | column found below inductionHypothesis =>
    refine .column ?_ (inductionHypothesis array)
    rw [Views.get?_modify, found]
    rfl
  | entry below inductionHypothesis => exact .entry (inductionHypothesis array)

/-- Moving an entry is putting it to an element of the current slot, if there is such an element. -/
theorem Reaches.select_eq (reaches : view.Reaches position path spot)
    (array : spot.view = .array own offsets selected entry) (element : Nat) :
    view.select element path position = (do
      let slot ← spot.position
      let _ ← itemIndex offsets spot.position element
      pure (view.restore (some ⟨slot, element⟩) path)) := by
  induction reaches with
  | here view position =>
    subst array
    rfl
  | @column path columns index child position rest spot found below inductionHypothesis =>
    rw [select, Views.update_of_get? columns found, inductionHypothesis array]
    cases spot.position with
    | error _ => rfl
    | ok slot =>
      cases itemIndex offsets (.ok slot) element with
      | error _ => rfl
      | ok _ =>
        refine congrArg (fun columns => Except.ok (View.tuple path columns)) ?_
        refine Views.modify_congr ?_ columns found
        rfl
  | @entry path offsets selected entry position rest spot below inductionHypothesis =>
    rw [select, inductionHypothesis array]
    cases spot.position with
    | error _ => rfl
    | ok slot => cases itemIndex _ (.ok slot) element <;> rfl

/-- Moving an entry is refused for the column at the end of the path as it is there. -/
theorem Reaches.select_error (reaches : view.Reaches position path spot) {element : Nat}
    {refusal : Refusal} (refused : spot.view.select element [] spot.position = .error refusal) :
    view.select element path position = .error refusal := by
  induction reaches with
  | here _ _ => exact refused
  | @column path columns index child position rest spot found below inductionHypothesis =>
    rw [select, Views.update_of_get? columns found, inductionHypothesis refused]
    rfl
  | entry below inductionHypothesis =>
    rw [select, inductionHypothesis refused]
    rfl

/-- Moving an entry is refused for a path that leads nowhere. -/
theorem select_of_lost {element : Nat} {mismatch : Mismatch}
    (lost : Spot.find ⟨view, position⟩ path = .error mismatch) :
    view.select element path position = .error (.mismatch mismatch) := by
  induction path generalizing view position with
  | nil => cases lost
  | cons step rest inductionHypothesis =>
    cases step with
    | column index =>
      cases view with
      | scalar _ _ =>
        cases lost
        rfl
      | array _ _ _ _ =>
        cases lost
        rfl
      | tuple own columns =>
        cases found : columns.get? index with
        | none =>
          have missing : mismatch = index.missing columns.length := by
            simp only [Spot.find, Spot.child, found] at lost
            exact (Except.error.inj lost).symm
          rw [select, Views.update_of_missing columns found, missing]
          rfl
        | some child =>
          simp only [Spot.find, Spot.child, found] at lost
          rw [select, Views.update_of_get? columns found, inductionHypothesis lost]
          rfl
    | entry =>
      cases view with
      | scalar _ _ =>
        cases lost
        rfl
      | tuple _ _ =>
        cases lost
        rfl
      | array own offsets selected entry =>
        rw [select, inductionHypothesis lost]
        rfl

end View

namespace Reader

variable {reader : Reader} {path : List Step} {spot : Spot}

theorem find_eq_ok_iff :
    reader.find path = .ok spot ↔ reader.root.Reaches reader.position path spot := by
  rw [find, mapError_ok_iff, Spot.find_eq_ok_iff]

/-- A path is walked part by part. -/
theorem find_append (reader : Reader) (first second : List Step) :
    reader.find (first ++ second) = (do
      let spot ← reader.find first
      (spot.find second).mapError .mismatch) := by
  rw [find, find, Spot.find_append]
  cases Spot.find ⟨reader.root, reader.position⟩ first <;> rfl

theorem findArray_of_find {own : String} {offsets : Array Nat} {selected : Option Selection}
    {entry : View} {position : Position}
    (found : reader.find path = .ok ⟨.array own offsets selected entry, position⟩) :
    reader.findArray path = .ok ⟨own, offsets, selected, entry, position⟩ := by
  rw [findArray, found]
  rfl

/-- Where the path goes on to from an array. -/
theorem find_entry {own : String} {offsets : Array Nat} {selected : Option Selection}
    {entry : View} {position : Position}
    (found : reader.find path = .ok ⟨.array own offsets selected entry, position⟩) :
    reader.find (path ++ [.entry]) = .ok ⟨entry, entryPosition offsets selected position⟩ :=
  find_eq_ok_iff.mpr ((find_eq_ok_iff.mp found).append (.entry (.here _ _)))

theorem findArray_eq_ok_iff {array : ArraySpot} :
    reader.findArray path = .ok array ↔ reader.root.Reaches reader.position path
      ⟨.array array.path array.offsets array.selected array.entry, array.position⟩ := by
  constructor
  · intro found
    obtain ⟨⟨view, position⟩, leads, cast⟩ := bind_ok_iff.mp found
    cases view with
    | scalar _ _ => cases cast
    | tuple _ _ => cases cast
    | array own offsets selected entry =>
      cases cast
      exact find_eq_ok_iff.mp leads
  · exact fun reaches => findArray_of_find (find_eq_ok_iff.mpr reaches)

/-- Moving an entry is finding the array and the element of its current slot, and putting the entry
there. -/
theorem select_eq (reader : Reader) (path : List Step) (element : Nat) :
    reader.select path element = (do
      let array ← reader.findArray path
      let slot ← array.position
      let _ ← itemIndex array.offsets array.position element
      pure (reader.restore path (some ⟨slot, element⟩))) := by
  rw [Reader.select, findArray]
  cases leads : Spot.find ⟨reader.root, reader.position⟩ path with
  | error mismatch =>
    rw [View.select_of_lost leads, find, leads]
    rfl
  | ok spot =>
    have reaches := Spot.find_eq_ok_iff.mp leads
    rw [find, leads]
    obtain ⟨view, position⟩ := spot
    cases view with
    | scalar own values =>
      rw [reaches.select_error rfl]
      rfl
    | tuple own columns =>
      rw [reaches.select_error rfl]
      rfl
    | array own offsets selected entry =>
      rw [reaches.select_eq rfl]
      cases position with
      | error _ => rfl
      | ok slot =>
        change (_ >>= fun root => _) = itemIndex offsets (.ok slot) element >>= _
        cases itemIndex offsets (.ok slot) element <;> rfl

theorem select_eq_ok_iff {element : Nat} {moved : Reader} :
    reader.select path element = .ok moved ↔ ∃ array slot item,
      reader.findArray path = .ok array ∧ array.position = .ok slot ∧
      itemIndex array.offsets (.ok slot) element = .ok item ∧
      reader.restore path (some ⟨slot, element⟩) = moved := by
  rw [select_eq]
  constructor
  · intro selected
    obtain ⟨array, found, selected⟩ := bind_ok_iff.mp selected
    obtain ⟨slot, here, selected⟩ := bind_ok_iff.mp selected
    obtain ⟨item, inside, made⟩ := bind_ok_iff.mp selected
    exact ⟨array, slot, item, found, here, here ▸ inside, Except.ok.inj made⟩
  · rintro ⟨array, slot, item, found, here, inside, made⟩
    exact bind_ok_iff.mpr ⟨array, found, bind_ok_iff.mpr ⟨slot, here,
      bind_ok_iff.mpr ⟨item, here ▸ inside, congrArg _ made⟩⟩⟩

section Array

variable {own : String} {offsets : Array Nat} {selected : Option Selection} {entry : View}
  {position : Position}

/-- Without an element to move to, an entry is not moved, for the same reason. -/
theorem select_of_missing
    (found : reader.find path = .ok ⟨.array own offsets selected entry, position⟩) {element : Nat}
    {refusal : Refusal} (missing : itemIndex offsets position element = .error refusal) :
    reader.select path element = .error refusal := by
  rw [Reader.select, (find_eq_ok_iff.mp found).select_eq rfl]
  cases position with
  | error cause =>
    obtain rfl := Except.error.inj missing
    rfl
  | ok slot => simp only [bind, Except.bind, missing]

/-- An entry that is moved to an element is put there for the current slot, and is then at the
element. -/
theorem select_of_item
    (found : reader.find path = .ok ⟨.array own offsets selected entry, position⟩)
    {element index : Nat} (inside : itemIndex offsets position element = .ok index) :
    ∃ slot, let moved := reader.restore path (some ⟨slot, element⟩)
      position = .ok slot ∧ reader.select path element = .ok moved ∧
        moved.find (path ++ [.entry]) = .ok ⟨entry, .ok index⟩ := by
  have reaches := find_eq_ok_iff.mp found
  obtain ⟨slot, rfl, -⟩ := bind_ok_iff.mp inside
  refine ⟨slot, rfl, ?_, ?_⟩
  · rw [Reader.select, reaches.select_eq rfl]
    simp only [bind, Except.bind, inside]
    rfl
  · have there : (reader.restore path (some ⟨slot, element⟩)).find path =
        .ok ⟨.array own offsets (some ⟨slot, element⟩) entry, .ok slot⟩ :=
      find_eq_ok_iff.mpr (reaches.restore rfl _)
    have pointed : entryPosition offsets (some ⟨slot, element⟩) (.ok slot) = .ok index := by
      simp only [entryPosition, elementFor, if_true, bind, Except.bind, inside]
    rw [find_entry there, pointed]

end Array

end Reader

end Columnar
