import Columnar.Proofs.Reader.Paths
import Columnar.Reader.Action

/-!
# Collecting values

Whole values are collected by moving the entries of arrays over their elements. Every entry is back
where it was when its array is done, so collecting leaves a reader as it was, and comes to what
looking up the value in place gives.
-/

namespace Columnar

namespace Reader

variable {reader : Reader} {path : List Step} {spot : Spot}

/-! ### Collecting -/

/-- Collecting values that leaves the reader as it is collects all of them, or up to the first
refusal. -/
private theorem collectEach_eq {collect : Nat → Reader → Reader × Except Refusal Value}
    {value : Nat → Except Refusal Value} : ∀ {indexes : List Nat},
    (∀ index ∈ indexes, collect index reader = (reader, value index)) →
    collectEach collect indexes reader = (reader, indexes.mapM value)
  | [], _ => rfl
  | index :: rest, each => by
      obtain ⟨first, later⟩ := List.forall_mem_cons.mp each
      rw [collectEach, first, List.mapM_cons]
      cases value index with
      | error _ => rfl
      | ok _ =>
        simp only [collectEach_eq later]
        cases rest.mapM value <;> rfl

section Array

variable {own : String} {offsets : Array Nat} {selected : Option Selection} {entry : View}
  {position : Position} {collectEntry : Reader → Reader × Except Refusal Value}

/-- Collecting with an entry moved, when what is collected there leaves the reader as it is, leaves
the reader with the entry where it was, and comes to what is at the element. -/
private theorem collectMoved_eq
    (found : reader.find path = .ok ⟨.array own offsets selected entry, position⟩)
    (collects : ∀ {moved : Reader} {below : Position},
      moved.find (path ++ [.entry]) = .ok ⟨entry, below⟩ →
        collectEntry moved = (moved, entry.read below)) (element : Nat) :
    collectMoved path selected collectEntry element reader = (reader, do
      let index ← itemIndex offsets position element
      entry.read (.ok index)) := by
  have reaches := find_eq_ok_iff.mp found
  have back : ∀ moved, (reader.restore path moved).restore path selected = reader := by
    intro moved
    simp only [restore, View.restore_restore, reaches.restore_self rfl]
  have kept : reader.restore path selected = reader := by
    rw [restore, reaches.restore_self rfl]
  rw [collectMoved]
  cases inside : itemIndex offsets position element with
  | error refusal =>
    rw [select_of_missing found inside]
    exact congrArg (·, Except.error refusal) kept
  | ok index =>
    obtain ⟨slot, -, select, there⟩ := select_of_item found inside
    simp only [select, bind, Except.bind, collects there, back]

/-- Collecting an element, when its entry is collected in place, leaves the reader as it is and
comes to the value of the element. -/
private theorem collectAt_eq
    (found : reader.find path = .ok ⟨.array own offsets selected entry, position⟩)
    (collects : ∀ {moved : Reader} {below : Position},
      moved.find (path ++ [.entry]) = .ok ⟨entry, below⟩ →
        collectEntry moved = (moved, entry.read below)) (element : Nat) :
    collectAt path collectEntry element reader = (reader, do
      let index ← itemIndex offsets position element
      entry.read (.ok index)) := by
  rw [collectAt, findArray_of_find found]
  cases entry with
  | scalar _ _ => rfl
  | array _ _ _ _ => exact collectMoved_eq found collects element
  | tuple _ _ => exact collectMoved_eq found collects element

end Array

end Reader

mutual

/-- Collecting a column leaves the reader as it is and comes to the value of the column. -/
theorem View.collect_eq : ∀ (view : View) {path : List Step} {reader : Reader}
    {position : Position}, reader.find path = .ok ⟨view, position⟩ →
    view.collect path reader = (reader, view.read position)
  | .scalar own values, path, reader, position, found => by
      rw [View.collect, Reader.scalar, found]
      refine congrArg (reader, ·) ?_
      cases position with
      | error _ => rfl
      | ok index =>
        change (values.read index).map Value.scalar = values.read index >>= _
        cases values.read index <;> rfl
  | .array own offsets selected entry, path, reader, position, found => by
      rw [View.collect, Reader.size, Reader.findArray_of_find found]
      cases position with
      | error _ => rfl
      | ok slot =>
        cases bounds : slotBounds offsets slot with
        | error _ =>
          simp only [View.read, ArraySpot.size, slotSize, bind, Except.bind, bounds]
        | ok limits =>
          obtain ⟨first, last⟩ := limits
          have each : ∀ element ∈ List.range (last - first),
              Reader.collectAt path (fun moved => entry.collect (path ++ [.entry]) moved) element
                reader = (reader, entry.read (.ok (first + element))) := by
            intro element member
            have inside := List.mem_range.mp member
            have item : itemIndex offsets (.ok slot) element = .ok (first + element) :=
              itemIndex_of_lt bounds (by omega)
            rw [Reader.collectAt_eq found (fun there => View.collect_eq entry there) element, item]
            rfl
          simp only [View.read, ArraySpot.size, slotSize, bind, Except.bind, bounds, pure,
            Except.pure, Reader.collectEach_eq each]
          refine congrArg (reader, ·) ?_
          cases (List.range (last - first)).mapM
              fun element => entry.read (.ok (first + element)) <;>
            rfl
  | .tuple own columns, path, reader, position, found => by
      rw [View.collect, Views.collect_eq columns found fun offset => by rw [Nat.zero_add]]
      refine congrArg (reader, ·) ?_
      rw [View.read]
      cases columns.read position <;> rfl

/-- Collecting the last columns of a tuple leaves the reader as it is and comes to their values. -/
theorem Views.collect_eq : ∀ (columns : Views) {all : Views} {own : String} {path : List Step}
    {reader : Reader} {position : Position} {start : Nat},
    reader.find path = .ok ⟨.tuple own all, position⟩ →
    (∀ offset, columns.get? (.position offset) = all.get? (.position (start + offset))) →
    columns.collect path start reader = (reader, columns.read position)
  | .nil, _, _, _, _, _, _, _, _ => rfl
  | .cons name view rest, all, own, path, reader, position, start, found, same => by
      have here : all.get? (.position start) = some view := (same 0).symm
      have there : reader.find (path ++ [.column (.position start)]) = .ok ⟨view, position⟩ :=
        Reader.find_eq_ok_iff.mpr
          ((Reader.find_eq_ok_iff.mp found).append (.column here (.here _ _)))
      have others : ∀ offset,
          rest.get? (.position offset) = all.get? (.position (start + 1 + offset)) := by
        intro offset
        rw [Nat.add_assoc, Nat.add_comm 1 offset]
        exact same (offset + 1)
      rw [Views.collect, View.collect_eq view there, Views.read]
      cases view.read position with
      | error _ => rfl
      | ok value =>
        simp only [Views.collect_eq rest found others]
        refine congrArg (reader, ·) ?_
        cases rest.read position <;> rfl

end

namespace Reader

/-- Collecting the row leaves the reader as it is. -/
@[simp] theorem collectRow_eq (reader : Reader) : reader.collectRow = (reader, reader.row) :=
  View.collect_eq reader.root rfl

/-- Collecting the value at the end of a path leaves the reader as it is. -/
@[simp] theorem collectObject_eq (reader : Reader) (path : List Step) :
    reader.collectObject path = (reader, reader.object path) := by
  rw [collectObject, object]
  cases found : reader.find path with
  | error _ => rfl
  | ok spot => exact View.collect_eq spot.view found

/-- Collecting an element leaves the reader as it is. -/
@[simp] theorem collectElement_eq (reader : Reader) (path : List Step) (index : Nat) :
    reader.collectElement path index = (reader, reader.element path index) := by
  rw [collectElement, element]
  cases cast : reader.findArray path with
  | error _ => rfl
  | ok array =>
    obtain ⟨⟨view, position⟩, found, cast⟩ := bind_ok_iff.mp cast
    cases view with
    | scalar _ _ => cases cast
    | tuple _ _ => cases cast
    | array own offsets selected entry =>
      cases cast
      exact collectAt_eq found (fun there => View.collect_eq entry there) index

/-- Moving an entry to a tuple leaves the reader as moving it does, and comes to the tuple there. -/
theorem selectTuple_eq (reader : Reader) (path : List Step) (index : Nat) :
    reader.selectTuple path index =
      match (do
        let array ← reader.findArray path
        let _ ← array.entry.asTuple.mapError Refusal.mismatch
        reader.select path index : Except Refusal Reader) with
      | .ok moved => (moved, moved.object (path ++ [.entry]))
      | .error refusal => (reader, .error refusal) := by
  cases selected : (do
      let array ← reader.findArray path
      let _ ← array.entry.asTuple.mapError Refusal.mismatch
      reader.select path index : Except Refusal Reader) with
  | error _ => simp only [selectTuple, selected]
  | ok _ => simp only [selectTuple, selected, collectObject_eq]

/-! ### Operations that read -/

theorem act_row (reader : Reader) : reader.act .row = (reader, reader.row.map .value) := by
  simp only [act, collectRow_eq]

theorem act_object (reader : Reader) (path : List Step) :
    reader.act (.object path) = (reader, (reader.object path).map .value) := by
  simp only [act, collectObject_eq]

theorem act_element (reader : Reader) (path : List Step) (index : Nat) :
    reader.act (.element path index) = (reader, (reader.element path index).map .value) := by
  simp only [act, collectElement_eq]

/-- Whether an operation reads without moving the reader or an entry. -/
def Action.isRead : Action → Bool
  | .row | .object _ | .scalar _ _ | .size _ | .element _ _ | .scalarElement _ _ _ => true
  | .next | .setRow _ | .reset | .select _ _ | .selectTuple _ _ => false

/-- Operations that read leave the reader as it is, also when they are refused. -/
theorem act_of_isRead (reader : Reader) {action : Action} (reads : action.isRead = true) :
    (reader.act action).1 = reader := by
  cases action with
  | row => rw [act_row]
  | object path => rw [act_object]
  | element path index => rw [act_element]
  | scalar _ _ => rfl
  | size _ => rfl
  | scalarElement _ _ _ => rfl
  | next => cases reads
  | setRow _ => cases reads
  | reset => cases reads
  | select _ _ => cases reads
  | selectTuple _ _ => cases reads

end Reader

end Columnar
