import Columnar.Proofs.Draft.Phases
import Columnar.Proofs.Reader.Answers

/-!
# Reading in bounds

The index that a column is read at is computed step by step on the way from the row, through the
current slot of every array. It belongs to each of these slots and to no other one, so nothing is
read of another row or of another element, and nothing past the end of the data.
-/

namespace Columnar

/-- Whether an item of the column at the end of a path belongs to a slot: on the way, every array
leads from a slot to an element within the bounds of the slot. -/
inductive View.Belongs : View → List Step → Nat → Nat → Prop where
  | here (view : View) (slot : Nat) : Belongs view [] slot slot
  | column {path : String} {columns : Views} {index : ColumnIndex} {view : View}
      {rest : List Step} {slot item : Nat} (found : columns.get? index = some view)
      (below : view.Belongs rest slot item) :
      Belongs (.tuple path columns) (.column index :: rest) slot item
  | entry {path : String} {offsets : Array Nat} {selected : Option Selection} {entry : View}
      {rest : List Step} {slot first last element item : Nat}
      (bounds : slotBounds offsets slot = .ok (first, last)) (lower : first ≤ element)
      (upper : element < last) (below : entry.Belongs rest element item) :
      Belongs (.array path offsets selected entry) (.entry :: rest) slot item

/-! ### One slot -/

private theorem getElem?_of_slotBounds {offsets : Array Nat} {slot first last : Nat}
    (bounds : slotBounds offsets slot = .ok (first, last)) :
    offsets[slot]? = some first ∧ offsets[slot + 1]? = some last := by
  unfold slotBounds at bounds
  split at bounds
  · rename_i lower upper
    cases bounds
    exact ⟨lower, upper⟩
  · cases bounds

private theorem Views.rests_of_get? {columns : Views} {parent : String} {schema : Schema}
    {rows : List (List Value)} (rest : columns.atRest = .ofRows parent schema rows)
    {index : ColumnIndex} {view : View} (found : columns.get? index = some view) :
    ∃ path type values, view.atRest = .ofValues path type values := by
  have present : (Views.ofRows parent schema rows).get? index = some view.atRest := by
    rw [← rest, Views.get?_atRest, found, Option.map_some]
  cases declared : schema.find? index with
  | none =>
    rw [Views.get?_ofRows_none parent rows declared] at present
    cases present
  | some column =>
    obtain ⟨item, here, _⟩ := Views.get?_ofRows parent rows declared
    exact ⟨_, _, _, (Option.some.inj (here.symm.trans present)).symm⟩

/-- In the view of given values, whatever was moved in it, an item belongs to one slot only. -/
theorem View.Belongs.unique {view : View} {steps : List Step} {one other item : Nat}
    (belongs : view.Belongs steps one item) {path : String} {type : ColumnType}
    {values : List Value} (rest : view.atRest = .ofValues path type values)
    (also : view.Belongs steps other item) : one = other := by
  induction belongs generalizing path type values other with
  | here view slot =>
    cases also
    rfl
  | column found below inductionHypothesis =>
    cases type with
    | scalar _ => cases rest
    | array _ => cases rest
    | tuple schema =>
      cases also with
      | column foundAlso belowAlso =>
        obtain rfl := Option.some.inj (found.symm.trans foundAlso)
        obtain ⟨_, _, _, restBelow⟩ := Views.rests_of_get? (View.tuple.inj rest).2 found
        exact inductionHypothesis restBelow belowAlso
  | entry bounds lower upper below inductionHypothesis =>
    cases type with
    | scalar _ => cases rest
    | tuple _ => cases rest
    | array element =>
      obtain ⟨_, rfl, _, restBelow⟩ := View.array.inj rest
      cases also with
      | entry boundsAlso lowerAlso upperAlso belowAlso =>
        obtain rfl := inductionHypothesis restBelow belowAlso
        obtain ⟨begins, ends⟩ := getElem?_of_slotBounds bounds
        obtain ⟨beginsAlso, endsAlso⟩ := getElem?_of_slotBounds boundsAlso
        exact slot_unique (offsetsRise_offsetsOf _).2 begins ends beginsAlso endsAlso
          ⟨lower, upper⟩ ⟨lowerAlso, upperAlso⟩

/-! ### The current slot -/

/-- Where a path leads, an item belongs to the current slot if it belongs to the slot there. -/
theorem View.belongs_of_find {view : View} {position : Position} {path more : List Step}
    {below : Spot} (selected : view.Selected)
    (found : Spot.find ⟨view, position⟩ path = .ok below) {slot item : Nat}
    (here : below.position = .ok slot) (inside : below.view.Belongs more slot item) :
    ∃ current, position = .ok current ∧ view.Belongs (path ++ more) current item := by
  induction path generalizing view position with
  | nil =>
    cases found
    exact ⟨slot, here, inside⟩
  | cons step rest inductionHypothesis =>
    obtain ⟨next, taken, found⟩ := bind_ok_iff.mp found
    cases step with
    | column index =>
      cases view with
      | scalar _ _ => cases taken
      | array _ _ _ _ => cases taken
      | tuple path columns =>
        simp only [Spot.child] at taken
        split at taken
        · rename_i child present
          cases taken
          obtain ⟨middle, pointed, belongs⟩ :=
            inductionHypothesis (Views.of_get? id selected present) found
          exact ⟨middle, pointed, .column present belongs⟩
        · cases taken
    | entry =>
      cases view with
      | scalar _ _ => cases taken
      | tuple _ _ => cases taken
      | array path offsets moved entry =>
        cases taken
        obtain ⟨middle, pointed, belongs⟩ := inductionHypothesis selected.2 found
        obtain ⟨current, above, chosen⟩ := bind_ok_iff.mp pointed
        obtain ⟨_, first, last, ⟨⟩, bounds, item, upper⟩ :=
          bounds_of_itemIndex (unwrapped_elementFor selected current) chosen
        exact ⟨current, above, .entry bounds (by omega) upper belongs⟩

namespace Reader

variable {schema : Schema} {rows : List Value} {reader : Reader}

/-- An item of the column at the end of a path belongs to the current slot, and to no other one, of
every column that the path leads through. -/
private theorem Reads.belongs_iff (reads : reader.Reads schema rows)
    (admitted : ∀ row ∈ rows, (ColumnType.tuple schema).Admits row)
    (selected : reader.root.Selected) {outer inner more : List Step} {below : Spot}
    {slot item : Nat} (found : reader.find (outer ++ inner) = .ok below)
    (here : below.position = .ok slot) (inside : below.view.Belongs more slot item) :
    ∃ spot current, reader.find outer = .ok spot ∧ spot.position = .ok current ∧
      ∀ other, spot.view.Belongs (inner ++ more) other item ↔ other = current := by
  rw [find_append] at found
  obtain ⟨spot, first, second⟩ := bind_ok_iff.mp found
  rw [mapError_ok_iff] at second
  have kept := (find_eq_ok_iff.mp first).selected selected
  obtain ⟨current, pointed, belongs⟩ := View.belongs_of_find kept second here inside
  refine ⟨spot, current, first, pointed, fun other => ⟨fun also => ?_, ?_⟩⟩
  · cases reads.finds admitted outer with
    | nowhere _ lost => cases first.symm.trans lost
    | spot _ also shows _ =>
      cases first.symm.trans also
      exact View.Belongs.unique ‹_› shows.view belongs
  · rintro rfl
    exact belongs

/-- Whatever is done with a reader of a sealed batch, no look-up leaves the data: operations are
refused only because their path leads nowhere, or because there is no current row, a row or an
element is out of range, or a column is of another kind or type. As long as the indices that are
given for elements are machine words when they are counted from the start of the slot, a value that
is answered lies in the current row, and the index that a column is read at, like that of an
element, belongs to the current slot of every column on the way, and to no other slot. -/
theorem inBounds_of_run {schema : Schema} (checked : schema.checkAll = .ok ()) (limits : Limits)
    {actions : List Draft.Action} {batch : Batch}
    (finished : ((Draft.ofSchema schema limits).run actions).finish.2.result = .ok batch) :
    ∃ reader, (SealedSet.mk schema (some batch)).reader = .ok reader ∧ ∀ moves,
      let now := reader.run moves
      (∀ action index length, (now.act action).2 ≠ .error (.outOfBounds index length)) ∧
      (∀ action refusal, (now.act action).2 = .error refusal →
        now.Refuses action.path refusal) ∧
      (reader.CountsAll moves →
        (∀ action value index, now.Counts action → (now.act action).2 = .ok (.value value) →
          now.rowIndex? = some index → ∃ row stored,
            (RowMachine.ofRun schema limits actions).rows[index]? = some row ∧
            row.Within stored ∧ stored.ReadAs value) ∧
        (∀ outer inner below item, now.find (outer ++ inner) = .ok below →
          below.position = .ok item → ∃ spot slot, now.find outer = .ok spot ∧
            spot.position = .ok slot ∧
            ∀ other, spot.view.Belongs inner other item ↔ other = slot) ∧
        ∀ outer inner array element item, now.CountsTo (outer ++ inner) element →
          now.findArray (outer ++ inner) = .ok array →
          itemIndex array.offsets array.position element = .ok item → ∃ spot slot,
            now.find outer = .ok spot ∧ spot.position = .ok slot ∧
            ∀ other, spot.view.Belongs (inner ++ [.entry]) other item ↔ other = slot) := by
  obtain ⟨rfl, admitted⟩ := Draft.ofRows_of_finish checked limits finished
  refine ⟨_, SealedSet.reader_ofRows schema _, ?_⟩
  intro moves now
  have reads : now.Reads schema _ := (reads_onRows schema _).run moves
  have replies := fun action =>
    reads.replies_act admitted (Schema.solid_of_checkAll checked) action
  have refuses : ∀ action refusal, (now.act action).2 = .error refusal →
      now.Refuses action.path refusal := by
    intro action refusal refused
    have replied := replies action
    rw [refused] at replied
    cases replied with
    | refused reason => exact reason
  refine ⟨?_, refuses, fun counts => ?_⟩
  · intro action index length refused
    cases refuses action _ refused with
    | reading reason => cases reason
  have selected : now.root.Selected := selected_run (selected_onRows schema _) counts
  refine ⟨?_, ?_, ?_⟩
  · intro action value index countsHere answered current
    have replied := replies action
    rw [answered] at replied
    cases replied with
    | value answers =>
      cases answers with
      | value here found within read =>
        obtain rfl := Option.some.inj (here.symm.trans current)
        exact ⟨_, _, found, within ⟨selected, countsHere⟩, read⟩
      | nothing rowless => cases rowless.symm.trans current
  · intro outer inner below item found here
    have belongs := reads.belongs_iff admitted selected found here (.here below.view item)
    rwa [List.append_nil] at belongs
  · intro outer inner array element item countsHere found inside
    have unwrapped := countsHere.unwrapped found
    obtain ⟨below, spotted, cast⟩ := bind_ok_iff.mp found
    obtain ⟨view, position⟩ := below
    cases view with
    | scalar _ _ => cases cast
    | tuple _ _ => cases cast
    | array path offsets chosen entry =>
      cases cast
      obtain ⟨slot, first, last, here, bounds, item, upper⟩ :=
        bounds_of_itemIndex unwrapped inside
      exact reads.belongs_iff admitted selected spotted here
        (.entry bounds (by omega) upper (.here entry _))

/-- A reader that moved to the second point of the first row and to its tag, and then on to the
second row: the point there is read, its missing tag is refused, and the index of the point belongs
to the second row only. -/
theorem inBounds_of_run_stale :
    let schema : Schema := .cons "points" (.array (.tuple (.cons "x" (.scalar .integer)
      (.cons "tags" (.array (.scalar .boolean)) .nil)))) .nil
    let points : List Step := [.column (.name "points")]
    let x : List Step := [.entry, .column (.position 0)]
    let tags : List Step := [.column (.name "points"), .entry, .column (.name "tags")]
    let point : Int32 → List Bool → Value := fun x tags =>
      .tuple [.scalar (.int x), .array (tags.map fun tag => .scalar (.bool tag))]
    let actions : List Draft.Action :=
      [.addRow (.tuple [.array [point 1 [true, false], point 2 [true]]]),
        .addRow (.tuple [.array [point 3 []]])]
    let moves : List Action := [.setRow 0, .select points 1, .select tags 0, .next]
    schema.checkAll = .ok () ∧ ∃ batch reader,
      ((Draft.ofSchema schema ⟨4, 64⟩).run actions).finish.2.result = .ok batch ∧
      (SealedSet.mk schema (some batch)).reader = .ok reader ∧
      let now := reader.run moves
      (now.act (.scalar (points ++ x) (some .long))).2 = .ok (.value (.scalar (.long 3))) ∧
      (now.act (.element tags 0)).2 = .error (.misuse (.elementOutOfRange 0 0)) ∧
      ∃ spot slot, now.find points = .ok spot ∧ spot.position = .ok slot ∧
        ∀ other, spot.view.Belongs x other 2 ↔ other = slot := by
  intro schema points x tags point actions moves
  have checked : schema.checkAll = .ok () := rfl
  have writing : ((Draft.ofSchema schema ⟨4, 64⟩).run actions).phase = .writing := by
    decide +kernel
  have finished := (Draft.finish_of_writing checked ⟨4, 64⟩ writing).1
  obtain ⟨reader, bound, inBounds⟩ := inBounds_of_run checked ⟨4, 64⟩ finished
  have saved : (RowMachine.ofRun schema ⟨4, 64⟩ actions).rows =
      [.tuple [.array [point 1 [true, false], point 2 [true]]],
        .tuple [.array [point 3 []]]] := by decide +kernel
  have begun := Except.ok.inj (bound.symm.trans (SealedSet.reader_ofRows schema _))
  have moved : reader.run moves = ⟨⟨2, .on 1⟩, .tuple "" (.cons "points"
      (.array "points" #[0, 2, 3] (some ⟨0, 1⟩) (.tuple "points"
        (.cons "x" (.scalar "points.x" (.int #[1, 2, 3]))
          (.cons "tags" (.array "points.tags" #[0, 2, 3, 3] (some ⟨1, 0⟩)
            (.scalar "points.tags" (.bool #[true, false, true]))) .nil)))) .nil)⟩ := by
    rw [begun, saved]
    decide +kernel
  have found : (reader.run moves).find (points ++ x) =
      .ok ⟨.scalar "points.x" (.int #[1, 2, 3]), .ok 2⟩ := by
    rw [moved]
    rfl
  obtain ⟨-, -, counted⟩ := inBounds moves
  obtain ⟨-, belongs, -⟩ := counted (by rw [begun, saved]; decide +kernel)
  refine ⟨checked, _, reader, finished, bound, ?_, ?_, belongs points x _ 2 found rfl⟩
  · rw [moved]
    rfl
  · rw [moved]
    rfl

end Reader

end Columnar
