import Columnar.Proofs.Reader.Addresses
import Columnar.Proofs.Reader.Elements
import Columnar.Proofs.Reader.Filled

/-!
# Moved entries in other slots

An entry is moved for the slot that its array is at. In every other slot the entry is at the first
element, whatever moved the array there: a step or a jump to another row, or a move of an entry
around it. As long as the array stays where it is, the entry stays at the element.
-/

namespace Columnar

namespace Reader

/-- Whether an operation moves the entry of the array at the end of a path to an element: it chooses
the element in that array, by whichever path, and is accepted. -/
def MovesEntry (reader : Reader) (path : List Step) (index : Nat) (action : Action) : Prop :=
  (∃ way, action.choice? = some (way, index) ∧
      reader.root.address way = reader.root.address path) ∧
    ∃ reply, (reader.act action).2 = .ok reply

/-- Whether a sequence of operations leaves the entry of the array at the end of a path unmoved. -/
def LeavesEntry (path : List Step) : Reader → List Action → Prop
  | _, [] => True
  | reader, action :: rest =>
      (∀ index, ¬ reader.MovesEntry path index action) ∧
        LeavesEntry path (reader.act action).1 rest

/-- The slot of the array at the end of a path: the current row, or the element that the entry of
the array around it is at. -/
def slotAt (reader : Reader) (path : List Step) : Position := do
  let array ← reader.findArray path
  array.position

/-- Whether the array at the end of a path is at a slot before, between and after the operations of
a sequence. -/
def StaysAt (path : List Step) (slot : Position) : Reader → List Action → Prop
  | reader, [] => reader.slotAt path = slot
  | reader, action :: rest =>
      reader.slotAt path = slot ∧ StaysAt path slot (reader.act action).1 rest

/-- Whether the entry of the array at the end of a path is at an element of the current slot: it is
read at the index of that element, and comes to what the element comes to, whole or as a type. -/
structure EntryAt (reader : Reader) (path : List Step) (element : Nat) : Prop where
  index : ∃ array, reader.findArray path = .ok array ∧ reader.find (path ++ [.entry]) =
    .ok ⟨array.entry, itemIndex array.offsets array.position element⟩
  value : (reader.act (.object (path ++ [.entry]))).2 = (reader.act (.element path element)).2
  scalar : ∀ requested, (reader.act (.scalar (path ++ [.entry]) (some requested))).2 =
    (reader.act (.scalarElement path element requested)).2

variable {reader moved : Reader} {path way : List Step} {index slot : Nat} {action : Action}

/-! ### Where an entry is -/

/-- The element that an entry is at in a slot that is not the one it was moved for is the first. -/
private theorem entryPosition_of_ne {offsets : Array Nat} {position : Position}
    (away : position ≠ .ok slot) (element : Nat) :
    entryPosition offsets (some ⟨slot, element⟩) position = itemIndex offsets position 0 := by
  cases position with
  | error _ => rfl
  | ok current =>
    have other : slot ≠ current := fun same => away (congrArg _ same.symm)
    change itemIndex offsets (.ok current) (if slot = current then element else 0) = _
    rw [if_neg other]

private theorem entryPosition_of_eq (offsets : Array Nat) (slot element : Nat) :
    entryPosition offsets (some ⟨slot, element⟩) (.ok slot) =
      itemIndex offsets (.ok slot) element := by
  change itemIndex offsets (.ok slot) (if slot = slot then element else 0) = _
  rw [if_pos rfl]

/-- An entry that is read at the index of an element is at that element. -/
private theorem entryAt_of_index {array : ArraySpot} {element : Nat}
    (found : reader.findArray path = .ok array)
    (index : entryPosition array.offsets array.selected array.position =
      itemIndex array.offsets array.position element)
    (filled : array.entry.Filled) : reader.EntryAt path element := by
  have there : reader.find (path ++ [.entry]) =
      .ok ⟨array.entry, itemIndex array.offsets array.position element⟩ := by
    rw [find_entry (find_eq_ok_iff.mpr (findArray_eq_ok_iff.mp found)), index]
  refine ⟨⟨array, found, there⟩, ?_, fun requested => ?_⟩
  · rw [act_object, act_element, object, there, Reader.element, found]
    change Except.map _ (array.entry.read (itemIndex array.offsets array.position element)) =
      Except.map _ (itemIndex array.offsets array.position element >>= _)
    cases itemIndex array.offsets array.position element with
    | ok _ => rfl
    | error cause => rw [filled.read_error cause]; rfl
  · simp only [act, Reader.scalar, there, scalarElement, found]
    rfl

/-! ### What moves an entry -/

/-- An element that an entry was moved to is read there. -/
private theorem object_of_select (sound : reader.Sound)
    (selected : reader.select path index = .ok moved) :
    ∃ value, moved.object (path ++ [.entry]) = .ok value := by
  obtain ⟨array, slot, item, found, here, inside, rfl⟩ := select_eq_ok_iff.mp selected
  have reaches := findArray_eq_ok_iff.mp found
  obtain ⟨current, same, _, there⟩ := select_of_item (find_eq_ok_iff.mpr reaches) (here ▸ inside)
  obtain rfl := Except.ok.inj (same.symm.trans here)
  obtain ⟨first, last, _, bounds, _, _, _, each⟩ := sound.slot_of_findArray found here
  rw [object, there]
  exact each item (lt_of_itemIndex bounds inside).1

/-- An operation that chooses an element is refused and changes nothing, or is accepted and moves
the entry there. -/
private theorem accepted_of_choice (sound : reader.Sound)
    (chosen : action.choice? = some (way, index)) :
    (∃ refusal, reader.act action = (reader, .error refusal)) ∨
      reader.select way index = .ok (reader.act action).1 ∧
        ∃ reply, (reader.act action).2 = .ok reply := by
  cases action with
  | select path element =>
    cases chosen
    simp only [act]
    cases reader.select way index with
    | error refusal => exact .inl ⟨refusal, rfl⟩
    | ok moved => exact .inr ⟨rfl, .done, rfl⟩
  | selectTuple path element =>
    cases chosen
    simp only [act]
    rw [selectTuple_eq]
    split
    · rename_i moved selected
      obtain ⟨_, _, selected⟩ := bind_ok_iff.mp selected
      obtain ⟨_, _, selected⟩ := bind_ok_iff.mp selected
      obtain ⟨value, read⟩ := object_of_select sound selected
      refine .inr ⟨selected, .value value, ?_⟩
      rw [read]
      rfl
    · rename_i refusal _
      exact .inl ⟨refusal, rfl⟩
  | _ => cases chosen

/-- Where the entry of the array at the end of a path was moved last, if it was moved. -/
def Remembers (reader : Reader) (path : List Step) (selected : Option Selection) : Prop :=
  ∃ array, reader.findArray path = .ok array ∧ array.selected = selected

private theorem address_act (reader : Reader) (action : Action) (path : List Step) :
    (reader.act action).1.root.address path = reader.root.address path := by
  rw [← View.address_atRest, atRest_act, View.address_atRest]

/-- An entry that is moved is remembered to have been moved for the slot that its array is at. -/
private theorem remembers_of_moves (sound : reader.Sound)
    (moves : reader.MovesEntry path index action) :
    ∃ slot, (reader.act action).1.slotAt path = .ok slot ∧
      (reader.act action).1.Remembers path (some ⟨slot, index⟩) := by
  obtain ⟨⟨way, chosen, same⟩, reply, accepted⟩ := moves
  rcases accepted_of_choice sound chosen with ⟨refusal, refused⟩ | ⟨selected, -⟩
  · rw [refused] at accepted
    cases accepted
  · have alike : (reader.act action).1.root.address path =
        (reader.act action).1.root.address way := by
      rw [address_act, address_act, same]
    obtain ⟨array, slot, item, found, here, _, made⟩ := select_eq_ok_iff.mp selected
    rw [← made] at alike ⊢
    have put := (findArray_eq_ok_iff.mp found).restore rfl (some ⟨slot, index⟩)
    have there : (reader.restore way (some ⟨slot, index⟩)).findArray path =
        .ok { array with selected := some ⟨slot, index⟩ } :=
      findArray_eq_ok_iff.mpr (put.congr alike)
    refine ⟨slot, ?_, _, there, rfl⟩
    rw [slotAt, there]
    exact here

/-- An operation that does not move an entry leaves what is remembered of it. -/
private theorem Remembers.act {selected : Option Selection} (sound : reader.Sound)
    (remembers : reader.Remembers path selected)
    (leaves : ∀ index, ¬ reader.MovesEntry path index action) :
    (reader.act action).1.Remembers path selected := by
  obtain ⟨array, found, rfl⟩ := remembers
  have reaches := findArray_eq_ok_iff.mp found
  cases chosen : action.choice? with
  | none =>
    rcases reader.act_cases action with moves | ⟨_, _, chooses, _⟩
    · rw [moves]
      obtain ⟨below, there⟩ := reaches.elsewhere
        ({ reader with cursor := reader.cursor.follow action } : Reader).position
      exact ⟨{ array with position := below }, findArray_eq_ok_iff.mpr there, rfl⟩
    · cases chosen.symm.trans chooses
  | some choice =>
    obtain ⟨way, index⟩ := choice
    rcases accepted_of_choice sound chosen with ⟨refusal, refused⟩ | ⟨picked, accepted⟩
    · rw [refused]
      exact ⟨array, found, rfl⟩
    · have differ : reader.root.address way ≠ reader.root.address path :=
        fun same => leaves index ⟨⟨way, chosen, same⟩, accepted⟩
      obtain ⟨_, slot, _, _, _, _, made⟩ := select_eq_ok_iff.mp picked
      rw [← made]
      obtain ⟨entry, below, there⟩ := reaches.restore_other rfl differ (some ⟨slot, index⟩)
      exact ⟨⟨array.path, array.offsets, array.selected, entry, below⟩,
        findArray_eq_ok_iff.mpr there, rfl⟩

private theorem Remembers.run {selected : Option Selection} (sound : reader.Sound)
    (remembers : reader.Remembers path selected) {actions : List Action}
    (leaves : LeavesEntry path reader actions) :
    (reader.run actions).Remembers path selected := by
  induction actions generalizing reader with
  | nil => exact remembers
  | cons action rest inductionHypothesis =>
    exact inductionHypothesis (sound.act action) (remembers.act sound leaves.1) leaves.2

private theorem slotAt_of_staysAt {position : Position} {actions : List Action}
    (stays : StaysAt path position reader actions) :
    (reader.run actions).slotAt path = position := by
  induction actions generalizing reader with
  | nil => exact stays
  | cons action rest inductionHypothesis => exact inductionHypothesis stays.2

/-- An entry does not stay moved when its array goes elsewhere. After the entry of any array was
moved, and until it is moved again, it is at the first element of the current slot whenever that is
not the slot it was moved for, whatever rows were gone to and whatever other entries were moved; and
as long as the array stays at that slot the entry stays at the element. -/
theorem entry_lapses_of_run {set : SealedSet} (obtained : set.Obtained)
    (checked : set.schema.checkAll = .ok ()) (bound : set.reader = .ok reader)
    (before after : List Action)
    (moves : (reader.run before).MovesEntry path index action)
    (leaves : LeavesEntry path (reader.run (before ++ [action])) after) :
    let marked := reader.run (before ++ [action])
    let now := marked.run after
    (now.slotAt path ≠ marked.slotAt path → now.EntryAt path 0) ∧
      (StaysAt path (marked.slotAt path) marked after → now.EntryAt path index) := by
  intro marked now
  have sound := (obtained.sound_reader bound).run
  have step : marked = ((reader.run before).act action).1 := reader.run_append before [action]
  obtain ⟨slot, there, remembers⟩ := remembers_of_moves (sound before) moves
  rw [← step] at there remembers
  obtain ⟨array, found, kept⟩ := remembers.run (sound _) leaves
  have here : now.slotAt path = array.position := by
    rw [slotAt, found]
    rfl
  have filled : array.entry.Filled := by
    have entry := find_entry (find_eq_ok_iff.mpr (findArray_eq_ok_iff.mp found))
    rw [← reader.run_append] at entry
    exact filled_of_find checked bound _ (fun _ => by simp) entry
  refine ⟨fun away => ?_, fun stays => ?_⟩
  · rw [here, there] at away
    exact entryAt_of_index found (kept ▸ entryPosition_of_ne away index) filled
  · have stayed := slotAt_of_staysAt stays
    rw [here, there] at stayed
    exact entryAt_of_index found (by rw [kept, stayed, entryPosition_of_eq]) filled

/-- A reader that moved to the second tag of the first point: after reading the row it is there, and
at the second point it is at the first tag of that one. -/
theorem entry_lapses_of_run_nested :
    let schema : Schema := .cons "points" (.array (.tuple (.cons "x" (.scalar .integer)
      (.cons "tags" (.array (.scalar .integer)) .nil)))) .nil
    let points : List Step := [.column (.position 0)]
    let tags : List Step := [.column (.name "points"), .entry, .column (.name "tags")]
    let point : Int32 → List Int32 → Value := fun x tags =>
      .tuple [.scalar (.int x), .array (tags.map fun tag => .scalar (.int tag))]
    let rows := [Value.tuple [.array [point 1 [7, 8], point 2 [9]]]]
    let set : SealedSet := ⟨schema, some (.ofRows schema rows)⟩
    ∃ reader, set.reader = .ok reader ∧
      (reader.run [.next]).MovesEntry tags 1 (.select tags 1) ∧
      let marked := reader.run [.next, .select tags 1]
      (marked.run [.row]).EntryAt tags 1 ∧ (marked.run [.select points 1]).EntryAt tags 0 ∧
        ((marked.run [.select points 1]).act (.element tags 0)).2 =
          .ok (.value (.scalar (.int 9))) := by
  intro schema points tags point rows set
  have bound := SealedSet.reader_ofRows schema rows
  have marking : ((onRows schema rows .beforeFirst).run [.next]).MovesEntry tags 1
      (.select tags 1) := ⟨⟨tags, rfl, rfl⟩, .done, by decide +kernel⟩
  have lapses := fun after =>
    entry_lapses_of_run (SealedSet.obtained_ofRows schema rows) rfl bound [.next] after marking
  obtain ⟨-, stays⟩ := lapses [.row] ⟨by rintro _ ⟨⟨_, ⟨⟩, _⟩, _⟩, trivial⟩
  obtain ⟨goes, -⟩ := lapses [.select points 1] ⟨by
    rintro index ⟨⟨way, chosen, same⟩, _⟩
    cases chosen
    revert same
    decide +kernel, trivial⟩
  exact ⟨_, bound, marking, stays ⟨rfl, (by decide +kernel : _ = _)⟩, goes (by decide +kernel),
    by decide +kernel⟩

/-- After coming back to the first row, the entry of an array is at the element that it was moved to
there before, not at the first one. -/
theorem entry_kept_on_return :
    let schema : Schema := .cons "a" (.array (.scalar .integer)) .nil
    let path : List Step := [.column (.name "a")]
    let rows := [Value.tuple [.array [.scalar (.int 1), .scalar (.int 2)]],
      Value.tuple [.array [.scalar (.int 3)]]]
    let set : SealedSet := ⟨schema, some (.ofRows schema rows)⟩
    ∃ reader, set.Obtained ∧ schema.checkAll = .ok () ∧ set.reader = .ok reader ∧
      (reader.run [.next]).MovesEntry path 1 (.select path 1) ∧
      let marked := reader.run [.next, .select path 1]
      LeavesEntry path marked [.next, .setRow 0] ∧
      (marked.run [.next]).slotAt path ≠ marked.slotAt path ∧
      let now := marked.run [.next, .setRow 0]
      (now.act (.object (path ++ [.entry]))).2 = .ok (.value (.scalar (.int 2))) ∧
        (now.act (.element path 0)).2 = .ok (.value (.scalar (.int 1))) := by
  intro schema path rows set
  have marking : ((onRows schema rows .beforeFirst).run [.next]).MovesEntry path 1
      (.select path 1) := ⟨⟨path, rfl, rfl⟩, .done, by decide +kernel⟩
  refine ⟨_, SealedSet.obtained_ofRows schema rows, rfl, SealedSet.reader_ofRows schema rows,
    marking, ⟨?_, ?_, trivial⟩, by decide +kernel, by decide +kernel, by decide +kernel⟩
  · rintro _ ⟨⟨_, ⟨⟩, _⟩, _⟩
  · rintro _ ⟨⟨_, ⟨⟩, _⟩, _⟩

end Reader

end Columnar
