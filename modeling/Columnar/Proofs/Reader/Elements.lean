import Columnar.Proofs.Reader.Selections

/-!
# Elements by index and by entry

An element of an array is read by its index, or by moving the entry of the array to it and reading
there. The two come to the same, whatever was moved before, and for the same reasons to a refusal.
-/

namespace Columnar

/-! ### What is there is read -/

mutual

/-- Every row of a view is read. -/
theorem View.read_of_covers {rows index : Nat} : ∀ {view : View}, view.Covers rows → index < rows →
    ∃ value, view.read (.ok index) = .ok value
  | .scalar _ values, covers, inside => by
      have present := (values.get?_isSome_iff index).mpr (Nat.lt_of_lt_of_le inside covers)
      obtain ⟨value, found⟩ := Option.isSome_iff_exists.mp present
      refine ⟨.scalar value, bind_ok_iff.mpr ⟨index, rfl, bind_ok_iff.mpr ⟨value, ?_, rfl⟩⟩⟩
      simp only [Leaf.read, found]
  | .array _ offsets _ entry, ⟨items, slots, covers⟩, inside => by
      obtain ⟨first, last, bounds, upper⟩ := slots index inside
      have each : ∀ element ∈ List.range (last - first),
          ∃ value, entry.read (.ok (first + element)) = .ok value := by
        intro element member
        have below := List.mem_range.mp member
        exact View.read_of_covers covers (by omega)
      obtain ⟨values, read⟩ := exists_mapM_of_forall each
      exact ⟨.array values, bind_ok_iff.mpr ⟨index, rfl, bind_ok_iff.mpr ⟨_, bounds,
        bind_ok_iff.mpr ⟨values, read, rfl⟩⟩⟩⟩
  | .tuple _ columns, covers, inside => by
      obtain ⟨values, read⟩ := @Views.read_of_covers _ _ columns covers inside
      exact ⟨.tuple values, bind_ok_iff.mpr ⟨values, read, rfl⟩⟩

/-- Every row of some views is read. -/
theorem Views.read_of_covers {rows index : Nat} : ∀ {columns : Views}, columns.Covers rows →
    index < rows → ∃ values, columns.read (.ok index) = .ok values
  | .nil, _, _ => ⟨[], rfl⟩
  | .cons _ _ _, ⟨here, there⟩, inside => by
      obtain ⟨value, first⟩ := View.read_of_covers here inside
      obtain ⟨values, others⟩ := Views.read_of_covers there inside
      exact ⟨value :: values, bind_ok_iff.mpr ⟨value, first, bind_ok_iff.mpr ⟨values, others, rfl⟩⟩⟩

end

/-- The items of an array at a slot are what its entry reads at the elements of the slot. -/
theorem View.read_array {own : String} {offsets : Array Nat} {selected : Option Selection}
    {entry : View} {slot first last : Nat} (bounds : slotBounds offsets slot = .ok (first, last))
    {value : Value} (read : (View.array own offsets selected entry).read (.ok slot) = .ok value) :
    ∃ items, value = .array items ∧ items.length = last - first ∧
      ∀ index item, items[index]? = some item → entry.read (.ok (first + index)) = .ok item := by
  obtain ⟨_, ⟨⟩, inSlot⟩ := bind_ok_iff.mp read
  obtain ⟨limits, here, within⟩ := bind_ok_iff.mp inSlot
  obtain rfl := Except.ok.inj (bounds.symm.trans here)
  obtain ⟨items, made, settled⟩ := bind_ok_iff.mp within
  obtain rfl := Except.ok.inj settled
  obtain ⟨counted, each⟩ := List.forall₂_iff_get.mp (mapM_ok_iff.mp made)
  rw [List.length_range] at counted
  refine ⟨items, rfl, counted.symm, ?_⟩
  intro index item found
  obtain ⟨inside, rfl⟩ := List.getElem?_eq_some_iff.mp found
  simpa using each index (by simpa [counted] using inside) inside

namespace Reader

variable {reader : Reader} {path : List Step}

/-- What comes of an operation after the entry of an array was moved to an element, if it could be
moved. -/
def actAt (reader : Reader) (path : List Step) (index : Nat) (action : Action) :
    Except Refusal Reply := do
  let _ ← (reader.act (.select path index)).2
  ((reader.act (.select path index)).1.act action).2

section Array

variable {own : String} {offsets : Array Nat} {selected : Option Selection} {entry : View}
  {position : Position} {index : Nat}

theorem act_select_of_missing
    (found : reader.find path = .ok ⟨.array own offsets selected entry, position⟩)
    {refusal : Refusal} (missing : itemIndex offsets position index = .error refusal) :
    reader.act (.select path index) = (reader, .error refusal) := by
  simp only [act, select_of_missing found missing, settle]

theorem actAt_of_missing
    (found : reader.find path = .ok ⟨.array own offsets selected entry, position⟩)
    {refusal : Refusal} (missing : itemIndex offsets position index = .error refusal)
    (action : Action) : reader.actAt path index action = .error refusal := by
  rw [actAt, act_select_of_missing found missing]
  rfl

theorem actAt_of_item
    (found : reader.find path = .ok ⟨.array own offsets selected entry, position⟩) {item : Nat}
    (inside : itemIndex offsets position index = .ok item) :
    ∃ moved : Reader, moved.find (path ++ [.entry]) = .ok ⟨entry, .ok item⟩ ∧
      ∀ action, reader.actAt path index action = (moved.act action).2 := by
  obtain ⟨slot, _, select, there⟩ := select_of_item found inside
  refine ⟨_, there, fun action => ?_⟩
  simp only [actAt, act, select, settle]
  rfl

/-- An element is read by its index as at the entry. -/
theorem act_element_eq_actAt
    (found : reader.find path = .ok ⟨.array own offsets selected entry, position⟩) (index : Nat) :
    (reader.act (.element path index)).2 =
      reader.actAt path index (.object (path ++ [.entry])) := by
  rw [act_element, element, findArray_of_find found]
  cases inside : itemIndex offsets position index with
  | error refusal =>
    rw [actAt_of_missing found inside]
    simp only [ArraySpot.readAt, bind, Except.bind, inside]
    rfl
  | ok item =>
    obtain ⟨moved, there, acts⟩ := actAt_of_item found inside
    rw [acts, act_object, object, there]
    simp only [ArraySpot.readAt, bind, Except.bind, inside]
    rfl

/-- A scalar element is read as a type by its index as at the entry. -/
theorem act_scalarElement_eq_actAt
    (found : reader.find path = .ok ⟨.array own offsets selected entry, position⟩)
    (scalar : entry.kind = .scalar) (index : Nat) (requested : ScalarType) :
    (reader.act (.scalarElement path index requested)).2 =
      reader.actAt path index (.scalar (path ++ [.entry]) (some requested)) := by
  cases entry with
  | array _ _ _ _ => cases scalar
  | tuple _ _ => cases scalar
  | scalar name values =>
    simp only [act, scalarElement, findArray_of_find found]
    cases inside : itemIndex offsets position index with
    | error refusal =>
      rw [actAt_of_missing found inside]
      simp only [ArraySpot.readScalarAt, View.asScalar, bind, Except.bind, inside]
      rfl
    | ok item =>
      obtain ⟨moved, there, acts⟩ := actAt_of_item found inside
      rw [acts]
      simp only [act, Reader.scalar, there, ArraySpot.readScalarAt, View.asScalar, bind,
        Except.bind, inside]
      rfl

/-- Going to an element that is a tuple moves the entry there, and nothing else. -/
theorem act_selectTuple_eq
    (found : reader.find path = .ok ⟨.array own offsets selected entry, position⟩)
    (tuple : entry.kind = .tuple) (index : Nat) :
    reader.act (.selectTuple path index) =
      ((reader.act (.select path index)).1,
        reader.actAt path index (.object (path ++ [.entry]))) := by
  cases entry with
  | array _ _ _ _ => cases tuple
  | scalar _ _ => cases tuple
  | tuple name columns =>
    simp only [act, selectTuple_eq, findArray_of_find found, actAt]
    cases reader.select path index with
    | error _ => rfl
    | ok moved =>
      simp only [collectObject_eq]
      rfl

end Array

/-- An array with a current slot is read whole, at one of the slots that its view has, and so is
every item before the end of that slot. -/
theorem Sound.slot_of_findArray {array : ArraySpot} {slot : Nat} (sound : reader.Sound)
    (found : reader.findArray path = .ok array) (current : array.position = .ok slot) :
    ∃ first last items, slotBounds array.offsets slot = .ok (first, last) ∧
      reader.object path = .ok (.array items) ∧ items.length = last - first ∧
      (∀ index item, items[index]? = some item →
        array.entry.read (.ok (first + index)) = .ok item) ∧
      ∀ index < last, ∃ value, array.entry.read (.ok index) = .ok value := by
  have reaches := findArray_eq_ok_iff.mp found
  cases here : reader.position with
  | error refusal =>
    have missing := reaches.position_eq_error here
    rw [current] at missing
    cases missing
  | ok row =>
    have inside := sound.within row (rowIndex?_of_position here)
    obtain ⟨rows, within, covers⟩ := reaches.covered sound.covers here inside current
    obtain ⟨value, read⟩ := View.read_of_covers covers within
    obtain ⟨items, slots, coversEntry⟩ := covers
    obtain ⟨first, last, bounds, upper⟩ := slots slot within
    obtain ⟨values, rfl, counted, each⟩ := View.read_array bounds read
    refine ⟨first, last, values, bounds, ?_, counted, each, fun index before => ?_⟩
    · rw [object, find_eq_ok_iff.mpr reaches, current]
      exact read
    · exact View.read_of_covers coversEntry (Nat.lt_of_lt_of_le before upper)

/-- Whatever was done with a reader of a sealed set, an element of any array is read by its index as
it is at the entry after moving the entry there, whole or, for a scalar, as any type; and going to
an element that is a tuple moves the entry as moving it does. In a current slot these are the items
of the array, and past its end all of them are refused for the index and the size, if the index is a
machine word when it is counted from the start of the slot. A refused move leaves the entry where it
was. -/
theorem elements_agree_of_run {set : SealedSet} (obtained : set.Obtained)
    (bound : set.reader = .ok reader) (moves : List Action) :
    let now := reader.run moves
    (∀ path index refusal, (now.act (.select path index)).2 = .error refusal →
      (now.act (.select path index)).1 = now) ∧
    ∀ path array, now.findArray path = .ok array →
      (∀ index, (now.act (.element path index)).2 =
        now.actAt path index (.object (path ++ [.entry]))) ∧
      (array.entry.kind = .scalar → ∀ index requested,
        (now.act (.scalarElement path index requested)).2 =
          now.actAt path index (.scalar (path ++ [.entry]) (some requested))) ∧
      (array.entry.kind = .tuple → ∀ index, now.act (.selectTuple path index) =
        ((now.act (.select path index)).1,
          now.actAt path index (.object (path ++ [.entry])))) ∧
      ∀ slot, array.position = .ok slot → ∃ items,
        (now.act (.object path)).2 = .ok (.value (.array items)) ∧
        (now.act (.size path)).2 = .ok (.number items.length) ∧
        (∀ index item, items[index]? = some item →
          (now.act (.element path index)).2 = .ok (.value item)) ∧
        ∀ index, now.CountsTo path index → items.length ≤ index →
          let refusal := .misuse (.elementOutOfRange index items.length)
          now.act (.select path index) = (now, .error refusal) ∧
          (now.act (.element path index)).2 = .error refusal ∧
          (array.entry.kind = .scalar → ∀ requested,
            (now.act (.scalarElement path index requested)).2 = .error refusal) ∧
          (array.entry.kind = .tuple →
            now.act (.selectTuple path index) = (now, .error refusal)) := by
  intro now
  have sound : now.Sound := (obtained.sound_reader bound).run moves
  refine ⟨?_, ?_⟩
  · intro path index refusal refused
    simp only [act] at refused ⊢
    cases chosen : now.select path index with
    | ok _ =>
      rw [chosen] at refused
      cases refused
    | error _ => rfl
  · intro path array found
    have there := find_eq_ok_iff.mpr (findArray_eq_ok_iff.mp found)
    have element := act_element_eq_actAt there
    have scalar := act_scalarElement_eq_actAt there
    have tuple := act_selectTuple_eq there
    refine ⟨element, scalar, tuple, ?_⟩
    intro slot current
    obtain ⟨first, last, items, bounds, whole, counted, each, -⟩ :=
      sound.slot_of_findArray found current
    refine ⟨items, ?_, ?_, ?_, ?_⟩
    · rw [act_object, whole]
      rfl
    · simp only [act, size, found, ArraySpot.size, bind, Except.bind]
      rw [current, slotSize_eq bounds, counted]
      rfl
    · intro index item inside
      have below := (List.getElem?_eq_some_iff.mp inside).1
      have pointed : itemIndex array.offsets array.position index = .ok (first + index) := by
        rw [current, itemIndex_of_lt bounds (by omega)]
      simp only [act_element, Reader.element, found, ArraySpot.readAt, bind, Except.bind, pointed,
        each index item inside]
      rfl
    · intro index counts past
      have missing : itemIndex array.offsets array.position index =
          .error (.misuse (.elementOutOfRange index items.length)) := by
        have small := counts.lt found current bounds
        rw [current, itemIndex_of_ge bounds (by omega) small, counted]
      have selected := act_select_of_missing there missing
      have refused := actAt_of_missing there missing
      refine ⟨selected, ?_, fun kind requested => ?_, fun kind => ?_⟩
      · rw [element, refused]
      · rw [scalar kind, refused]
      · rw [tuple kind, selected, refused]

/-- A reader at the second point of a row, whose hits were moved to for the first point: the first
hit read as a long, by its index and at the entry, and the hit that is not there. -/
theorem elements_agree_of_run_stale :
    let schema : Schema := .cons "points" (.array (.tuple (.cons "x" (.scalar .integer)
      (.cons "hits" (.array (.scalar .integer)) .nil)))) .nil
    let points : List Step := [.column (.name "points")]
    let hits : List Step := [.column (.name "points"), .entry, .column (.name "hits")]
    let point : Int32 → List Int32 → Value := fun x hits =>
      .tuple [.scalar (.int x), .array (hits.map fun hit => .scalar (.int hit))]
    let actions : List Draft.Action := [.addRow (.tuple [.array [point 1 [7, 8], point 2 [9]]])]
    let moves : List Action := [.next, .select hits 1, .select points 1]
    let refusal : Refusal := .misuse (.elementOutOfRange 1 1)
    ∃ batch reader,
      ((Draft.ofSchema schema ⟨4, 64⟩).run actions).finish.2.result = .ok batch ∧
      (SealedSet.mk schema (some batch)).reader = .ok reader ∧
      let now := reader.run moves
      (now.act (.scalarElement hits 0 .long)).2 =
        now.actAt hits 0 (.scalar (hits ++ [.entry]) (some .long)) ∧
      (now.act (.scalarElement hits 0 .long)).2 = .ok (.value (.scalar (.long 9))) ∧
      (now.act (.element points 1)).2 = now.actAt points 1 (.object (points ++ [.entry])) ∧
      (now.act (.selectTuple points 0)).1 = (now.act (.select points 0)).1 ∧
      (now.act (.select hits 1)).1 = now ∧ (now.act (.element hits 1)).2 = .error refusal := by
  intro schema points hits point actions moves refusal
  have checked : schema.checkAll = .ok () := rfl
  have writing : ((Draft.ofSchema schema ⟨4, 64⟩).run actions).phase = .writing := by
    decide +kernel
  have finished := (Draft.finish_of_writing checked ⟨4, 64⟩ writing).1
  have bound := SealedSet.reader_ofRows schema (RowMachine.ofRun schema ⟨4, 64⟩ actions).rows
  have saved : (RowMachine.ofRun schema ⟨4, 64⟩ actions).rows =
      [.tuple [.array [point 1 [7, 8], point 2 [9]]]] := by decide +kernel
  have moved : (onRows schema (RowMachine.ofRun schema ⟨4, 64⟩ actions).rows .beforeFirst).run
      moves = ⟨⟨1, .on 0⟩, .tuple "" (.cons "points"
      (.array "points" #[0, 2] (some ⟨0, 1⟩) (.tuple "points"
        (.cons "x" (.scalar "points.x" (.int #[1, 2]))
          (.cons "hits" (.array "points.hits" #[0, 2, 3] (some ⟨0, 1⟩)
            (.scalar "points.hits" (.int #[7, 8, 9]))) .nil)))) .nil)⟩ := by
    rw [saved]
    decide +kernel
  obtain ⟨kept, agree⟩ := elements_agree_of_run (.finished checked finished) bound moves
  refine ⟨_, _, finished, bound, ?_⟩
  rw [moved] at kept agree ⊢
  obtain ⟨-, scalar, -, within⟩ := agree hits _ rfl
  obtain ⟨element, -, tuple, -⟩ := agree points _ rfl
  obtain ⟨items, -, counted, -, beyond⟩ := within 1 rfl
  have size : items.length = 1 :=
    Reply.number.inj (Except.ok.inj (counted.symm.trans (by decide +kernel)))
  obtain ⟨-, missing, -, -⟩ := beyond 1 (by decide +kernel) (Nat.le_of_eq size)
  rw [size] at missing
  refine ⟨scalar rfl 0 .long, by decide +kernel, element 1, ?_,
    kept hits 1 refusal (by decide +kernel), missing⟩
  rw [tuple rfl 0]

end Reader

end Columnar
