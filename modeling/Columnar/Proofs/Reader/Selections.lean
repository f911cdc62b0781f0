import Columnar.Proofs.Batch.Sound
import Columnar.Proofs.Draft.Phases
import Columnar.Proofs.Reader.Indices

/-!
# Selections

An entry that was moved stays at an element that its slot has, whatever is done with the reader
later. With a current row, an entry is therefore nowhere only where there is nothing: when the
current slot of its array, or of an array around it, has no elements.
-/

namespace Columnar

mutual

/-- Whether a view has a number of rows: each of them has a value or a slot, and the entry of an
array has the elements of all slots. -/
def View.Covers (rows : Nat) : View → Prop
  | .scalar _ values => rows ≤ values.length
  | .array _ offsets _ entry =>
      ∃ items, (∀ slot < rows, ∃ first last,
        slotBounds offsets slot = .ok (first, last) ∧ last ≤ items) ∧ entry.Covers items
  | .tuple _ columns => columns.Covers rows

/-- Whether views have a number of rows each. -/
def Views.Covers (rows : Nat) : Views → Prop
  | .nil => True
  | .cons _ view rest => view.Covers rows ∧ rest.Covers rows

end

/-! ### Views of batches -/

mutual

/-- The view of a sound column has its rows, and no entry of it was moved. -/
private theorem View.sound_ofData : ∀ {type : ColumnType} {path : String} {data : ColumnData}
    {view : View}, View.ofData path type data = .ok view → data.Sound →
    view.Covers data.length ∧ view.Selected
  | .scalar type, path, .leaf values, view, bound, _ => by
      rw [View.ofData] at bound
      split at bound
      · cases bound
        exact ⟨Nat.le_refl _, trivial⟩
      · cases bound
  | .scalar _, _, .list _ _, _, bound, _ => nomatch bound
  | .scalar _, _, .struct _ _, _, bound, _ => nomatch bound
  | .array _, _, .leaf _, _, bound, _ => nomatch bound
  | .array _, _, .struct _ _, _, bound, _ => nomatch bound
  | .array element, path, .list offsets items, view, bound, sound => by
      obtain ⟨rising, ⟨last, ends, within⟩, below⟩ := sound
      obtain ⟨entry, inner, made⟩ := bind_ok_iff.mp bound
      cases made
      obtain ⟨covers, selected⟩ := View.sound_ofData inner below
      refine ⟨⟨items.length, fun slot inside => ?_, covers⟩, (nomatch ·, ·), selected⟩
      obtain ⟨first, stop, bounds, upper⟩ := slotBounds_of_sound rising ends inside
      exact ⟨first, stop, bounds, Nat.le_trans upper within⟩
  | .tuple _, _, .leaf _, _, bound, _ => nomatch bound
  | .tuple _, _, .list _ _, _, bound, _ => nomatch bound
  | .tuple schema, path, .struct rows columns, view, bound, sound => by
      obtain ⟨_, _, bound⟩ := bind_ok_iff.mp bound
      obtain ⟨views, inner, made⟩ := bind_ok_iff.mp bound
      cases made
      exact Views.sound_ofDatas inner fun data => DataColumns.Sound.of_mem sound

/-- The views of sound columns have their rows, and no entry of them was moved. -/
private theorem Views.sound_ofDatas {rows : Nat} : ∀ {schema : Schema} {parent : String}
    {datas : List ColumnData} {views : Views}, Views.ofDatas parent schema datas = .ok views →
    (∀ data ∈ datas, data.length = rows ∧ data.Sound) → views.Covers rows ∧ views.Selected
  | .nil, _, _, _, bound, _ => by
      cases bound
      exact ⟨trivial, trivial⟩
  | .cons _ _ _, _, [], _, bound, _ => by
      cases bound
      exact ⟨trivial, trivial⟩
  | .cons name type rest, parent, data :: datas, views, bound, sound => by
      obtain ⟨first, inner, bound⟩ := bind_ok_iff.mp bound
      obtain ⟨others, later, made⟩ := bind_ok_iff.mp bound
      cases made
      obtain ⟨⟨counted, here⟩, there⟩ := List.forall_mem_cons.mp sound
      obtain ⟨covers, selected⟩ := View.sound_ofData inner here
      obtain ⟨coversOthers, selectedOthers⟩ := Views.sound_ofDatas later there
      exact ⟨⟨counted ▸ covers, coversOthers⟩, selected, selectedOthers⟩

end

/-! ### Moving an entry -/

mutual

/-- Where entries were moved does not matter for the rows that a view has. -/
private theorem View.covers_atRest {rows : Nat} (view : View) :
    view.atRest.Covers rows ↔ view.Covers rows := by
  cases view with
  | scalar _ _ => exact Iff.rfl
  | array _ _ _ entry => simp only [View.atRest, View.Covers, View.covers_atRest entry]
  | tuple _ columns => exact Views.covers_atRest columns

/-- Where entries were moved does not matter for the rows that views have. -/
private theorem Views.covers_atRest {rows : Nat} (columns : Views) :
    columns.atRest.Covers rows ↔ columns.Covers rows := by
  cases columns with
  | nil => exact Iff.rfl
  | cons _ view rest => exact and_congr (View.covers_atRest view) (Views.covers_atRest rest)

end

/-! ### Along a path -/

namespace View

variable {view : View} {position : Position} {path : List Step} {spot : Spot}

/-- From one of the rows of a view, a position at the end of a path is one of the rows of the view
there. -/
theorem Reaches.covered (reaches : view.Reaches position path spot) {index rows item : Nat}
    (covers : view.Covers rows) (here : position = .ok index) (inside : index < rows)
    (there : spot.position = .ok item) : ∃ items, item < items ∧ spot.view.Covers items := by
  induction reaches generalizing index rows with
  | here _ _ =>
    obtain rfl := Except.ok.inj (here.symm.trans there)
    exact ⟨rows, inside, covers⟩
  | column found _ inductionHypothesis =>
    exact inductionHypothesis (Views.of_get? id covers found) here inside there
  | @entry own offsets chosen entry position rest spot further inductionHypothesis =>
    subst here
    obtain ⟨items, slots, coversEntry⟩ := covers
    obtain ⟨first, last, bounds, upper⟩ := slots index inside
    cases pointed : entryPosition offsets chosen (.ok index) with
    | error _ => cases there.symm.trans (further.position_eq_error pointed)
    | ok next =>
      obtain ⟨before, -⟩ := lt_of_itemIndex bounds pointed
      exact inductionHypothesis coversEntry pointed (by omega) there

/-- Whether an array on the way along a path has no elements in its current slot. -/
def Emptied (view : View) (position : Position) (path : List Step) : Prop :=
  ∃ outer inner own offsets selected entry below, path = outer ++ inner ∧ inner ≠ [] ∧
    view.Reaches position outer ⟨.array own offsets selected entry, below⟩ ∧
    slotSize offsets below = .ok 0

/-- What comes of the position at the end of a path: there is one, or an array on the way is empty,
and it is the first element that is missing. -/
inductive Resolves (view : View) (position : Position) (path : List Step) (spot : Spot) : Prop where
  | item {index : Nat} (here : spot.position = .ok index) (filled : ¬ view.Emptied position path)
  | missing (nowhere : spot.position = .error (.misuse (.elementOutOfRange 0 0)))
      (emptied : view.Emptied position path)

private theorem not_emptied_nil : ¬ view.Emptied position [] := by
  rintro ⟨outer, inner, _, _, _, _, _, parts, more, _⟩
  exact more (List.append_eq_nil_iff.mp parts.symm).2

private theorem emptied_column {own : String} {columns : Views} {index : ColumnIndex}
    {rest : List Step} (found : columns.get? index = some view) :
    (View.tuple own columns).Emptied position (.column index :: rest) ↔
      view.Emptied position rest := by
  constructor
  · rintro ⟨outer, inner, name, offsets, selected, entry, below, parts, more, reaches, empty⟩
    cases reaches with
    | column foundAlso further =>
      obtain ⟨⟨⟩, rfl⟩ := List.cons.inj parts
      obtain rfl := Option.some.inj (found.symm.trans foundAlso)
      exact ⟨_, inner, name, offsets, selected, entry, below, rfl, more, further, empty⟩
  · rintro ⟨outer, inner, name, offsets, selected, entry, below, rfl, more, reaches, empty⟩
    exact ⟨_, inner, name, offsets, selected, entry, below, rfl, more, .column found reaches, empty⟩

private theorem emptied_entry {own : String} {offsets : Array Nat} {selected : Option Selection}
    {rest : List Step} (filled : slotSize offsets position ≠ .ok 0) :
    (View.array own offsets selected view).Emptied position (.entry :: rest) ↔
      view.Emptied (entryPosition offsets selected position) rest := by
  constructor
  · rintro ⟨outer, inner, name, offsets, selected, entry, below, parts, more, reaches, empty⟩
    cases reaches with
    | here => exact absurd empty filled
    | entry further =>
      obtain ⟨_, rfl⟩ := List.cons.inj parts
      exact ⟨_, inner, name, _, _, entry, below, rfl, more, further, empty⟩
  · rintro ⟨outer, inner, name, offsets, selected, entry, below, rfl, more, reaches, empty⟩
    exact ⟨_, inner, name, _, _, entry, below, rfl, more, .entry reaches, empty⟩

section Entry

variable {own : String} {offsets : Array Nat} {selected : Option Selection} {entry : View}
  {slot first last : Nat}

/-- The entry of an array that has elements in its current slot is at one of them. -/
private theorem entryPosition_of_filled (valid : (View.array own offsets selected entry).Selected)
    (bounds : slotBounds offsets slot = .ok (first, last)) (filled : first < last) :
    ∃ item, entryPosition offsets selected (.ok slot) = .ok item ∧ item < last := by
  have inside := elementFor_eq_zero_or_lt valid bounds
  refine ⟨first + elementFor selected slot, ?_, by omega⟩
  change itemIndex offsets (.ok slot) (elementFor selected slot) = _
  exact itemIndex_of_lt bounds (by omega)

/-- The entry of an array whose current slot is empty is at no element, and it is the first one that
is missing, because no entry was ever moved there. -/
private theorem entryPosition_of_emptied (valid : (View.array own offsets selected entry).Selected)
    (bounds : slotBounds offsets slot = .ok (first, last)) (empty : last ≤ first) :
    entryPosition offsets selected (.ok slot) = .error (.misuse (.elementOutOfRange 0 0)) := by
  have unmoved : elementFor selected slot = 0 := by
    have inside := elementFor_eq_zero_or_lt valid bounds
    omega
  change itemIndex offsets (.ok slot) (elementFor selected slot) = _
  have item : itemOf first last 0 = first := if_pos (Nat.zero_le _)
  rw [unmoved, itemIndex_eq bounds, item, if_pos empty, Nat.sub_eq_zero_of_le empty]

end Entry

/-- On one of the rows of a view, the position at the end of a path is there unless an array on the
way is empty. -/
theorem Reaches.resolves (reaches : view.Reaches position path spot) {index rows : Nat}
    (selected : view.Selected) (covers : view.Covers rows) (here : position = .ok index)
    (inside : index < rows) : view.Resolves position path spot := by
  induction reaches generalizing index rows with
  | here _ _ => exact .item here not_emptied_nil
  | column found _ inductionHypothesis =>
    have below := inductionHypothesis (Views.of_get? id selected found)
      (Views.of_get? id covers found) here inside
    cases below with
    | item there filled => exact .item there (mt (emptied_column found).mp filled)
    | missing nowhere emptied => exact .missing nowhere ((emptied_column found).mpr emptied)
  | @entry own offsets chosen entry position rest spot further inductionHypothesis =>
    subst here
    obtain ⟨items, slots, coversEntry⟩ := covers
    obtain ⟨first, last, bounds, upper⟩ := slots index inside
    by_cases empty : last ≤ first
    · have nowhere := entryPosition_of_emptied selected bounds empty
      refine .missing (further.position_eq_error nowhere)
        ⟨[], _, own, offsets, chosen, entry, .ok index, rfl, List.cons_ne_nil _ _, .here _ _, ?_⟩
      rw [slotSize_eq bounds, Nat.sub_eq_zero_of_le empty]
    · have filled : slotSize offsets (.ok index) ≠ .ok 0 := by
        rw [slotSize_eq bounds]
        intro none
        have none := Except.ok.inj none
        omega
      obtain ⟨item, there, below⟩ := entryPosition_of_filled selected bounds (by omega)
      have resolved := inductionHypothesis selected.2 coversEntry there (by omega)
      cases resolved with
      | item found whole => exact .item found (mt (emptied_entry filled).mp whole)
      | missing nowhere emptied => exact .missing nowhere ((emptied_entry filled).mpr emptied)

end View

/-! ### Readers -/

namespace Reader

/-- Whether a reader is in order: its view has the rows of its cursor, and the current row is one of
them. -/
structure Sound (reader : Reader) : Prop where
  covers : reader.root.Covers reader.rowCount
  within : reader.cursor.Within

variable {reader : Reader}

/-- Whatever is done with a reader keeps it in order. -/
theorem Sound.act (sound : reader.Sound) (action : Action) : (reader.act action).1.Sound := by
  have within := sound.within.follow action
  rw [← cursor_act] at within
  refine ⟨?_, within⟩
  rw [rowCount, rows_act, ← View.covers_atRest, atRest_act, View.covers_atRest]
  exact sound.covers

/-- Whatever is done with a reader one after the other keeps it in order. -/
theorem Sound.run (sound : reader.Sound) (actions : List Action) : (reader.run actions).Sound :=
  run_induction sound (fun action sound => sound.act action) actions

end Reader

/-! ### Sealed sets -/

namespace SealedSet

/-- Where sealed sets come from: a draft of a checked schema that was finished, whatever was done
with it before, or a sound batch that follows some schema. -/
inductive Obtained : SealedSet → Prop where
  | finished {schema : Schema} {limits : Limits} {actions : List Draft.Action} {batch : Batch}
      (checked : schema.checkAll = .ok ())
      (finished : ((Draft.ofSchema schema limits).run actions).finish.2.result = .ok batch) :
      Obtained ⟨schema, some batch⟩
  | wrapped {schema : Schema} {batch : Batch} {set : SealedSet} (sound : batch.Sound)
      (made : ofBatch? schema batch = .ok set) : Obtained set

/-- The batch of given rows makes a sealed set. -/
theorem obtained_ofRows (schema : Schema) (rows : List Value) :
    (SealedSet.mk schema (some (.ofRows schema rows))).Obtained := by
  have made : ofBatch? schema (.ofRows schema rows) = .ok ⟨schema, some (.ofRows schema rows)⟩ := by
    rw [ofBatch?, View.ofBatch_ofRows schema.sameShape_refl]
    rfl
  exact .wrapped (Batch.sound_ofRows schema rows) made

/-- The batch of a sealed set is sound, wherever the set comes from. -/
theorem Obtained.sound_batch {set : SealedSet} (obtained : set.Obtained) {batch : Batch}
    (held : set.batch? = some batch) : batch.Sound := by
  cases obtained with
  | finished checked finished =>
    obtain ⟨rfl, _⟩ := Draft.ofRows_of_finish checked _ finished
    cases held
    exact Batch.sound_ofRows _ _
  | wrapped sound made =>
    obtain ⟨_, _, made⟩ := bind_ok_iff.mp made
    cases made
    cases held
    exact sound

/-- A range of the rows of a sealed set is a sealed set under every schema that it follows. -/
theorem Obtained.sliceUnder {set part : SealedSet} (obtained : set.Obtained) {batch : Batch}
    (held : set.batch? = some batch) {schema : Schema} {offset length : Nat}
    (cut : batch.sliceUnder schema offset length = .ok part) : part.Obtained := by
  rw [Batch.sliceUnder] at cut
  cases rows : batch.slice? offset length with
  | none =>
    rw [rows] at cut
    cases cut
  | some _ =>
    rw [rows] at cut
    exact .wrapped ((obtained.sound_batch held).slice? rows) cut

/-- Any of the columns of a sealed set are a sealed set under every schema that they follow. -/
theorem Obtained.projectUnder {set part : SealedSet} (obtained : set.Obtained) {batch : Batch}
    (held : set.batch? = some batch) {schema : Schema} {positions : List Nat}
    (chosen : batch.projectUnder schema positions = .ok part) : part.Obtained := by
  rw [Batch.projectUnder] at chosen
  cases columns : batch.project? positions with
  | error _ =>
    rw [columns] at chosen
    cases chosen
  | ok _ =>
    rw [columns] at chosen
    exact .wrapped ((obtained.sound_batch held).project? columns) chosen

/-- A reader of a sealed set begins in order, with no entry moved. -/
theorem Obtained.reader_begins {set : SealedSet} (obtained : set.Obtained) {reader : Reader}
    (bound : set.reader = .ok reader) : reader.Sound ∧ reader.root.Selected := by
  obtain ⟨batch, held, viewed, fresh⟩ := set.of_reader bound
  obtain ⟨_, _, viewed⟩ := bind_ok_iff.mp viewed
  obtain ⟨views, inner, made⟩ := bind_ok_iff.mp viewed
  obtain ⟨covers, selected⟩ := Views.sound_ofDatas inner (obtained.sound_batch held)
  have rows : reader.rowCount = batch.rows := by
    rw [Reader.rowCount, fresh, RowCursor.ofRows, SealedSet.rowCount, held]
  refine ⟨⟨?_, ?_⟩, ?_⟩
  · rw [← Except.ok.inj made, rows]
    exact covers
  · rw [fresh]
    rintro row ⟨⟩
  · rw [← Except.ok.inj made]
    exact selected

/-- A reader of a sealed set begins in order. -/
theorem Obtained.sound_reader {set : SealedSet} (obtained : set.Obtained) {reader : Reader}
    (bound : set.reader = .ok reader) : reader.Sound :=
  (obtained.reader_begins bound).1

end SealedSet

namespace Reader

variable {reader : Reader} {path : List Step}

/-- The arrays on the way to the entry of an array are those on the way to the array, and itself. -/
private theorem emptied_entry_iff :
    reader.root.Emptied reader.position (path ++ [.entry]) ↔
      ∃ outer inner enclosing, path = outer ++ inner ∧ reader.findArray outer = .ok enclosing ∧
        enclosing.size = .ok 0 := by
  constructor
  · rintro ⟨outer, inner, own, offsets, selected, entry, below, parts, more, reaches, empty⟩
    refine ⟨outer, inner.dropLast, ⟨own, offsets, selected, entry, below⟩, ?_,
      findArray_eq_ok_iff.mpr reaches, empty⟩
    rw [← List.dropLast_append_of_ne_nil more, ← parts, List.dropLast_concat]
  · rintro ⟨outer, inner, enclosing, rfl, found, empty⟩
    exact ⟨outer, inner ++ [.entry], _, _, _, _, _, List.append_assoc _ _ _, by simp,
      findArray_eq_ok_iff.mp found, empty⟩

/-- Reading leaves a reader of a sealed set as it is, with its row and with every entry where it was
moved, whether or not it is refused. As long as entries were moved by indices that a machine word
holds, counted from the start of the slot, an entry that was moved is at an element that its slot
has, whatever else was done with the reader. On a row, the entry of an array is then at no element
just when the array or one around it is empty, and what is missing is the first element. -/
theorem undisturbed_of_run {set : SealedSet} (obtained : set.Obtained)
    (bound : set.reader = .ok reader) (moves : List Action) :
    let now := reader.run moves
    (∀ action, action.isRead = true → (now.act action).1 = now) ∧
    (reader.CountsAll moves →
      (∀ path array selection, now.findArray path = .ok array →
        array.selected = some selection →
        ∃ size, slotSize array.offsets (.ok selection.slot) = .ok size ∧
          selection.element < size) ∧
      ∀ row path array, now.rowIndex? = some row → now.findArray path = .ok array →
        ∃ entry, now.find (path ++ [.entry]) = .ok entry ∧
          ((∃ refusal, entry.position = .error refusal) ↔
            ∃ outer inner enclosing, path = outer ++ inner ∧
              now.findArray outer = .ok enclosing ∧ enclosing.size = .ok 0) ∧
          ∀ refusal, entry.position = .error refusal →
            refusal = .misuse (.elementOutOfRange 0 0)) := by
  intro now
  refine ⟨fun action reads => act_of_isRead now reads, fun counts => ?_⟩
  obtain ⟨begins, unmoved⟩ := obtained.reader_begins bound
  have sound : now.Sound := begins.run moves
  have selected : now.root.Selected := selected_run unmoved counts
  refine ⟨?_, ?_⟩
  · intro path array selection found chosen
    exact ((findArray_eq_ok_iff.mp found).selected selected).1 selection chosen
  · intro row path array current found
    have reaches := (findArray_eq_ok_iff.mp found).append (.entry (.here _ _))
    refine ⟨_, find_eq_ok_iff.mpr reaches, ?_⟩
    have here : now.position = .ok row := by rw [position_eq, current]
    cases reaches.resolves selected sound.covers here (sound.within row current) with
    | item there filled =>
      rw [there]
      refine ⟨⟨?_, fun empty => absurd (emptied_entry_iff.mpr empty) filled⟩, ?_⟩
      · rintro ⟨_, ⟨⟩⟩
      · rintro _ ⟨⟩
    | missing nowhere emptied =>
      rw [nowhere]
      refine ⟨⟨fun _ => emptied_entry_iff.mp emptied, fun _ => ⟨_, rfl⟩⟩, ?_⟩
      rintro _ ⟨⟩
      rfl

/-- A reader that moved to the second point of the first row and to its tag, and then on to the
second row, where the only point has no tags. -/
theorem undisturbed_of_run_stale :
    let schema : Schema := .cons "points" (.array (.tuple (.cons "x" (.scalar .integer)
      (.cons "tags" (.array (.scalar .boolean)) .nil)))) .nil
    let points : List Step := [.column (.name "points")]
    let tags : List Step := [.column (.name "points"), .entry, .column (.name "tags")]
    let point : Int32 → List Bool → Value := fun x tags =>
      .tuple [.scalar (.int x), .array (tags.map fun tag => .scalar (.bool tag))]
    let actions : List Draft.Action :=
      [.addRow (.tuple [.array [point 1 [true, false], point 2 [true]]]),
        .addRow (.tuple [.array [point 3 []]])]
    let moves : List Action := [.setRow 0, .select points 1, .select tags 0, .next]
    ∃ batch reader,
      ((Draft.ofSchema schema ⟨4, 64⟩).run actions).finish.2.result = .ok batch ∧
      (SealedSet.mk schema (some batch)).reader = .ok reader ∧
      let now := reader.run moves
      (now.act .row).1 = now ∧ (now.act (.element points 7)).1 = now ∧
      (∃ array size, now.findArray points = .ok array ∧ array.selected = some ⟨0, 1⟩ ∧
        slotSize array.offsets (.ok 0) = .ok size ∧ 1 < size) ∧
      ∃ entry refusal, now.find (tags ++ [.entry]) = .ok entry ∧
        entry.position = .error refusal ∧ refusal = .misuse (.elementOutOfRange 0 0) := by
  intro schema points tags point actions moves
  have checked : schema.checkAll = .ok () := rfl
  have writing : ((Draft.ofSchema schema ⟨4, 64⟩).run actions).phase = .writing := by
    decide +kernel
  have finished := (Draft.finish_of_writing checked ⟨4, 64⟩ writing).1
  have bound := SealedSet.reader_ofRows schema (RowMachine.ofRun schema ⟨4, 64⟩ actions).rows
  have saved : (RowMachine.ofRun schema ⟨4, 64⟩ actions).rows =
      [.tuple [.array [point 1 [true, false], point 2 [true]]],
        .tuple [.array [point 3 []]]] := by decide +kernel
  have moved : (onRows schema (RowMachine.ofRun schema ⟨4, 64⟩ actions).rows .beforeFirst).run
      moves = ⟨⟨2, .on 1⟩, .tuple "" (.cons "points"
      (.array "points" #[0, 2, 3] (some ⟨0, 1⟩) (.tuple "points"
        (.cons "x" (.scalar "points.x" (.int #[1, 2, 3]))
          (.cons "tags" (.array "points.tags" #[0, 2, 3, 3] (some ⟨1, 0⟩)
            (.scalar "points.tags" (.bool #[true, false, true]))) .nil)))) .nil)⟩ := by
    rw [saved]
    decide +kernel
  obtain ⟨kept, inside⟩ := undisturbed_of_run (.finished checked finished) bound moves
  obtain ⟨stale, resolved⟩ := inside (by rw [saved]; decide +kernel)
  refine ⟨_, _, finished, bound, kept .row rfl, kept (.element points 7) rfl, ?_, ?_⟩
  · rw [moved] at stale ⊢
    obtain ⟨size, counted, below⟩ := stale points _ ⟨0, 1⟩ rfl rfl
    exact ⟨_, size, rfl, rfl, counted, below⟩
  · rw [moved] at resolved ⊢
    obtain ⟨entry, found, missing, reason⟩ := resolved 1 tags _ rfl rfl
    obtain ⟨refusal, nowhere⟩ := missing.mpr ⟨tags, [], _, rfl, rfl, rfl⟩
    exact ⟨entry, refusal, found, nowhere, reason refusal nowhere⟩

/-- The last index that a machine word holds is accepted wherever a slot does not begin at the first
item: the entry is moved to an element that the slot does not have, and of an array without elements
it is then at one. -/
theorem selected_of_wrapped :
    let schema : Schema := .cons "a" (.array (.scalar .integer)) .nil
    let path : List Step := [.column (.name "a")]
    let rows := [Value.tuple [.array [.scalar (.int 1), .scalar (.int 2)]],
      Value.tuple [.array [.scalar (.int 3)]], Value.tuple [.array []]]
    let set : SealedSet := ⟨schema, some (.ofRows schema rows)⟩
    let index := 18446744073709551615
    ∃ reader, set.Obtained ∧ set.reader = .ok reader ∧
      (∃ array, (reader.run [.setRow 1, .select path index]).findArray path = .ok array ∧
        array.selected = some ⟨1, index⟩ ∧ array.size = .ok 1) ∧
      let now := reader.run [.setRow 2, .select path index]
      (∃ array, now.findArray path = .ok array ∧ array.size = .ok 0) ∧
        ∃ entry, now.find (path ++ [.entry]) = .ok entry ∧ entry.position = .ok 2 := by
  intro schema path rows set index
  have moved : ∀ row, row = 1 ∨ row = 2 →
      (onRows schema rows .beforeFirst).run [.setRow row, .select path index] =
        ⟨⟨3, .on row⟩, .tuple "" (.cons "a" (.array "a" #[0, 2, 3, 3] (some ⟨row, index⟩)
          (.scalar "a" (.int #[1, 2, 3]))) .nil)⟩ := by
    rintro row (rfl | rfl)
    · decide +kernel
    · decide +kernel
  refine ⟨_, SealedSet.obtained_ofRows schema rows, SealedSet.reader_ofRows schema rows, ?_, ?_⟩
  · rw [moved 1 (.inl rfl)]
    exact ⟨_, rfl, rfl, rfl⟩
  · rw [moved 2 (.inr rfl)]
    exact ⟨⟨_, rfl, rfl⟩, _, rfl, by decide +kernel⟩

end Reader

end Columnar
