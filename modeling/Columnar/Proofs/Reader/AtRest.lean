import Columnar.Proofs.Reader.Moves
import Columnar.Proofs.Reader.Scan

/-!
# Views at rest

The elements that the entries of arrays were moved to are all that moves in a view. Reading a whole
value does not depend on them, and moving an entry changes nothing else, so a reader keeps, at rest,
the view of the rows that it was bound to.
-/

namespace Columnar

mutual

/-- A view with no entry moved. -/
def View.atRest : View → View
  | .scalar path values => .scalar path values
  | .array path offsets _ entry => .array path offsets none entry.atRest
  | .tuple path columns => .tuple path columns.atRest

/-- Views with no entry moved. -/
def Views.atRest : Views → Views
  | .nil => .nil
  | .cons name view rest => .cons name view.atRest rest.atRest

end

mutual

@[simp] theorem View.atRest_ofValues : ∀ (path : String) (type : ColumnType) (values : List Value),
    (View.ofValues path type values).atRest = .ofValues path type values
  | _, .scalar _, _ => rfl
  | path, .array element, values => by
      rw [View.ofValues, View.atRest, View.atRest_ofValues path element]
  | path, .tuple columns, values => by
      rw [View.ofValues, View.atRest, Views.atRest_ofRows path columns]

@[simp] theorem Views.atRest_ofRows : ∀ (parent : String) (schema : Schema)
    (rows : List (List Value)),
    (Views.ofRows parent schema rows).atRest = .ofRows parent schema rows
  | _, .nil, _ => rfl
  | parent, .cons name type rest, rows => by
      rw [Views.ofRows, Views.atRest, View.atRest_ofValues _ type, Views.atRest_ofRows parent rest]

end

@[simp] theorem View.path_atRest (view : View) : view.atRest.path = view.path := by
  cases view <;> rfl

@[simp] theorem View.kind_atRest (view : View) : view.atRest.kind = view.kind := by
  cases view <;> rfl

@[simp] theorem Views.length_atRest : ∀ columns : Views, columns.atRest.length = columns.length
  | .nil => rfl
  | .cons _ _ rest => congrArg (· + 1) (Views.length_atRest rest)

theorem View.eq_scalar_of_atRest {view : View} {path : String} {type : ScalarType}
    {values : List Value} (rest : view.atRest = .ofValues path (.scalar type) values) :
    view = .scalar path (Leaf.ofScalars type (values.map (Value.leaf type))) := by
  cases view with
  | scalar _ _ => exact rest
  | array _ _ _ _ => cases rest
  | tuple _ _ => cases rest

theorem View.eq_array_of_atRest {view : View} {path : String} {element : ColumnType}
    {values : List Value} (rest : view.atRest = .ofValues path (.array element) values) :
    ∃ selected entry,
      view = .array path (offsetsOf (Value.sizes values)).toArray selected entry ∧
      entry.atRest = .ofValues path element (values.flatMap Value.items) := by
  cases view with
  | array own offsets selected entry =>
    obtain ⟨rfl, rfl, _, below⟩ := View.array.inj rest
    exact ⟨selected, entry, rfl, below⟩
  | scalar _ _ => cases rest
  | tuple _ _ => cases rest

theorem View.eq_tuple_of_atRest {view : View} {path : String} {schema : Schema}
    {values : List Value} (rest : view.atRest = .ofValues path (.tuple schema) values) :
    ∃ columns, view = .tuple path columns ∧
      columns.atRest = .ofRows path schema (values.map Value.items) := by
  cases view with
  | tuple own columns =>
    obtain ⟨rfl, below⟩ := View.tuple.inj rest
    exact ⟨columns, rfl, below⟩
  | scalar _ _ => cases rest
  | array _ _ _ _ => cases rest

/-- Columns are found at rest as they are. -/
theorem Views.get?_atRest : ∀ (columns : Views) (index : ColumnIndex),
    columns.atRest.get? index = (columns.get? index).map View.atRest
  | .nil, _ => rfl
  | .cons _ _ _, .position 0 => rfl
  | .cons _ _ rest, .position (position + 1) => Views.get?_atRest rest (.position position)
  | .cons name view rest, .name sought => by
      by_cases here : name = sought
      · simp only [Views.atRest, Views.get?, if_pos here, Option.map_some]
      · simp only [Views.atRest, Views.get?, if_neg here]
        exact Views.get?_atRest rest (.name sought)

mutual

/-- Reading a whole value does not depend on where entries were moved. -/
theorem View.read_atRest : ∀ (view : View) (position : Position),
    view.atRest.read position = view.read position
  | .scalar _ _, _ => rfl
  | .array _ offsets selected entry, position => by
      simp only [View.atRest, View.read, View.read_atRest entry]
  | .tuple _ columns, position => by
      simp only [View.atRest, View.read, Views.read_atRest columns]

/-- Reading a row of columns does not depend on where entries were moved. -/
theorem Views.read_atRest : ∀ (columns : Views) (position : Position),
    columns.atRest.read position = columns.read position
  | .nil, _ => rfl
  | .cons _ view rest, position => by
      simp only [Views.atRest, Views.read, View.read_atRest view, Views.read_atRest rest]

end

/-! ### Moving an entry -/

private theorem Views.atRest_modify {change : View → View}
    (keeps : ∀ view, (change view).atRest = view.atRest) :
    ∀ (columns : Views) (index : ColumnIndex),
      (columns.modify change index).atRest = columns.atRest
  | .nil, _ => rfl
  | .cons name view rest, .position 0 => by rw [Views.modify, Views.atRest, keeps, Views.atRest]
  | .cons name view rest, .position (position + 1) => by
      rw [Views.modify, Views.atRest, Views.atRest_modify keeps rest, Views.atRest]
  | .cons name view rest, .name sought => by
      rw [Views.modify]
      split
      · rw [Views.atRest, keeps, Views.atRest]
      · rw [Views.atRest, Views.atRest_modify keeps rest, Views.atRest]

/-- Moving an entry changes nothing but where it is. -/
theorem View.atRest_restore (moved : Option Selection) : ∀ (path : List Step) (view : View),
    (view.restore moved path).atRest = view.atRest
  | [], .scalar _ _ => rfl
  | [], .array _ _ _ _ => rfl
  | [], .tuple _ _ => rfl
  | .column _ :: _, .scalar _ _ => rfl
  | .column _ :: _, .array _ _ _ _ => rfl
  | .column index :: rest, .tuple path columns => by
      rw [View.restore, View.atRest, View.atRest,
        Views.atRest_modify (View.atRest_restore moved rest) columns index]
  | .entry :: _, .scalar _ _ => rfl
  | .entry :: rest, .array path offsets selected entry => by
      rw [View.restore, View.atRest, View.atRest, View.atRest_restore moved rest entry]
  | .entry :: _, .tuple _ _ => rfl

/-! ### Runs -/

/-- A reader of a sealed set begins before the first row of its batch, with the view of the batch.
-/
theorem SealedSet.of_reader {set : SealedSet} {reader : Reader} (bound : set.reader = .ok reader) :
    ∃ batch, set.batch? = some batch ∧ View.ofBatch set.schema batch.columns = .ok reader.root ∧
      reader.cursor = .ofRows set.rowCount := by
  obtain ⟨schema, held⟩ := set
  cases held with
  | none => cases bound
  | some batch =>
    obtain ⟨root, follows, made⟩ := bind_ok_iff.mp bound
    cases made
    exact ⟨batch, rfl, mapError_ok_iff.mp follows, rfl⟩

namespace Reader

variable {schema : Schema} {rows : List Value} {reader : Reader}

/-- The position of a reader is its current row. -/
theorem position_eq (reader : Reader) :
    reader.position =
      match reader.rowIndex? with
      | some row => .ok row
      | none => .error (.misuse .noCurrentRow) := rfl

theorem rowIndex?_of_position {index : Nat} (here : reader.position = .ok index) :
    reader.rowIndex? = some index := by
  rw [position_eq] at here
  split at here
  · rename_i row current
    cases here
    exact current
  · cases here

/-- Whatever is done with a reader, at rest its view stays as it is. -/
theorem atRest_act (reader : Reader) (action : Action) :
    (reader.act action).1.root.atRest = reader.root.atRest := by
  rcases reader.act_cases action with moves | ⟨path, index, -, selected⟩
  · rw [moves]
  · obtain ⟨_, slot, _, _, _, _, moved⟩ := select_eq_ok_iff.mp selected
    rw [← moved]
    exact View.atRest_restore (some ⟨slot, index⟩) path reader.root

theorem atRest_run (reader : Reader) (actions : List Action) :
    (reader.run actions).root.atRest = reader.root.atRest :=
  @run_induction reader (fun now => now.root.atRest = reader.root.atRest) rfl
    (fun action same => (atRest_act _ action).trans same) actions

/-- Whether a reader reads given rows: at rest its view is that of the rows, and the current row is
one of them. -/
structure Reads (schema : Schema) (rows : List Value) (reader : Reader) : Prop where
  root : reader.root.atRest = .ofValues "" (.tuple schema) rows
  count : reader.cursor.rows = rows.length
  current : ∀ row, reader.rowIndex? = some row → row < rows.length

/-- A reader begins with the rows that it was bound to. -/
theorem reads_onRows (schema : Schema) (rows : List Value) :
    (onRows schema rows .beforeFirst).Reads schema rows where
  root := View.atRest_ofValues "" (.tuple schema) rows
  count := rfl
  current := fun _ there => nomatch there

/-- The cursor of a reader of given rows is within them. -/
private theorem Reads.within (reads : reader.Reads schema rows) : reader.cursor.Within :=
  fun row there => reads.count ▸ reads.current row there

/-- Whatever is done with a reader, it reads the same rows. -/
theorem Reads.act (reads : reader.Reads schema rows) (action : Action) :
    (reader.act action).1.Reads schema rows := by
  have within := reads.within.follow action
  have count := (rows_act reader action).trans reads.count
  rw [← cursor_act] at within
  exact ⟨(atRest_act reader action).trans reads.root, count,
    fun row there => count ▸ within row there⟩

theorem Reads.select {moved : Reader} {path : List Step} {index : Nat}
    (reads : reader.Reads schema rows) (selected : reader.select path index = .ok moved) :
    moved.Reads schema rows := by
  have acted := reads.act (.select path index)
  simpa only [Reader.act, selected, settle] using acted

/-- Whatever is done with a reader one after the other, it reads the same rows. -/
theorem Reads.run (reads : reader.Reads schema rows) (actions : List Action) :
    (reader.run actions).Reads schema rows :=
  run_induction reads (fun action reads => reads.act action) actions

end Reader

end Columnar
