import Columnar.Proofs.Reader.Spots

/-!
# What a reader answers

Every operation on a reader either is refused for one of a few reasons, or answers a value that lies
in the current row. Nothing is ever looked for past the end of stored data.
-/

namespace Columnar

/-- The values that may be answered for a stored one: itself, and a scalar as a type that keeps
it. -/
inductive Value.ReadAs : Value → Value → Prop where
  | same (stored : Value) : ReadAs stored stored
  | kept {type : ScalarType} {stored kept : Scalar} (keeps : type.keep? stored = some kept) :
      ReadAs (.scalar stored) (.scalar kept)

namespace Spot

/-- What may be answered at a spot that shows some values. -/
inductive Answers (spot : Spot) (values : List Value) : Except Refusal Value → Prop where
  | refused {refusal : Refusal} (reason : refusal.OfReading) : Answers spot values (.error refusal)
  | value {index : Nat} {stored answer : Value} (here : spot.position = .ok index)
      (found : values[index]? = some stored) (read : stored.ReadAs answer) :
      Answers spot values (.ok answer)

variable {spot : Spot} {place : Place} {values : List Value}

/-- Reading a whole value answers the one that is pointed at. -/
theorem Shows.answers_read (shows : spot.Shows place values)
    (solid : ∀ cause, spot.position = .error cause → place.type.Solid) :
    spot.Answers values spot.read := by
  cases here : spot.position with
  | ok index =>
    obtain ⟨value, found, _⟩ := shows.pointed here
    rw [Spot.read, here, View.read_of_atRest shows.view shows.admitted found]
    exact .value here found (.same _)
  | error cause =>
    have filled := View.filled_ofValues place.path values (solid cause here)
    rw [← shows.view, View.filled_atRest] at filled
    rw [Spot.read, here, filled.read_error]
    exact .refused (shows.refused cause here)

/-- Reading a scalar answers the one that is pointed at, as the type that is asked for. -/
theorem Shows.answers_readScalar (shows : spot.Shows place values) (requested : Option ScalarType) :
    spot.Answers values ((spot.readScalar requested).map .scalar) := by
  obtain ⟨view, position⟩ := spot
  obtain ⟨path, type⟩ := place
  have rest := shows.view
  cases type with
  | array element =>
    obtain ⟨selected, entry, rfl, _⟩ := View.eq_array_of_atRest rest
    exact .refused (.wrongKind _ _ _)
  | tuple schema =>
    obtain ⟨columns, rfl, _⟩ := View.eq_tuple_of_atRest rest
    exact .refused (.wrongKind _ _ _)
  | scalar type =>
    obtain rfl := View.eq_scalar_of_atRest rest
    cases position with
    | error cause => exact .refused (shows.refused cause rfl)
    | ok index =>
      obtain ⟨value, found, admitted⟩ := shows.pointed rfl
      cases value with
      | array _ => exact admitted.elim
      | tuple _ => exact admitted.elim
      | scalar stored =>
        have listed : (values.map (Value.leaf type))[index]? = some stored := by
          rw [List.getElem?_map, found]
          rfl
        cases requested with
        | none =>
          have looked : (Leaf.ofScalars type (values.map (Value.leaf type))).read index =
              .ok stored := by
            rw [Leaf.read, Leaf.get?_ofScalars listed admitted]
          change Answers _ _ (Except.map _ (Leaf.read _ index))
          rw [looked]
          exact .value rfl found (.same _)
        | some requested =>
          have read := Leaf.readAs_ofScalars listed admitted path requested
          change Answers _ _ (Except.map _ (Leaf.readAs _ path requested index))
          rw [read]
          cases keeps : requested.keep? stored with
          | some kept => exact .value rfl found (.kept keeps)
          | none => exact .refused (.wrongScalarType _ _ _)

/-- The array that a spot is, if it is one: each of its elements is a spot below. -/
theorem Shows.asArray (shows : spot.Shows place values) {array : ArraySpot}
    (cast : spot.asArray = .ok array) :
    ∃ element, place.type = .array element ∧
      array.offsets = (offsetsOf (Value.sizes values)).toArray ∧ array.position = spot.position ∧
      ∀ chosen, let below : Spot := ⟨array.entry, itemIndex array.offsets array.position chosen⟩
        below.Shows ⟨place.path, element⟩ (values.flatMap Value.items) ∧
          LiesIn (Unwrapped array.offsets array.position chosen) below
            (values.flatMap Value.items) spot values := by
  obtain ⟨view, position⟩ := spot
  obtain ⟨path, type⟩ := place
  have rest := shows.view
  cases view with
  | scalar _ _ => cases cast
  | tuple _ _ => cases cast
  | array other offsets selected entry =>
    cases cast
    cases type with
    | scalar _ => cases rest
    | tuple _ => cases rest
    | array element =>
      obtain ⟨rfl, same, _⟩ := View.array.inj rest
      exact ⟨element, rfl, same, rfl, shows.element⟩

end Spot

/-! ### Operations -/

namespace Reader

/-- Why an operation on the column at the end of a path may be refused: the path leads nowhere, or
the column cannot be read. -/
inductive Refuses (reader : Reader) (path : List Step) : Refusal → Prop where
  | lost {mismatch : Mismatch} (nowhere : reader.find path = .error (.mismatch mismatch)) :
      Refuses reader path (.mismatch mismatch)
  | reading {refusal : Refusal} (reason : refusal.OfReading) : Refuses reader path refusal

/-- What may be answered to an operation on the column at the end of a path: a refusal, or a value,
which under a condition lies in the current row. Only a row without columns is answered while there
is none. -/
inductive Answers (condition : Prop) (reader : Reader) (rows : List Value) (path : List Step) :
    Except Refusal Value → Prop where
  | refused {refusal : Refusal} (reason : reader.Refuses path refusal) :
      Answers condition reader rows path (.error refusal)
  | value {index : Nat} {row stored answer : Value} (here : reader.rowIndex? = some index)
      (found : rows[index]? = some row) (within : condition → row.Within stored)
      (read : stored.ReadAs answer) : Answers condition reader rows path (.ok answer)
  | nothing (rowless : reader.rowIndex? = none) :
      Answers condition reader rows path (.ok (.tuple []))

variable {schema : Schema} {rows : List Value} {reader : Reader}

/-- Where a reader stands is a spot that shows the rows. -/
theorem Reads.shows (reads : reader.Reads schema rows)
    (admitted : ∀ row ∈ rows, (ColumnType.tuple schema).Admits row) :
    Spot.Shows ⟨reader.root, reader.position⟩ (.ofSchema schema) rows where
  view := reads.root
  admitted := admitted
  within := fun _ here => reads.current _ (rowIndex?_of_position here)
  refused := by
    intro refusal missing
    change reader.position = _ at missing
    rw [position_eq] at missing
    split at missing
    · cases missing
    · cases missing
      exact .noCurrentRow

/-- Where a path leads a reader to: to where it leads in the schema, if it leads anywhere. -/
inductive Finds (reader : Reader) (schema : Schema) (rows : List Value) (path : List Step) :
    Prop where
  | nowhere {mismatch : Mismatch} (refused : (Place.ofSchema schema).find path = .error mismatch)
      (lost : reader.find path = .error (.mismatch mismatch))
  | spot {place : Place} {spot : Spot} {values : List Value}
      (leads : (Place.ofSchema schema).find path = .ok place) (found : reader.find path = .ok spot)
      (shows : spot.Shows place values)
      (inside : spot.LiesIn reader.root.Selected values ⟨reader.root, reader.position⟩ rows)

theorem Reads.finds (reads : reader.Reads schema rows)
    (admitted : ∀ row ∈ rows, (ColumnType.tuple schema).Admits row) (path : List Step) :
    reader.Finds schema rows path := by
  have shows := reads.shows admitted
  cases leads : (Place.ofSchema schema).find path with
  | error mismatch =>
    refine .nowhere leads ?_
    rw [Reader.find, shows.find_refused leads]
    rfl
  | ok place =>
    obtain ⟨spot, values, found, below, inside⟩ := shows.find leads
    refine .spot leads ?_ below inside
    rw [Reader.find, found]
    rfl

/-- What is answered at a spot is answered at the path that leads there. -/
private theorem Answers.of_spot {condition : Prop} {spot : Spot} {values : List Value}
    {path : List Step} {result : Except Refusal Value}
    (inside : spot.LiesIn condition values ⟨reader.root, reader.position⟩ rows)
    (answers : spot.Answers values result) : reader.Answers condition rows path result := by
  cases answers with
  | refused reason => exact .refused (.reading reason)
  | value here found read =>
    obtain ⟨index, row, part, current, rowFound, partFound, within⟩ := inside _ here
    obtain rfl := Option.some.inj (partFound.symm.trans found)
    exact .value (rowIndex?_of_position current) rowFound within read

private theorem Answers.imp {condition weaker : Prop} {path : List Step}
    {result : Except Refusal Value} (implies : condition → weaker)
    (answers : reader.Answers weaker rows path result) :
    reader.Answers condition rows path result := by
  cases answers with
  | refused reason => exact .refused reason
  | value here found within read =>
    exact .value here found (fun holds => within (implies holds)) read
  | nothing rowless => exact .nothing rowless

/-- Reading a whole column answers a value of the current row. -/
theorem Reads.answers_object (reads : reader.Reads schema rows)
    (admitted : ∀ row ∈ rows, (ColumnType.tuple schema).Admits row) (solid : schema.Solid)
    (path : List Step) :
    reader.Answers reader.root.Selected rows path (reader.object path) := by
  cases reads.finds admitted path with
  | nowhere refused lost =>
    rw [object, lost]
    exact .refused (.lost lost)
  | @spot place spot values leads found shows inside =>
    rw [object, found]
    rcases Place.solid_find_ofSchema solid leads with ⟨rfl, rfl⟩ | filled
    · cases leads
      cases found
      cases current : reader.rowIndex? with
      | none =>
        change reader.Answers _ rows [] (View.read reader.root reader.position)
        rw [position_eq, current, ← View.read_atRest, shows.view]
        exact .nothing current
      | some row =>
        refine .of_spot inside (shows.answers_read ?_)
        intro cause missing
        change reader.position = _ at missing
        rw [position_eq, current] at missing
        cases missing
    · exact .of_spot inside (shows.answers_read fun _ _ => filled)

/-- Reading a scalar answers one of the current row, as a type that keeps it. -/
theorem Reads.answers_scalar (reads : reader.Reads schema rows)
    (admitted : ∀ row ∈ rows, (ColumnType.tuple schema).Admits row) (path : List Step)
    (requested : Option ScalarType) :
    reader.Answers reader.root.Selected rows path
      ((reader.scalar path requested).map .scalar) := by
  cases reads.finds admitted path with
  | nowhere refused lost =>
    rw [scalar, lost]
    exact .refused (.lost lost)
  | @spot place spot values leads found shows inside =>
    rw [scalar, found]
    exact .of_spot inside (shows.answers_readScalar requested)

/-- Where a path to an array leads a reader to. -/
inductive FindsArray (reader : Reader) (schema : Schema) (rows : List Value) (path : List Step) :
    Prop where
  | refused {refusal : Refusal} (missing : reader.findArray path = .error refusal)
      (reason : reader.Refuses path refusal)
  | array {array : ArraySpot} {element : Place} {items : List Value}
      (leads : (Place.ofSchema schema).find (path ++ [.entry]) = .ok element)
      (found : reader.findArray path = .ok array)
      (shows : ∀ chosen, Spot.Shows ⟨array.entry, itemIndex array.offsets array.position chosen⟩
        element items)
      (inside : ∀ chosen, Spot.LiesIn
        (reader.root.Selected ∧ Unwrapped array.offsets array.position chosen)
        ⟨array.entry, itemIndex array.offsets array.position chosen⟩
        items ⟨reader.root, reader.position⟩ rows)

theorem Reads.findsArray (reads : reader.Reads schema rows)
    (admitted : ∀ row ∈ rows, (ColumnType.tuple schema).Admits row) (path : List Step) :
    reader.FindsArray schema rows path := by
  cases reads.finds admitted path with
  | nowhere refused lost =>
    refine .refused ?_ (.lost lost)
    rw [findArray, lost]
    rfl
  | @spot place spot values leads found shows inside =>
    cases cast : spot.asArray with
    | error mismatch =>
      have missing : reader.findArray path = .error (.mismatch mismatch) := by
        rw [findArray, found]
        change spot.asArray.mapError _ = _
        rw [cast]
        rfl
      refine .refused missing (.reading ?_)
      obtain ⟨view, position⟩ := spot
      cases view <;> cases cast <;> exact .wrongKind _ _ _
    | ok array =>
      obtain ⟨element, typed, _, _, below⟩ := shows.asArray cast
      have leadsBelow :
          (Place.ofSchema schema).find (path ++ [.entry]) = .ok ⟨place.path, element⟩ := by
        obtain ⟨path, type⟩ := place
        obtain rfl : type = .array element := typed
        rw [Place.find_append, leads]
        rfl
      refine .array leadsBelow ?_ (fun chosen => (below chosen).1)
        fun chosen => ((below chosen).2.imp And.right).trans (inside.imp And.left)
      rw [findArray, found]
      change spot.asArray.mapError _ = _
      rw [cast]
      rfl

/-- Reading a whole element answers a value of the current row. -/
theorem Reads.answers_element (reads : reader.Reads schema rows)
    (admitted : ∀ row ∈ rows, (ColumnType.tuple schema).Admits row) (path : List Step)
    (index : Nat) :
    reader.Answers (reader.root.Selected ∧ reader.CountsTo path index) rows path
      (reader.element path index) := by
  cases reads.findsArray admitted path with
  | refused missing reason =>
    rw [element, missing]
    exact .refused reason
  | @array array _ items _ found shows inside =>
    have below := shows index
    rw [element, found]
    change reader.Answers _ rows path (array.readAt index)
    cases position : itemIndex array.offsets array.position index with
    | error refusal =>
      rw [ArraySpot.readAt, position]
      exact .refused (.reading (below.refused refusal position))
    | ok item =>
      have read : array.readAt index =
          Spot.read ⟨array.entry, itemIndex array.offsets array.position index⟩ := by
        rw [ArraySpot.readAt, Spot.read, position]
        rfl
      rw [read]
      refine .imp (fun holds => ⟨holds.1, holds.2.unwrapped found⟩)
        (.of_spot (inside index) (below.answers_read ?_))
      intro cause missing
      cases position.symm.trans missing

/-- Reading a scalar element answers one of the current row, as the type that is asked for. -/
theorem Reads.answers_scalarElement (reads : reader.Reads schema rows)
    (admitted : ∀ row ∈ rows, (ColumnType.tuple schema).Admits row) (path : List Step)
    (index : Nat) (requested : ScalarType) :
    reader.Answers (reader.root.Selected ∧ reader.CountsTo path index) rows path
      ((reader.scalarElement path index requested).map .scalar) := by
  cases reads.findsArray admitted path with
  | refused missing reason =>
    rw [scalarElement, missing]
    exact .refused reason
  | array leads found shows inside =>
    rw [scalarElement, found]
    exact .imp (fun holds => ⟨holds.1, holds.2.unwrapped found⟩)
      (.of_spot (inside index) ((shows index).answers_readScalar (some requested)))

/-- Counting elements is refused like reading them. -/
theorem Reads.refuses_size (reads : reader.Reads schema rows)
    (admitted : ∀ row ∈ rows, (ColumnType.tuple schema).Admits row) {path : List Step}
    {refusal : Refusal} (refused : reader.size path = .error refusal) :
    reader.Refuses path refusal := by
  cases reads.findsArray admitted path with
  | refused missing reason =>
    rw [size, missing] at refused
    cases refused
    exact reason
  | @array array _ _ _ found shows _ =>
    rw [size, found] at refused
    refine .reading ((shows 0).refused refusal ?_)
    change slotSize array.offsets array.position = _ at refused
    cases position : array.position with
    | error cause =>
      rw [position] at refused
      exact refused
    | ok slot =>
      rw [position] at refused
      have lost : slotBounds array.offsets slot = .error refusal := error_of_bind_pure refused
      simp only [itemIndex, bind, Except.bind, lost]

/-- Moving an entry is refused like reading it. -/
theorem Reads.refuses_select (reads : reader.Reads schema rows)
    (admitted : ∀ row ∈ rows, (ColumnType.tuple schema).Admits row) {path : List Step} {index : Nat}
    {refusal : Refusal} (refused : reader.select path index = .error refusal) :
    reader.Refuses path refusal := by
  rw [select_eq] at refused
  cases reads.findsArray admitted path with
  | refused missing reason =>
    rw [missing] at refused
    cases refused
    exact reason
  | @array array _ _ _ found shows _ =>
    rw [found] at refused
    refine .reading ((shows index).refused refusal ?_)
    change array.position >>= _ = _ at refused
    cases position : array.position with
    | error cause =>
      rw [position] at refused
      obtain rfl := Except.error.inj refused
      rfl
    | ok slot =>
      rw [position] at refused
      exact error_of_bind_pure refused

/-- Moving an entry to a tuple and reading it there answers a value of the current row. -/
theorem Reads.answers_selectTuple (reads : reader.Reads schema rows)
    (admitted : ∀ row ∈ rows, (ColumnType.tuple schema).Admits row) (solid : schema.Solid)
    (path : List Step) (index : Nat) :
    reader.Answers (reader.root.Selected ∧ reader.CountsTo path index) rows path
      (reader.selectTuple path index).2 := by
  have array := reads.findsArray admitted path
  rw [selectTuple_eq]
  split
  · rename_i moved selected
    obtain ⟨spot, found, selected⟩ := bind_ok_iff.mp selected
    obtain ⟨columns, _, selected⟩ := bind_ok_iff.mp selected
    have keeps : reader.root.Selected ∧ reader.CountsTo path index → moved.root.Selected :=
      fun holds => selected_select holds.1 holds.2 selected
    have later := reads.select selected
    have same : moved.rowIndex? = reader.rowIndex? := by
      obtain ⟨root, _, settled⟩ := bind_ok_iff.mp selected
      cases settled
      rfl
    have answers := later.answers_object admitted solid (path ++ [.entry])
    change reader.Answers _ rows path (moved.object (path ++ [.entry]))
    generalize moved.object (path ++ [.entry]) = result at answers ⊢
    cases answers with
    | refused reason =>
      refine .refused ?_
      cases reason with
      | reading reason => exact .reading reason
      | lost nowhere =>
        -- The path goes on to the entry, for this reader and for the moved one.
        cases array with
        | refused missing _ => cases found.symm.trans missing
        | array leads _ _ _ =>
          cases later.finds admitted (path ++ [.entry]) with
          | nowhere refused _ => cases leads.symm.trans refused
          | spot _ there _ _ => cases there.symm.trans nowhere
    | value here found within read =>
      exact .value (same ▸ here) found (fun holds => within (keeps holds)) read
    | nothing rowless => exact .nothing (same ▸ rowless)
  · rename_i refusal refused
    refine .refused ?_
    cases array with
    | refused missing reason =>
      rw [missing] at refused
      cases refused
      exact reason
    | @array array _ _ _ found _ _ =>
      rw [found] at refused
      change (array.entry.asTuple.mapError Refusal.mismatch >>= fun _ => reader.select path index) =
        _ at refused
      cases cast : array.entry.asTuple with
      | ok columns =>
        rw [cast] at refused
        exact reads.refuses_select admitted refused
      | error mismatch =>
        rw [cast] at refused
        cases refused
        cases entry : array.entry with
        | tuple _ _ =>
          rw [entry] at cast
          cases cast
        | _ =>
          rw [entry] at cast
          cases cast
          exact .reading (.wrongKind _ _ _)

/-- The path of the column that an operation is done on. -/
def Action.path : Action → List Step
  | .next => []
  | .setRow _ => []
  | .reset => []
  | .select path _ => path
  | .selectTuple path _ => path
  | .row => []
  | .object path => path
  | .scalar path _ => path
  | .size path => path
  | .element path _ => path
  | .scalarElement path _ _ => path

/-- What may be replied to an operation: a refusal or a value that may be answered, or what is no
value. -/
inductive Replies (condition : Prop) (reader : Reader) (rows : List Value) (path : List Step) :
    Except Refusal Reply → Prop where
  | refused {refusal : Refusal} (reason : reader.Refuses path refusal) :
      Replies condition reader rows path (.error refusal)
  | value {value : Value} (answers : reader.Answers condition rows path (.ok value)) :
      Replies condition reader rows path (.ok (.value value))
  | done : Replies condition reader rows path (.ok .done)
  | found (there : Bool) : Replies condition reader rows path (.ok (.found there))
  | number (number : Nat) : Replies condition reader rows path (.ok (.number number))

private theorem Answers.replies {condition : Prop} {path : List Step}
    {result : Except Refusal Value}
    (answers : reader.Answers condition rows path result) :
    reader.Replies condition rows path (result.map .value) := by
  cases result with
  | ok value => exact .value answers
  | error refusal =>
    cases answers with
    | refused reason => exact .refused reason

private theorem Answers.replies_scalar {condition : Prop} {path : List Step}
    {result : Except Refusal Scalar}
    (answers : reader.Answers condition rows path (result.map .scalar)) :
    reader.Replies condition rows path (result.map fun value => .value (.scalar value)) := by
  cases result with
  | ok value => exact .value answers
  | error refusal =>
    cases answers with
    | refused reason => exact .refused reason

private theorem replies_settle {condition : Prop} {path : List Step}
    {outcome : Except Refusal Reader}
    (refuses : ∀ refusal, outcome = .error refusal → reader.Refuses path refusal) :
    reader.Replies condition rows path (reader.settle outcome).2 := by
  cases outcome with
  | ok moved => exact .done
  | error refusal => exact .refused (refuses refusal rfl)

/-- What is replied to every operation. A value lies in the current row if entries are at elements
of their slots and the index of an element, counted from the start of its slot, is a machine word.
-/
theorem Reads.replies_act (reads : reader.Reads schema rows)
    (admitted : ∀ row ∈ rows, (ColumnType.tuple schema).Admits row) (solid : schema.Solid)
    (action : Action) :
    reader.Replies (reader.root.Selected ∧ reader.Counts action) rows action.path
      (reader.act action).2 := by
  cases action with
  | next => exact .found _
  | reset => exact .done
  | setRow row =>
    refine replies_settle fun refusal refused => .reading ?_
    have missing := error_of_bind_pure refused
    rw [RowCursor.setRow] at missing
    split at missing
    · cases missing
    · cases missing
      exact .rowOutOfRange _ _
  | select path index => exact replies_settle fun _ => reads.refuses_select admitted
  | selectTuple path index => exact (reads.answers_selectTuple admitted solid path index).replies
  | row =>
    rw [act_row]
    exact ((reads.answers_object admitted solid []).imp And.left).replies
  | object path =>
    rw [act_object]
    exact ((reads.answers_object admitted solid path).imp And.left).replies
  | scalar path requested =>
    exact ((reads.answers_scalar admitted path requested).imp And.left).replies_scalar
  | element path index =>
    rw [act_element]
    exact (reads.answers_element admitted path index).replies
  | scalarElement path index requested =>
    exact (reads.answers_scalarElement admitted path index requested).replies_scalar
  | size path =>
    change reader.Replies _ rows path ((reader.size path).map .number)
    cases counted : reader.size path with
    | ok count => exact .number count
    | error refusal => exact .refused (reads.refuses_size admitted counted)

end Reader

end Columnar
