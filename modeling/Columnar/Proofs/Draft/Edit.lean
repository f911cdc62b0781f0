import Columnar.Proofs.Draft.Commit

/-!
# Editing values in progress

An edit of a column that holds saved values changes what is in progress in the way of the row
machine, or stops for lack of room. Where it stops, the column keeps its saved values, and a whole
value that was being written is one that does not fit.
-/

namespace Columnar

variable {capacity : Nat} {path parent : String} {whole : Prop}

/-- What an edit of a column leads to. The answer of the row machine is what is in progress after
the edit and whether the edit is accepted. Where `whole` holds, the edit wrote a whole value. -/
inductive Node.Edits (capacity : Nat) (path : String) (type : ColumnType) (saved : List Value)
    (whole : Prop) : Pending × Bool → Node × Option Refusal → Prop where
  | accepted {pending : Pending} (room : type.Room capacity saved pending) :
      Edits capacity path type saved whole (pending, true)
        (.holding capacity path type saved pending, none)
  | rejected {pending : Pending} {cause : Mismatch} (room : type.Room capacity saved pending) :
      Edits capacity path type saved whole (pending, false)
        (.holding capacity path type saved pending, some (.mismatch cause))
  | short {answer : Pending × Bool} {node : Node} {shortage : Shortage} {column : String}
      (genuine : shortage.Genuine capacity)
      (overfull : ¬type.Room capacity saved answer.1)
      (unfit : whole → answer.2 = true → ¬type.Fits capacity (saved ++ [answer.1.close type]))
      (keeps : node.Keeps capacity path type saved) :
      Edits capacity path type saved whole answer (node, some (shortage.refusal column))

/-- What an edit of columns leads to. -/
inductive Nodes.Edits (capacity : Nat) (parent : String) (schema : Schema)
    (rows : List (List Value)) (whole : Prop) :
    List Pending × Bool → Nodes × Option Refusal → Prop where
  | accepted {pendings : List Pending} (room : schema.Room capacity rows pendings) :
      Edits capacity parent schema rows whole (pendings, true)
        (.holding capacity parent schema rows pendings, none)
  | rejected {pendings : List Pending} {cause : Mismatch}
      (room : schema.Room capacity rows pendings) :
      Edits capacity parent schema rows whole (pendings, false)
        (.holding capacity parent schema rows pendings, some (.mismatch cause))
  | short {answer : List Pending × Bool} {columns : Nodes} {shortage : Shortage} {column : String}
      (genuine : shortage.Genuine capacity)
      (overfull : ¬schema.Room capacity rows answer.1)
      (unfit : whole → answer.2 = true →
        ¬schema.Fits capacity (rows ++ [Pending.closeEach schema answer.1]))
      (keeps : columns.Keeps capacity parent schema rows) :
      Edits capacity parent schema rows whole answer (columns, some (shortage.refusal column))

/-- What writing a whole value leads to is what an edit leads to. -/
theorem Node.Edits.of_whole {type : ColumnType} {saved : List Value} {answer : Pending × Bool}
    {outcome : Node × Option Refusal}
    (edits : Node.Edits capacity path type saved True answer outcome) :
    Node.Edits capacity path type saved whole answer outcome := by
  cases edits with
  | accepted room => exact .accepted room
  | rejected room => exact .rejected room
  | short genuine overfull unfit keeps =>
    exact .short genuine overfull (fun _ => unfit trivial) keeps

/-- An edit of the columns of a tuple is one of the tuple. -/
theorem Node.edits_tuple {columns : Schema} {saved : List Value} {answer : List Pending × Bool}
    {outcome : Nodes × Option Refusal}
    (edits : Nodes.Edits capacity path columns (saved.map Value.items) whole answer outcome) :
    Node.Edits capacity path (.tuple columns) saved whole (.tuple answer.1, answer.2)
      (.tuple path saved.length outcome.1, outcome.2) := by
  cases edits with
  | accepted room => exact .accepted room
  | rejected room => exact .rejected room
  | short genuine overfull unfit keeps =>
    refine .short genuine overfull ?_ (Node.keeps_tuple keeps)
    intro isWhole accepted fits
    rw [ColumnType.Fits, map_items_append] at fits
    exact unfit isWhole accepted fits

/-- An edit of the first of some columns. -/
theorem Nodes.edits_first {name : String} {type : ColumnType} {rest : Schema}
    {rows : List (List Value)} {pendings : List Pending} {answer : Pending × Bool}
    {outcome : Node × Option Refusal} (room : rest.Room capacity (rows.map List.tail) pendings)
    (edits : Node.Edits capacity (childPath parent name) type (rows.map Value.firstItem) whole
      answer outcome) :
    Nodes.Edits capacity parent (.cons name type rest) rows whole
      (answer.1 :: pendings, answer.2)
      (.cons name outcome.1 (.holding capacity parent rest (rows.map List.tail) pendings),
        outcome.2) := by
  cases edits with
  | accepted roomFirst => exact .accepted ⟨roomFirst, room⟩
  | rejected roomFirst => exact .rejected ⟨roomFirst, room⟩
  | short genuine overfull unfit keeps =>
    refine .short genuine (fun roomAfter => overfull roomAfter.1) ?_
      (Nodes.keeps_cons keeps (Nodes.keeps_holding capacity parent rest _ _))
    intro isWhole accepted fits
    rw [Schema.Fits, List.map_append, List.map_append] at fits
    exact unfit isWhole accepted fits.1

/-- An edit of the columns after the first. -/
theorem Nodes.edits_later {name : String} {type : ColumnType} {rest : Schema}
    {rows : List (List Value)} {pending : Pending} {answer : List Pending × Bool}
    {outcome : Nodes × Option Refusal}
    (room : type.Room capacity (rows.map Value.firstItem) pending)
    (edits : Nodes.Edits capacity parent rest (rows.map List.tail) whole answer outcome) :
    Nodes.Edits capacity parent (.cons name type rest) rows whole
      (pending :: answer.1, answer.2)
      (.cons name
        (.holding capacity (childPath parent name) type (rows.map Value.firstItem) pending)
        outcome.1, outcome.2) := by
  cases edits with
  | accepted roomLater => exact .accepted ⟨room, roomLater⟩
  | rejected roomLater => exact .rejected ⟨room, roomLater⟩
  | short genuine overfull unfit keeps =>
    refine .short genuine (fun roomAfter => overfull roomAfter.2) ?_
      (Nodes.keeps_cons (Node.keeps_holding capacity _ type _ _) keeps)
    intro isWhole accepted fits
    rw [Schema.Fits, List.map_append, List.map_append] at fits
    exact unfit isWhole accepted fits.2

/-! ### Writing a scalar -/

/-- There is room for a scalar in progress when it fits behind the saved ones. -/
private theorem room_written_iff {type : ScalarType} {saved : List Value} {kept : Scalar} :
    (ColumnType.scalar type).Room capacity saved (.scalar (some kept)) ↔
      type.Fits capacity (saved.map (Value.leaf type) ++ [kept]) := by
  simp [ColumnType.Room, Pending.written]

/-- Writing a scalar replaces the one that is in progress. -/
theorem Node.edits_write (value : Scalar) {type : ScalarType} {saved : List Value}
    {pending : Pending} (room : (ColumnType.scalar type).Room capacity saved pending) :
    Node.Edits capacity path (.scalar type) saved whole
      (Pending.put (.scalar value) (.scalar type) pending)
      (Node.put none (.scalar value) saved.length
        (.holding capacity path (.scalar type) saved pending)) := by
  simp only [Node.holding, Node.put, ScalarBuffer.write, Pending.put]
  cases keeps : type.keep? value with
  | none =>
    simp only [ScalarBuffer.set_eq_of_keep?_eq_none keeps]
    exact .rejected room
  | some kept =>
    have step := ScalarBuffer.set_ofScalars_length keeps capacity (saved.map (Value.leaf type))
      pending.written
    have measured := ScalarType.measures_write capacity type
      (saved.map (Value.leaf type) ++ [kept])
    rw [List.length_map] at step
    simp only [step]
    cases found : type.writeShortage? capacity (saved.map (Value.leaf type) ++ [kept]) with
    | none => exact .accepted (room_written_iff.mpr (measured.none_iff.mp found))
    | some shortage =>
      have unfit := measured.not_fits found
      refine .short (measured.genuine shortage found) (mt room_written_iff.mp unfit) ?_
        (Node.keeps_scalar type saved pending.written.toList)
      intro _ _ fits
      rw [ColumnType.Fits, Pending.close, map_leaf_append] at fits
      exact unfit fits

/-! ### Elements -/

private theorem saveElement_of_commit {entry : Node} (composite : entry.isScalar = false)
    (elements : Nat) :
    Node.saveElement none elements entry =
      (if (entry.commit elements).2.isNone then elements + 1 else elements,
        entry.commit elements) := by
  simp only [Node.saveElement, composite]
  cases entry.commit elements with
  | mk after refusal => cases refusal <;> rfl

private theorem holding_written (type : ScalarType) (saved : List Value) (kept : Scalar) :
    Node.holding capacity path (.scalar type) saved (.scalar (some kept)) =
      .saved capacity path (.scalar type) (saved ++ [.scalar kept]) := by
  rw [Node.saved_scalar, map_leaf_append]
  rfl

private theorem room_closed_scalar_iff {type : ScalarType} {saved : List Value} {kept : Scalar} :
    (ColumnType.scalar type).Room capacity (saved ++ [.scalar kept]) (.ofType (.scalar type)) ↔
      (ColumnType.scalar type).Room capacity saved (.scalar (some kept)) := by
  simp only [ColumnType.Room, map_leaf_append]
  simp [Pending.written, Pending.ofType]

/-- Once a value of an element is written, saving the element closes it: a scalar is closed as it
is written, and any other element is committed. -/
private theorem commits_element (path : String) {element : ColumnType} {items : List Value}
    {current : Pending} (room : element.Room capacity items current)
    (written : element.isScalar = true → ∃ kept, current = .scalar (some kept)) :
    ∃ outcome, Node.Commits capacity path element items (current.close element) outcome ∧
      Node.saveElement none
        (Node.elementsAfter items.length (.holding capacity path element items current) none)
        (.holding capacity path element items current) =
          (if outcome.2.isNone then items.length + 1 else items.length, outcome) := by
  cases element with
  | scalar type =>
    obtain ⟨kept, rfl⟩ := written rfl
    refine ⟨_, .closed (room_closed_scalar_iff.mpr room), ?_⟩
    rw [holding_written]
    rfl
  | array _ => exact ⟨_, Node.commits_holding capacity path _ items current room,
      saveElement_of_commit rfl _⟩
  | tuple _ => exact ⟨_, Node.commits_holding capacity path _ items current room,
      saveElement_of_commit rfl _⟩

/-- An array whose next element is closed, with a fresh one in progress. -/
private theorem holding_closed_element (path : String) (element : ColumnType)
    (saved closed : List Value) (value : Value) :
    Node.holding capacity path (.array element) saved
        (.array (closed ++ [value]) (.ofType element)) =
      .array path (.ofSizes capacity (Value.sizes saved))
        ((saved.flatMap Value.items ++ closed).length + 1)
        (.saved capacity path element (saved.flatMap Value.items ++ closed ++ [value])) := by
  have counted : (saved.flatMap Value.items ++ closed).length + 1 =
      (saved.flatMap Value.items ++ closed ++ [value]).length := by
    simp only [List.length_append, List.length_singleton]
  rw [counted, List.append_assoc]
  rfl

private theorem room_closed_element {element : ColumnType} {saved closed : List Value}
    {pending : Pending} {value : Value}
    (room : (ColumnType.array element).Room capacity saved pending)
    (roomAfter : element.Room capacity (saved.flatMap Value.items ++ closed ++ [value])
      (.ofType element)) :
    (ColumnType.array element).Room capacity saved
      (.array (closed ++ [value]) (.ofType element)) := by
  rw [List.append_assoc] at roomAfter
  exact ⟨room.1, roomAfter⟩

/-- Where an element does not fit into an array, there is no room for it with others behind it. -/
private theorem overfull_elements {element : ColumnType} {saved closed : List Value} {value : Value}
    (unfit : ¬element.Fits capacity (saved.flatMap Value.items ++ closed ++ [value]))
    (rest : List Value) :
    let answer := Pending.putElements rest element (closed ++ [value]) (.ofType element)
    ¬(ColumnType.array element).Room capacity saved (.array answer.1 answer.2.1) := by
  obtain ⟨more, closes⟩ := Pending.putElements_closed rest element (closed ++ [value])
    (.ofType element)
  rintro answer ⟨_, below⟩
  rw [Pending.closed, closes, ← List.append_assoc, ← List.append_assoc] at below
  exact unfit (ColumnType.fits_ofRoom_append (by simp) below)

/-- What does not fit as an element of an array does not fit with others behind it. -/
private theorem unfit_elements {element : ColumnType} {saved closed : List Value} {value : Value}
    (unfit : ¬element.Fits capacity (saved.flatMap Value.items ++ closed ++ [value]))
    (rest : List Value) :
    ¬(ColumnType.array element).Fits capacity (saved ++
      [.array (Pending.putElements rest element (closed ++ [value]) (.ofType element)).1]) := by
  obtain ⟨more, closes⟩ := Pending.putElements_closed rest element (closed ++ [value])
    (.ofType element)
  rintro ⟨_, below⟩
  rw [closes, List.flatMap_append, List.flatMap_singleton, Value.items, ← List.append_assoc,
    ← List.append_assoc] at below
  exact unfit (ColumnType.fits_ofAppend element _ _ below)

mutual

/-- Writing a whole value changes what is in progress. -/
theorem Node.edits_put : ∀ (value : Value) (path : String) (type : ColumnType)
    (saved : List Value) (pending : Pending), type.Room capacity saved pending →
    Node.Edits capacity path type saved True (Pending.put value type pending)
      (Node.put none value saved.length (.holding capacity path type saved pending))
  | .scalar value, _, .scalar _, _, _, room => Node.edits_write value room
  | .array items, path, .array element, saved, pending, room =>
      Node.edits_putElements items path element saved pending.closed pending.current room
  | .tuple items, path, .tuple columns, saved, pending, room => by
      have below := Nodes.edits_put items path columns (saved.map Value.items) pending.columns room
      rw [List.length_map] at below
      simp only [Node.holding, Node.put, Pending.put, Nodes.length_holding]
      split
      · exact .rejected room
      · exact Node.edits_tuple below
  | .scalar _, _, .array _, _, _, room | .scalar _, _, .tuple _, _, _, room
  | .array _, _, .scalar _, _, _, room | .array _, _, .tuple _, _, _, room
  | .tuple _, _, .scalar _, _, _, room | .tuple _, _, .array _, _, _, room => .rejected room

/-- Writing elements closes one after the other behind those that are closed. -/
theorem Node.edits_putElements : ∀ (items : List Value) (path : String) (element : ColumnType)
    (saved closed : List Value) (current : Pending),
    (ColumnType.array element).Room capacity saved (.array closed current) →
    Node.Edits capacity path (.array element) saved True
      (Pending.put (.array items) (.array element) (.array closed current))
      (Node.put none (.array items) saved.length
        (.holding capacity path (.array element) saved (.array closed current)))
  | [], _, _, _, _, _, room => .accepted room
  | item :: rest, path, element, saved, closed, current, room => by
      have head := Node.edits_put item path element (saved.flatMap Value.items ++ closed) current
        room.2
      -- The induction is on the elements; what is closed grows by one with each.
      have written : element.isScalar = true → (Pending.put item element current).2 = true →
          ∃ kept, (Pending.put item element current).1 = .scalar (some kept) :=
        Pending.written_of_put
      simp only [Node.holding, Node.put, Node.putElements, Pending.put, Pending.putElements,
        Pending.closed, Pending.current]
      generalize Pending.put item element current = answer at head written ⊢
      generalize Node.put none item (saved.flatMap Value.items ++ closed).length
        (.holding capacity path element (saved.flatMap Value.items ++ closed) current) = outcome
        at head ⊢
      cases head with
      | rejected roomEntry => exact .rejected ⟨room.1, roomEntry⟩
      | short genuine overfull unfit keeps =>
        obtain ⟨after, accepted⟩ := answer
        cases accepted with
        | false =>
          refine .short genuine (fun roomAfter => overfull roomAfter.2) ?_ (Node.keeps_array keeps)
          rintro _ ⟨⟩
        | true =>
          have unfitItem := unfit trivial rfl
          exact .short genuine (overfull_elements unfitItem rest)
            (fun _ _ => unfit_elements unfitItem rest) (Node.keeps_array keeps)
      | @accepted after roomEntry =>
        obtain ⟨outcome, commits, saves⟩ :=
          commits_element path roomEntry fun isScalar => written isScalar rfl
        simp only [saves]
        cases commits with
        | closed roomAfter =>
          have rest := Node.edits_putElements rest path element saved
            (closed ++ [after.close element]) (.ofType element)
            (room_closed_element room roomAfter)
          rw [holding_closed_element] at rest
          exact rest
        | short genuine unfit keeps =>
          exact .short genuine (overfull_elements unfit rest)
            (fun _ _ => unfit_elements unfit rest) (Node.keeps_array keeps)

/-- Writing into the leading columns changes what is in progress in each of them. -/
theorem Nodes.edits_put : ∀ (items : List Value) (parent : String) (schema : Schema)
    (rows : List (List Value)) (pendings : List Pending), schema.Room capacity rows pendings →
    Nodes.Edits capacity parent schema rows True (Pending.putEach items schema pendings)
      (Nodes.put none items rows.length (.holding capacity parent schema rows pendings))
  | [], _, schema, _, _, room => by
      cases schema <;> exact .accepted room
  | _ :: _, _, .nil, _, _, room => .accepted room
  | item :: items, parent, .cons name type rest, rows, pendings, room => by
      have head := Node.edits_put item (childPath parent name) type (rows.map Value.firstItem)
        (Pending.first pendings) room.1
      have later := Nodes.edits_put items parent rest (rows.map List.tail) pendings.tail room.2
      rw [List.length_map] at head later
      simp only [Nodes.holding, Nodes.put, Pending.putEach]
      generalize Pending.put item type (Pending.first pendings) = answer at head ⊢
      generalize Node.put none item rows.length (.holding capacity (childPath parent name) type
        (rows.map Value.firstItem) (Pending.first pendings)) = outcome at head ⊢
      cases head with
      | accepted roomFirst => exact Nodes.edits_later roomFirst later
      | rejected roomFirst => exact .rejected ⟨roomFirst, room.2⟩
      | short genuine overfull unfit keeps =>
        have keepsAll := Nodes.keeps_cons keeps (Nodes.keeps_holding capacity parent rest _
          pendings.tail)
        obtain ⟨after, accepted⟩ := answer
        cases accepted with
        | false =>
          refine .short genuine (fun roomAfter => overfull roomAfter.1) ?_ keepsAll
          rintro _ ⟨⟩
        | true =>
          refine .short genuine (fun roomAfter => overfull roomAfter.1) ?_ keepsAll
          intro _ _ fits
          rw [Schema.Fits, List.map_append] at fits
          exact unfit trivial rfl fits.1

end

/-! ### Edits at the end of a path -/

private theorem edits_saveElement {element : ColumnType} {saved : List Value} {pending : Pending}
    (room : (ColumnType.array element).Room capacity saved pending) :
    Node.Edits capacity path (.array element) saved False
      (Pending.editHere .saveElement (.array element) pending)
      (Node.editHere none .saveElement saved.length
        (.holding capacity path (.array element) saved pending)) := by
  simp only [Pending.editHere, Pending.saveElement, Node.editHere, Node.holding]
  cases isScalar : element.isScalar with
  | true =>
    have kept : (Node.holding capacity path element (saved.flatMap Value.items ++ pending.closed)
        pending.current).isScalar = true := by
      rw [Node.isScalar_holding, isScalar]
    simp only [Node.saveElement, kept, if_true]
    exact .accepted room
  | false =>
    have composite : (Node.holding capacity path element
        (saved.flatMap Value.items ++ pending.closed) pending.current).isScalar = false := by
      rw [Node.isScalar_holding, isScalar]
    have commits := Node.commits_holding capacity path element
      (saved.flatMap Value.items ++ pending.closed) pending.current room.2
    simp only [saveElement_of_commit composite]
    generalize (Node.holding capacity path element (saved.flatMap Value.items ++ pending.closed)
      pending.current).commit _ = outcome at commits ⊢
    cases commits with
    | closed roomAfter =>
      have edits : Node.Edits capacity path (.array element) saved False _ _ :=
        .accepted (room_closed_element room roomAfter)
      rw [holding_closed_element] at edits
      exact edits
    | short genuine unfit keeps =>
      exact .short genuine (overfull_elements unfit []) False.elim (Node.keeps_array keeps)

/-- An edit of a column of its kind changes what is in progress. -/
theorem Node.edits_editHere (change : Edit) (type : ColumnType) {saved : List Value}
    {pending : Pending} (room : type.Room capacity saved pending) :
    Node.Edits capacity path type saved False (Pending.editHere change type pending)
      (Node.editHere none change saved.length (.holding capacity path type saved pending)) := by
  cases change with
  | put value => exact (Node.edits_put value path type saved pending room).of_whole
  | set value =>
    cases type with
    | scalar type => exact Node.edits_write value room
    | array _ => exact .rejected room
    | tuple _ => exact .rejected room
  | saveElement =>
    cases type with
    | array element => exact edits_saveElement room
    | scalar _ => exact .rejected room
    | tuple _ => exact .rejected room

/-- An edit of the column that an index points at. -/
private theorem edits_update {change : Node → Node × Option Refusal}
    {answer : ColumnType → Pending → Pending × Bool} {count : Nat}
    (edits : ∀ (path : String) (type : ColumnType) (saved : List Value) (pending : Pending),
      saved.length = count → type.Room capacity saved pending →
      Node.Edits capacity path type saved False (answer type pending)
        (change (.holding capacity path type saved pending)))
    (missing : Mismatch) : ∀ (parent : String) (schema : Schema) (index : ColumnIndex)
    (rows : List (List Value)) (pendings : List Pending), rows.length = count →
    schema.Room capacity rows pendings →
    Nodes.Edits capacity parent schema rows False (Pending.update answer schema index pendings)
      ((Nodes.holding capacity parent schema rows pendings).update change missing index)
  | _, .nil, index, _, _, _, room => by
      cases index <;> exact .rejected room
  | parent, .cons name type rest, index, rows, pendings, counted, room => by
      have head := edits (childPath parent name) type (rows.map Value.firstItem)
        (Pending.first pendings) (by rw [List.length_map, counted]) room.1
      have later := fun index => edits_update edits missing parent rest index
        (rows.map List.tail) pendings.tail (by rw [List.length_map, counted]) room.2
      cases index with
      | name sought =>
        simp only [Nodes.holding, Nodes.update, Pending.update]
        by_cases here : name = sought
        · simp only [if_pos here]
          exact Nodes.edits_first room.2 head
        · simp only [if_neg here]
          exact Nodes.edits_later room.1 (later (.name sought))
      | position position =>
        cases position with
        | zero => exact Nodes.edits_first room.2 head
        | succ position => exact Nodes.edits_later room.1 (later (.position position))

/-- Where there is room for an array after an edit of its entry, there was room for what the edit
left in progress there. -/
private theorem room_of_enter {element : ColumnType} {saved : List Value} {pending : Pending}
    {answer : Pending × Bool}
    (written : element.isScalar = true → answer.2 = true → ∃ kept, answer.1 = .scalar (some kept))
    (room : (ColumnType.array element).Room capacity saved
      (Pending.enter element pending answer.1 answer.2)) :
    element.Room capacity (saved.flatMap Value.items ++ pending.closed) answer.1 := by
  obtain ⟨current, accepted⟩ := answer
  rw [Pending.enter] at room
  split at room
  · rename_i both
    obtain ⟨isScalar, taken⟩ := Bool.and_eq_true_iff.mp both
    obtain ⟨kept, rfl⟩ := written isScalar taken
    cases element with
    | scalar type =>
      obtain ⟨_, below⟩ := room
      rw [Pending.closed, ← List.append_assoc] at below
      exact room_closed_scalar_iff.mp below
    | array _ => cases isScalar
    | tuple _ => cases isScalar
  · exact room.2

/-- An edit of the entry of an array. What a scalar entry accepts is an element at once. -/
private theorem edits_entry {element : ColumnType} {saved : List Value} {pending : Pending}
    {answer : Pending × Bool} {outcome : Node × Option Refusal}
    (room : (ColumnType.array element).Room capacity saved pending)
    (written : element.isScalar = true → answer.2 = true →
      ∃ kept, answer.1 = .scalar (some kept))
    (edits : Node.Edits capacity path element (saved.flatMap Value.items ++ pending.closed) False
      answer outcome) :
    Node.Edits capacity path (.array element) saved False
      (Pending.enter element pending answer.1 answer.2, answer.2)
      (.array path (.ofSizes capacity (Value.sizes saved))
        (Node.elementsAfter (saved.flatMap Value.items ++ pending.closed).length outcome.1
          outcome.2) outcome.1, outcome.2) := by
  cases edits with
  | rejected roomEntry =>
    have unchanged : ∀ after, Pending.enter element pending after false =
        .array pending.closed after := by
      intro after
      simp [Pending.enter]
    simp only [unchanged, Node.elementsAfter, Option.isNone_some, Bool.and_false,
      Bool.false_eq_true, if_false]
    exact .rejected ⟨room.1, roomEntry⟩
  | short genuine overfull _ keeps =>
    refine .short genuine ?_ False.elim (Node.keeps_array keeps)
    exact fun roomAfter => overfull (room_of_enter written roomAfter)
  | @accepted after roomEntry =>
    cases element with
    | scalar type =>
      obtain ⟨kept, rfl⟩ := written rfl rfl
      have edits : Node.Edits capacity path (.array (.scalar type)) saved False _ _ :=
        .accepted (room_closed_element room (room_closed_scalar_iff.mpr roomEntry))
      rw [holding_closed_element, ← holding_written] at edits
      exact edits
    | array _ => exact .accepted ⟨room.1, roomEntry⟩
    | tuple _ => exact .accepted ⟨room.1, roomEntry⟩

/-- An edit at the end of a path changes what is in progress there. -/
theorem Node.edits_edit (change : Edit) (steps : List Step) (path : String) (type : ColumnType)
    (saved : List Value) (pending : Pending) (room : type.Room capacity saved pending) :
    Node.Edits capacity path type saved False (Pending.edit change steps type pending)
      (Node.edit none change steps saved.length (.holding capacity path type saved pending)) := by
  induction steps generalizing path type saved pending with
  | nil => exact Node.edits_editHere change type room
  | cons step steps inductionHypothesis =>
    cases step with
    | column index =>
      cases type with
      | tuple columns =>
        have each : ∀ (path : String) (type : ColumnType) (others : List Value)
            (pending : Pending), others.length = saved.length →
            type.Room capacity others pending →
            Node.Edits capacity path type others False (Pending.edit change steps type pending)
              (Node.edit none change steps saved.length
                (.holding capacity path type others pending)) := by
          intro path type others pending counted room
          rw [← counted]
          exact inductionHypothesis path type others pending room
        have below := edits_update each (index.missing columns.length) path columns index
          (saved.map Value.items) pending.columns (List.length_map _) room
        simp only [Node.holding, Node.edit, Pending.edit, Nodes.length_holding]
        exact Node.edits_tuple below
      | scalar _ => exact .rejected room
      | array _ => exact .rejected room
    | entry =>
      cases type with
      | array element =>
        have below := inductionHypothesis path element
          (saved.flatMap Value.items ++ pending.closed) pending.current room.2
        exact edits_entry room Pending.written_of_edit below
      | scalar _ => exact .rejected room
      | tuple _ => exact .rejected room

end Columnar
