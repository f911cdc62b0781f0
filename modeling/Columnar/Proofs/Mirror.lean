import Columnar.Proofs.Draft.InPlace
import Columnar.Proofs.Draft.Phases
import Columnar.Proofs.NamedColumns
import Columnar.Proofs.Reader.Answers

/-!
# Drafts and readers mirror each other

The columns of a draft and those of a reader are two trees that are built independently, and both
are in the form that the schema declares. Whichever way is taken through them, with or without
taking the column at its end for one of some shape, what is found or refused is the same.
-/

namespace Columnar

/-- What can be told of a column without its values. -/
structure Outline where
  kind : Kind
  path : String
  scalarType? : Option ScalarType := none
  entryKind? : Option Kind := none
  names : List String := []
  deriving DecidableEq

namespace Place

/-- What is declared at a place. -/
def outline : Place → Outline
  | ⟨path, .scalar type⟩ => { kind := .scalar, path, scalarType? := some type }
  | ⟨path, .array element⟩ => { kind := .array, path, entryKind? := some element.kind }
  | ⟨path, .tuple columns⟩ => { kind := .tuple, path, names := columns.names }

/-- Takes a place for one of a shape. -/
def cast (place : Place) (requested : Kind) : Except Mismatch Unit :=
  if place.type.kind = requested then .ok () else .error (place.wrongKind requested)

end Place

namespace Node

/-- What can be told of a column being written. -/
def outline : Node → Outline
  | .scalar path values => { kind := .scalar, path, scalarType? := some values.type }
  | .array path _ _ entry => { kind := .array, path, entryKind? := some entry.kind }
  | .tuple path _ columns => { kind := .tuple, path, names := columns.names }

/-- Takes a column being written for one of a shape. -/
def cast (node : Node) : Kind → Except Mismatch Unit
  | .scalar => node.asScalar.map fun _ => ()
  | .array => node.asArray.map fun _ => ()
  | .tuple => node.asTuple.map fun _ => ()

end Node

/-- What can be told of a column being read. -/
def View.outline : View → Outline
  | .scalar path values => { kind := .scalar, path, scalarType? := some values.type }
  | .array path _ _ entry => { kind := .array, path, entryKind? := some entry.kind }
  | .tuple path columns => { kind := .tuple, path, names := columns.names }

/-- Takes a column being read for one of a shape. -/
def Spot.cast (spot : Spot) : Kind → Except Mismatch Unit
  | .scalar => spot.view.asScalar.map fun _ => ()
  | .array => spot.asArray.map fun _ => ()
  | .tuple => spot.view.asTuple.map fun _ => ()

/-- Goes to the end of a path in a schema, and takes the place there for one of a shape, if one is
asked for. -/
def Schema.visit (schema : Schema) (path : List Step) (requested : Option Kind) :
    Except Mismatch Outline := do
  let place ← (Place.ofSchema schema).find path
  requested.forM place.cast
  pure place.outline

/-- Goes to the end of a path in a draft, and takes the column there for one of a shape, if one is
asked for. -/
def Draft.visit (draft : Draft) (path : List Step) (requested : Option Kind) :
    Except Mismatch Outline := do
  let node ← draft.find path
  requested.forM node.cast
  pure node.outline

/-- Goes to the end of a path in the view of a reader, and takes the column there for one of a
shape, if one is asked for. -/
def Reader.visit (reader : Reader) (path : List Step) (requested : Option Kind) :
    Except Refusal Outline := do
  let spot ← reader.find path
  (requested.forM spot.cast).mapError Refusal.mismatch
  pure spot.view.outline

/-! ### Columns being written -/

theorem Nodes.InPlace.names_eq {parent : String} : ∀ {schema : Schema} {columns : Nodes},
    columns.InPlace parent schema → columns.names = schema.names
  | .nil, .nil, _ => rfl
  | .nil, .cons _ _ _, inPlace => inPlace.elim
  | .cons _ _ _, .nil, inPlace => inPlace.elim
  | .cons _ _ _, .cons _ _ _, ⟨own, _, later⟩ => by
      rw [Nodes.names, Nodes.InPlace.names_eq later, own]
      rfl

namespace Node

variable {node : Node} {place : Place}

theorem InPlace.kind_eq {path : String} {type : ColumnType} (inPlace : node.InPlace path type) :
    node.kind = type.kind := by
  cases type <;> cases node <;> first | rfl | exact inPlace.elim

/-- A column in its place is as declared there. -/
theorem InPlace.outline_eq (inPlace : node.InPlace place.path place.type) :
    node.outline = place.outline := by
  obtain ⟨path, type⟩ := place
  cases type with
  | scalar type =>
    obtain ⟨values, rfl, rfl⟩ := InPlace.eq_scalar inPlace
    rfl
  | array element =>
    obtain ⟨slots, elements, entry, rfl, below⟩ := InPlace.eq_array inPlace
    rw [outline, below.kind_eq]
    rfl
  | tuple schema =>
    obtain ⟨count, columns, rfl, below⟩ := InPlace.eq_tuple inPlace
    rw [outline, below.names_eq]
    rfl

/-- A column in its place can be taken for what the place can be taken for. -/
theorem InPlace.cast_eq (inPlace : node.InPlace place.path place.type) (requested : Kind) :
    node.cast requested = place.cast requested := by
  have wrong := inPlace.wrongKind requested
  have kind := inPlace.kind_eq
  rw [Place.cast, ← kind, ← wrong]
  cases node <;> cases requested <;> rfl

end Node

/-! ### Columns being read -/

theorem Views.names_atRest (columns : Views) : columns.atRest.names = columns.names := by
  cases columns with
  | nil => rfl
  | cons name _ rest => exact congrArg (name :: ·) (Views.names_atRest rest)

theorem Views.names_ofRows (parent : String) (schema : Schema) (rows : List (List Value)) :
    (Views.ofRows parent schema rows).names = schema.names := by
  cases schema with
  | nil => rfl
  | cons name _ rest => exact congrArg (name :: ·) (Views.names_ofRows parent rest _)

theorem View.outline_atRest (view : View) : view.atRest.outline = view.outline := by
  cases view with
  | scalar _ _ => rfl
  | array _ _ _ entry => rw [View.atRest, View.outline, View.kind_atRest, View.outline]
  | tuple _ columns => rw [View.atRest, View.outline, Views.names_atRest, View.outline]

theorem View.outline_ofValues (path : String) (type : ColumnType) (values : List Value) :
    (View.ofValues path type values).outline = (Place.mk path type).outline := by
  cases type with
  | scalar type => rw [View.ofValues, View.outline, Leaf.type_ofScalars, Place.outline]
  | array element =>
    have kind : (View.ofValues path element (values.flatMap Value.items)).kind = element.kind := by
      cases element <;> rfl
    rw [View.ofValues, View.outline, kind, Place.outline]
  | tuple schema => rw [View.ofValues, View.outline, Views.names_ofRows, Place.outline]

namespace Spot

variable {spot : Spot} {place : Place} {values : List Value}

/-- The column at a spot is as declared at the place that it shows. -/
theorem Shows.outline_eq (shows : spot.Shows place values) :
    spot.view.outline = place.outline := by
  rw [← View.outline_atRest, shows.view, View.outline_ofValues]

/-- The column at a spot can be taken for what the place can be taken for. -/
theorem Shows.cast_eq (shows : spot.Shows place values) (requested : Kind) :
    spot.cast requested = place.cast requested := by
  have wrong := shows.wrongKind requested
  have kind : spot.view.kind = place.type.kind := by
    rw [← View.kind_atRest, shows.view]
    cases place.type <;> rfl
  rw [Place.cast, ← kind, ← wrong]
  obtain ⟨view, position⟩ := spot
  cases view <;> cases requested <;> rfl

end Spot

/-! ### Visits -/

/-- A way through a draft leads where it leads through the schema. -/
theorem Draft.visit_eq (schema : Schema) (limits : Limits) (actions : List Draft.Action)
    (path : List Step) (requested : Option Kind) :
    ((ofSchema schema limits).run actions).visit path requested =
      schema.visit path requested := by
  have inPlace : ((ofSchema schema limits).run actions).root.InPlace (Place.ofSchema schema).path
      (Place.ofSchema schema).type := inPlace_run schema limits actions
  cases leads : (Place.ofSchema schema).find path with
  | error mismatch =>
    rw [Draft.visit, Draft.find, inPlace.find_refused leads, Schema.visit, leads]
    rfl
  | ok place =>
    obtain ⟨node, found, below⟩ := inPlace.find leads
    rw [Draft.visit, Draft.find, found, Schema.visit, leads]
    change (requested.forM node.cast >>= fun _ => pure node.outline) = _
    rw [funext below.cast_eq, below.outline_eq]
    rfl

namespace Reader

variable {schema : Schema} {rows : List Value} {reader : Reader}

/-- A way through the view of a reader leads where it leads through the schema. -/
theorem Reads.visit_eq (reads : reader.Reads schema rows)
    (admitted : ∀ row ∈ rows, (ColumnType.tuple schema).Admits row) (path : List Step)
    (requested : Option Kind) :
    reader.visit path requested = (schema.visit path requested).mapError .mismatch := by
  cases reads.finds admitted path with
  | nowhere refused lost =>
    rw [Reader.visit, lost, Schema.visit, refused]
    rfl
  | @spot place spot values leads found shows _ =>
    rw [Reader.visit, found, Schema.visit, leads]
    change ((requested.forM spot.cast).mapError Refusal.mismatch >>=
      fun _ => pure spot.view.outline) = _
    rw [funext shows.cast_eq, shows.outline_eq]
    change _ = (requested.forM place.cast >>= fun _ => pure place.outline).mapError _
    cases requested.forM place.cast <;> rfl

end Reader

/-! ### Names and positions -/

/-- The names of the columns of a tuple in a checked schema differ. -/
private theorem Schema.names_nodup_of_visit {schema : Schema} (checked : schema.checkAll = .ok ())
    {path : List Step} {outline : Outline} (visited : schema.visit path none = .ok outline) :
    outline.names.Nodup := by
  obtain ⟨⟨text, type⟩, leads, told⟩ := bind_ok_iff.mp visited
  cases told
  cases type with
  | scalar _ => exact List.nodup_nil
  | array _ => exact List.nodup_nil
  | tuple columns => exact Schema.names_nodup_of_check (Place.check_find checked leads rfl)

section

variable {steps rest : List Step} {outline : Outline} {position : Nat} {name : String}

namespace Draft

variable {draft : Draft}

/-- Where a visit told of columns, there is a tuple with these columns. -/
private theorem tuple_of_visit (visited : draft.visit steps none = .ok outline)
    (here : outline.names[position]? = some name) :
    ∃ path count columns, draft.root.find steps = .ok (.tuple path count columns) ∧
      columns.names = outline.names := by
  obtain ⟨node, found, told⟩ := bind_ok_iff.mp visited
  cases told
  cases node with
  | scalar _ _ => cases here
  | array _ _ _ _ => cases here
  | tuple path count columns => exact ⟨path, count, columns, found, rfl⟩

/-- A path with the name of a column and one with its position lead to the same column of a
draft. -/
theorem leads_name_iff (visited : draft.visit steps none = .ok outline)
    (differ : outline.names.Nodup) (here : outline.names[position]? = some name)
    {address : List Step} {slot : Nat} {target : Node} :
    draft.root.Leads (steps ++ .column (.name name) :: rest) draft.row address slot target ↔
      draft.root.Leads (steps ++ .column (.position position) :: rest) draft.row address slot
        target := by
  obtain ⟨path, count, columns, found, named⟩ := tuple_of_visit visited here
  rw [← named] at differ here
  have byName := Nodes.resolve?_name columns differ here
  have byPosition := Nodes.resolve?_position columns here
  constructor
  · exact Node.Leads.congr found (Node.Leads.reindex byName byPosition)
  · exact Node.Leads.congr found (Node.Leads.reindex byPosition byName)

/-- A path with the name of a column and one with its position find the same column of a draft. -/
theorem find_name (visited : draft.visit steps none = .ok outline)
    (differ : outline.names.Nodup) (here : outline.names[position]? = some name) :
    draft.find (steps ++ .column (.name name) :: rest) =
      draft.find (steps ++ .column (.position position) :: rest) := by
  obtain ⟨path, count, columns, found, named⟩ := tuple_of_visit visited here
  rw [← named] at differ here
  have same := Nodes.get?_of_resolve? columns (Nodes.resolve?_name columns differ here)
  unfold Draft.find
  rw [Node.find_append, Node.find_append, found]
  cases columns.points (.position position) with
  | nowhere lost _ _ => cases (Nodes.resolve?_position columns here).symm.trans lost
  | «at» _ node _ present _ =>
    simp only [bind, Except.bind, Node.find, Node.child, Node.column, Node.asTuple, same, present]

end Draft

namespace Reader

variable {reader : Reader}

/-- Where a visit told of columns, there is a tuple with these columns. -/
private theorem tuple_of_visit (visited : reader.visit steps none = .ok outline)
    (here : outline.names[position]? = some name) :
    ∃ path columns slot, Spot.find ⟨reader.root, reader.position⟩ steps =
      .ok ⟨.tuple path columns, slot⟩ ∧ columns.names = outline.names := by
  obtain ⟨⟨view, slot⟩, found, told⟩ := bind_ok_iff.mp visited
  cases told
  unfold Reader.find at found
  cases walked : Spot.find ⟨reader.root, reader.position⟩ steps with
  | error _ =>
    rw [walked] at found
    cases found
  | ok spot =>
    rw [walked] at found
    cases found
    cases view with
    | scalar _ _ => cases here
    | array _ _ _ _ => cases here
    | tuple path columns => exact ⟨path, columns, slot, rfl, rfl⟩

/-- A path with the name of a column and one with its position find the same column of a reader. -/
theorem find_name (visited : reader.visit steps none = .ok outline)
    (differ : outline.names.Nodup) (here : outline.names[position]? = some name) :
    reader.find (steps ++ .column (.name name) :: rest) =
      reader.find (steps ++ .column (.position position) :: rest) := by
  obtain ⟨path, columns, slot, found, named⟩ := tuple_of_visit visited here
  rw [← named] at differ here
  have same := Views.get?_name columns differ here
  obtain ⟨view, present⟩ := Views.get?_position columns here
  unfold Reader.find
  rw [Spot.find_append, Spot.find_append, found]
  simp only [bind, Except.bind, Spot.find, Spot.child, same, present]

/-- A path with the name of a column and one with its position move the same entry of a reader. -/
theorem select_name (visited : reader.visit steps none = .ok outline)
    (differ : outline.names.Nodup) (here : outline.names[position]? = some name) (element : Nat) :
    reader.select (steps ++ .column (.name name) :: rest) element =
      reader.select (steps ++ .column (.position position) :: rest) element := by
  obtain ⟨path, columns, slot, found, named⟩ := tuple_of_visit visited here
  rw [← named] at differ here
  have same : (View.tuple path columns).select element (.column (.name name) :: rest) slot =
      (View.tuple path columns).select element (.column (.position position) :: rest) slot := by
    rw [View.select, View.select, Views.update_name columns differ here]
  rw [Reader.select, View.select_congr found same]
  rfl

end Reader

end

/-! ### Mismatches -/

/-- A way through a schema is refused only for the names, the number and the shapes of columns. -/
private theorem Place.find_ne_wrongScalarType (place : Place) (path : List Step) (column : String)
    (asked held : ScalarType) : place.find path ≠ .error (.wrongScalarType column asked held) := by
  induction path generalizing place with
  | nil => rintro ⟨⟩
  | cons step rest inductionHypothesis =>
    have here : place.child step ≠ .error (.wrongScalarType column asked held) := by
      obtain ⟨text, type⟩ := place
      cases step with
      | entry => cases type <;> rintro ⟨⟩
      | column index =>
        cases type with
        | scalar _ => rintro ⟨⟩
        | array _ => rintro ⟨⟩
        | tuple columns =>
          rw [child, Schema.lookup_eq]
          split
          · rintro ⟨⟩
          · cases index <;> rintro ⟨⟩
    rw [find]
    cases taken : place.child step with
    | error mismatch =>
      rintro ⟨⟩
      exact here taken
    | ok below => exact inductionHypothesis below

private theorem Schema.visit_ne_wrongScalarType (schema : Schema) (path : List Step)
    (requested : Option Kind) (column : String) (asked held : ScalarType) :
    schema.visit path requested ≠ .error (.wrongScalarType column asked held) := by
  have lost := (Place.ofSchema schema).find_ne_wrongScalarType path column asked held
  unfold Schema.visit
  cases leads : (Place.ofSchema schema).find path with
  | error mismatch =>
    rintro ⟨⟩
    exact lost leads
  | ok place =>
    cases requested with
    | none => rintro ⟨⟩
    | some requested =>
      change (place.cast requested >>= fun _ => pure place.outline) ≠ _
      unfold Place.cast
      split
      · rintro ⟨⟩
      · rintro ⟨⟩

/-! ### The mirror -/

/-- Whatever is done with a draft and with a reader of a batch of the same schema, every way leads
through both to where it leads through the schema: what is found is as declared there, and what is
refused is refused for the same mismatch, of a name, a number or a shape of columns. Where a way
leads to a tuple, the name of a column and its position lead on to the same column. -/
theorem Draft.mirrors_reader {schema : Schema} (checked : schema.checkAll = .ok ())
    (limits sealedLimits : Limits) {sealing : List Draft.Action} {batch : Batch}
    (finished : ((ofSchema schema sealedLimits).run sealing).finish.2.result = .ok batch) :
    ∃ reader, (SealedSet.mk schema (some batch)).reader = .ok reader ∧ ∀ actions moves,
      let draft := (ofSchema schema limits).run actions
      let now := reader.run moves
      (∀ path requested, draft.visit path requested = schema.visit path requested ∧
        now.visit path requested = (schema.visit path requested).mapError .mismatch ∧
        ∀ column asked held,
          schema.visit path requested ≠ .error (.wrongScalarType column asked held)) ∧
      ∀ steps rest outline position name, schema.visit steps none = .ok outline →
        outline.names[position]? = some name →
        let named := steps ++ .column (.name name) :: rest
        let placed := steps ++ .column (.position position) :: rest
        draft.find named = draft.find placed ∧
        (∀ address slot target, draft.root.Leads named draft.row address slot target ↔
          draft.root.Leads placed draft.row address slot target) ∧
        now.find named = now.find placed ∧
        ∀ element, now.select named element = now.select placed element := by
  obtain ⟨rfl, admitted⟩ := ofRows_of_finish checked sealedLimits finished
  refine ⟨_, SealedSet.reader_ofRows schema _, ?_⟩
  intro actions moves draft now
  have reads : now.Reads schema _ := (Reader.reads_onRows schema _).run moves
  have written := visit_eq schema limits actions
  have read := reads.visit_eq admitted
  refine ⟨fun path requested => ⟨written path requested, read path requested,
    schema.visit_ne_wrongScalarType path requested⟩, ?_⟩
  intro steps rest outline position name visited here named placed
  have differ := Schema.names_nodup_of_visit checked visited
  have writtenThere : draft.visit steps none = .ok outline := (written steps none).trans visited
  have readThere : now.visit steps none = .ok outline := by
    rw [read steps none, visited]
    rfl
  exact ⟨find_name writtenThere differ here,
    fun _ _ _ => leads_name_iff writtenThere differ here,
    Reader.find_name readThere differ here, Reader.select_name readThere differ here⟩

/-- A draft that was sealed and a reader that moved into its array: a column below one without a
name is found by its own name, a wrong cast is refused with the path of the array that it is in, and
the lists inside the list are the same by name and by position. -/
theorem Draft.mirrors_reader_nested :
    let schema : Schema := .cons "" (.tuple (.cons "x" (.scalar .integer) .nil))
      (.cons "list" (.array (.tuple (.cons "tags" (.array (.scalar .boolean)) .nil))) .nil)
    let row : Value := .tuple [.tuple [.scalar (.int 1)], .array [.tuple [.array []],
      .tuple [.array [.scalar (.bool true), .scalar (.bool false)]]]]
    let actions : List Draft.Action := [.addRow row]
    let list : Step := .column (.name "list")
    let moves : List Reader.Action := [.next, .select [list] 1]
    let below : List Step := [.column (.name ""), .column (.name "x")]
    let named : List Step := [list, .entry, .column (.name "tags")]
    let placed : List Step := [list, .entry, .column (.position 0)]
    let tag : List Step := [list, .entry, .column (.position 0), .entry]
    schema.checkAll = .ok () ∧ ∃ batch reader,
      ((ofSchema schema ⟨4, 64⟩).run actions).finish.2.result = .ok batch ∧
      (SealedSet.mk schema (some batch)).reader = .ok reader ∧
      let draft := (ofSchema schema ⟨4, 64⟩).run [.addRow row, .finish]
      let now := reader.run moves
      let found : Outline := { kind := .scalar, path := "x", scalarType? := some .integer }
      let wrong : Mismatch := .wrongKind "list.tags" .tuple .scalar
      draft.visit below (some .scalar) = .ok found ∧ now.visit below (some .scalar) = .ok found ∧
      draft.visit tag (some .tuple) = .error wrong ∧
      now.visit tag (some .tuple) = .error (.mismatch wrong) ∧
      draft.find named = draft.find placed ∧ now.select named 1 = now.select placed 1 := by
  intro schema row actions list moves below named placed tag
  have checked : schema.checkAll = .ok () := rfl
  have writing : ((ofSchema schema ⟨4, 64⟩).run actions).phase = .writing := by decide +kernel
  have finished := (finish_of_writing checked ⟨4, 64⟩ writing).1
  obtain ⟨reader, bound, mirrors⟩ := mirrors_reader checked ⟨4, 64⟩ ⟨4, 64⟩ finished
  obtain ⟨visits, names⟩ := mirrors [.addRow row, .finish] moves
  obtain ⟨written, read, _⟩ := visits below (some .scalar)
  obtain ⟨writtenWrong, readWrong, _⟩ := visits tag (some .tuple)
  obtain ⟨found, _, _, selected⟩ := names [list, .entry] []
    { kind := .tuple, path := "list", names := ["tags"] } 0 "tags" rfl rfl
  exact ⟨checked, _, reader, finished, bound, written.trans rfl, read.trans rfl,
    writtenWrong.trans rfl, readWrong.trans rfl, found, selected 1⟩

end Columnar
