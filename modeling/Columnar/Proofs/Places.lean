import Columnar.Proofs.Solid
import Columnar.Schema.Path

/-!
# Places in a schema

What a schema declares at the end of a path: the text that names the column there, and its type. A
path that leads nowhere is refused with the first step that cannot be taken.
-/

namespace Columnar

namespace Schema

/-- The column that an index points at, by the position that the index stands for. -/
def lookup (schema : Schema) (index : ColumnIndex) : Except Mismatch Column := do
  let position ← schema.position index
  schema.column position

/-- The column that an index points at, column by column. -/
def find? : Schema → ColumnIndex → Option Column
  | .nil, _ => none
  | .cons name type rest, .name sought =>
      if name = sought then some ⟨name, type⟩ else rest.find? (.name sought)
  | .cons name type _, .position 0 => some ⟨name, type⟩
  | .cons _ _ rest, .position (position + 1) => rest.find? (.position position)

private theorem find?_position : ∀ (schema : Schema) (position : Nat),
    schema.find? (.position position) = schema.get? position
  | .nil, _ => rfl
  | .cons _ _ _, 0 => rfl
  | .cons _ _ rest, position + 1 => find?_position rest position

private theorem find?_name : ∀ (schema : Schema) (sought : String),
    schema.find? (.name sought) = (schema.positionOf? sought).bind schema.get?
  | .nil, _ => rfl
  | .cons name type rest, sought => by
      rw [find?, positionOf?]
      split
      · rfl
      · rw [find?_name rest sought]
        cases rest.positionOf? sought <;> rfl

/-- A name that has a position has a column there. -/
private theorem get?_positionOf? : ∀ (schema : Schema) {sought : String} {position : Nat},
    schema.positionOf? sought = some position → ∃ column, schema.get? position = some column
  | .nil, _, _, found => nomatch found
  | .cons name type rest, sought, position, found => by
      rw [positionOf?] at found
      split at found
      · obtain rfl := Option.some.inj found
        exact ⟨⟨name, type⟩, rfl⟩
      · obtain ⟨later, below, rfl⟩ := Option.map_eq_some_iff.mp found
        exact get?_positionOf? rest below

/-- Both ways to look for a column agree. An index that points at no column is refused as such. -/
theorem lookup_eq (schema : Schema) (index : ColumnIndex) :
    schema.lookup index =
      match schema.find? index with
      | some column => .ok column
      | none => .error (index.missing schema.length) := by
  cases index with
  | position sought =>
    rw [find?_position]
    simp only [lookup, position, column]
    cases found : schema.get? sought with
    | none => rfl
    | some column =>
      simp only [Except.map, bind, Except.bind, found]
  | name sought =>
    rw [find?_name]
    simp only [lookup, position, resolve]
    cases found : schema.positionOf? sought with
    | none => rfl
    | some position =>
      obtain ⟨present, here⟩ := get?_positionOf? schema found
      simp only [bind, Except.bind, Option.bind, column, here]

/-- A column that is found is looked up. -/
theorem find?_of_lookup {schema : Schema} {index : ColumnIndex} {column : Column}
    (found : schema.lookup index = .ok column) : schema.find? index = some column := by
  rw [lookup_eq] at found
  split at found
  · rename_i here
    cases found
    exact here
  · cases found

/-- What holds of each column of a schema holds of the column that is found. -/
theorem of_find? (each : ColumnType → Prop) (all : Schema → Prop)
    (split : ∀ {name : String} {type : ColumnType} {rest : Schema},
      all (.cons name type rest) → each type ∧ all rest) :
    ∀ {schema : Schema} {index : ColumnIndex} {column : Column}, all schema →
      schema.find? index = some column → each column.type
  | .nil, _, _, _, found => nomatch found
  | .cons _ _ _, .position 0, _, holds, found => by
      obtain rfl := Option.some.inj found
      exact (split holds).1
  | .cons _ _ rest, .position (position + 1), _, holds, found =>
      of_find? each all split (split holds).2 found
  | .cons name _ rest, .name sought, _, holds, found => by
      rw [find?] at found
      split at found
      · obtain rfl := Option.some.inj found
        exact (split holds).1
      · exact of_find? each all split (split holds).2 found

private theorem nodup_of_indexAfter : ∀ {schema : Schema} {index after : NameIndex}
    {position : Nat}, schema.indexAfter index position = .ok after →
    schema.names.Nodup ∧ ∀ name ∈ schema.names, index.lookup name = none
  | .nil, _, _, _, _ => ⟨List.nodup_nil, fun _ member => nomatch member⟩
  | .cons name type rest, index, _, position, entered => by
      obtain ⟨_, fresh, others⟩ := indexAfter_cons_eq_ok_iff.mp entered
      obtain ⟨differ, later⟩ := nodup_of_indexAfter others
      have apart : ∀ other ∈ rest.names, other ≠ name ∧ index.lookup other = none := by
        intro other member
        have absent := later other member
        rw [List.lookup_cons] at absent
        split at absent
        · cases absent
        · rename_i different
          exact ⟨by simpa using different, absent⟩
      refine ⟨List.nodup_cons.mpr ⟨fun again => (apart name again).1 rfl, differ⟩, ?_⟩
      intro other member
      rcases List.mem_cons.mp member with rfl | member
      · exact fresh
      · exact (apart other member).2

/-- The names of the columns of a checked tuple differ. -/
theorem names_nodup_of_check {schema : Schema} (checked : schema.check = .ok ()) :
    schema.names.Nodup := by
  obtain ⟨index, entered⟩ := check_eq_ok_iff.mp checked
  exact (nodup_of_indexAfter entered).1

end Schema

/-- What is declared at a place in a schema. -/
structure Place where
  path : String
  type : ColumnType
  deriving DecidableEq

namespace Place

/-- The row. -/
def ofSchema (schema : Schema) : Place :=
  ⟨"", .tuple schema⟩

/-- The mismatch of taking a place for one of another shape. -/
def wrongKind (place : Place) (requested : Kind) : Mismatch :=
  .wrongKind place.path requested place.type.kind

/-- The place one step below. The entry of an array has the path of the array. -/
def child : Place → Step → Except Mismatch Place
  | ⟨path, .tuple columns⟩, .column index =>
      (columns.lookup index).map fun column => ⟨childPath path column.name, column.type⟩
  | place, .column _ => .error (place.wrongKind .tuple)
  | ⟨path, .array element⟩, .entry => .ok ⟨path, element⟩
  | place, .entry => .error (place.wrongKind .array)

/-- The place at the end of a path. -/
def find (place : Place) : List Step → Except Mismatch Place
  | [] => .ok place
  | step :: rest => do
      let below ← place.child step
      below.find rest

/-- A path is walked part by part. -/
theorem find_append (place : Place) (first second : List Step) :
    place.find (first ++ second) = place.find first >>= fun below => below.find second := by
  induction first generalizing place with
  | nil => rfl
  | cons step rest inductionHypothesis =>
    simp only [List.cons_append, find]
    cases place.child step with
    | error _ => rfl
    | ok below => exact inductionHypothesis below

/-- What the type of a place passes on to its elements and columns holds at the end of every
path. -/
theorem find_induction (holds : ColumnType → Prop)
    (element : ∀ {element : ColumnType}, holds (.array element) → holds element)
    (column : ∀ {columns : Schema} {index : ColumnIndex} {column : Column},
      holds (.tuple columns) → columns.find? index = some column → holds column.type)
    {place below : Place} {path : List Step} (here : holds place.type)
    (leads : place.find path = .ok below) : holds below.type := by
  induction path generalizing place with
  | nil =>
    cases leads
    exact here
  | cons step rest inductionHypothesis =>
    obtain ⟨next, first, leads⟩ := bind_ok_iff.mp leads
    refine inductionHypothesis ?_ leads
    obtain ⟨path, type⟩ := place
    cases step with
    | entry =>
      cases type with
      | array _ =>
        cases first
        exact element here
      | scalar _ => cases first
      | tuple _ => cases first
    | column index =>
      cases type with
      | tuple columns =>
        cases found : columns.lookup index with
        | error _ =>
          rw [child, found] at first
          cases first
        | ok chosen =>
          rw [child, found] at first
          cases first
          exact column here (Schema.find?_of_lookup found)
      | scalar _ => cases first
      | array _ => cases first

/-- No place below one that is not an empty tuple is an empty tuple. -/
theorem solid_find {place below : Place} {path : List Step} (solid : place.type.Solid)
    (leads : place.find path = .ok below) : below.type.Solid :=
  find_induction ColumnType.Solid id
    (fun solid found => Schema.of_find? ColumnType.Solid Schema.Solid id solid.2 found) solid leads

/-- A place below a schema without empty tuples is no empty tuple, unless it is the row of a schema
without columns. -/
theorem solid_find_ofSchema {schema : Schema} (solid : schema.Solid) {path : List Step}
    {below : Place} (leads : (ofSchema schema).find path = .ok below) :
    (schema = .nil ∧ path = []) ∨ below.type.Solid := by
  cases schema with
  | cons name type rest =>
    have whole : (ofSchema (.cons name type rest)).type.Solid := ⟨rfl, solid⟩
    exact .inr (solid_find whole leads)
  | nil =>
    cases path with
    | nil => exact .inl ⟨rfl, rfl⟩
    | cons step rest =>
      cases step with
      | column index => cases index <;> cases leads
      | entry => cases leads

/-- The columns of every tuple in a checked schema pass the check of one tuple. -/
theorem check_find {schema : Schema} (checked : schema.checkAll = .ok ()) {path : List Step}
    {below : Place} (leads : (ofSchema schema).find path = .ok below) {columns : Schema}
    (tuple : below.type = .tuple columns) : columns.check = .ok () := by
  have passed : below.type.checkBelow = .ok () := by
    have here : (ofSchema schema).type.checkBelow = .ok () := checked
    refine find_induction (fun type => type.checkBelow = .ok ()) id ?_ here leads
    intro columns index column passed found
    obtain ⟨_, deeper, _⟩ := bind_ok_iff.mp passed
    refine Schema.of_find? (fun type => type.checkBelow = .ok ())
      (fun schema => schema.checkBelow = .ok ()) ?_ deeper found
    intro name type rest both
    obtain ⟨_, first, later⟩ := bind_ok_iff.mp both
    exact ⟨first, later⟩
  rw [tuple] at passed
  obtain ⟨_, _, here⟩ := bind_ok_iff.mp passed
  exact here

end Place

end Columnar
