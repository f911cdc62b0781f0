import Columnar.Proofs.Draft.Lifetime
import Columnar.Proofs.Draft.Shape
import Columnar.Proofs.Places

/-!
# Columns in their places

Whatever is done to a draft, its columns are those that the schema declares: with the same paths,
names and types, also after the buffers are emptied. So a path leads to a column just if it leads to
a place in the schema, and fails for the same reason.
-/

namespace Columnar

mutual

/-- Whether a column, with all columns below it, is what is declared at a place. -/
def Node.InPlace (path : String) : ColumnType → Node → Prop
  | .scalar type, .scalar own values => own = path ∧ values.type = type
  | .array element, .array own _ _ entry => own = path ∧ entry.InPlace path element
  | .tuple schema, .tuple own _ columns => own = path ∧ columns.InPlace path schema
  | _, _ => False

/-- Whether columns are those that a schema declares below a path. -/
def Nodes.InPlace (parent : String) : Schema → Nodes → Prop
  | .nil, .nil => True
  | .cons name type rest, .cons own node others =>
      own = name ∧ node.InPlace (childPath parent name) type ∧ others.InPlace parent rest
  | _, _ => False

end

mutual

theorem Node.inPlace_holding (capacity : Nat) : ∀ (path : String) (type : ColumnType)
    (saved : List Value) (pending : Pending),
    (Node.holding capacity path type saved pending).InPlace path type
  | _, .scalar type, _, _ => ⟨rfl, by cases type <;> rfl⟩
  | path, .array element, _, pending =>
      ⟨rfl, Node.inPlace_holding capacity path element _ pending.current⟩
  | path, .tuple columns, _, pending =>
      ⟨rfl, Nodes.inPlace_holding capacity path columns _ pending.columns⟩

theorem Nodes.inPlace_holding (capacity : Nat) : ∀ (parent : String) (schema : Schema)
    (rows : List (List Value)) (pendings : List Pending),
    (Nodes.holding capacity parent schema rows pendings).InPlace parent schema
  | _, .nil, _, _ => trivial
  | parent, .cons name type rest, _, pendings =>
      ⟨rfl, Node.inPlace_holding capacity (childPath parent name) type _ _,
        Nodes.inPlace_holding capacity parent rest _ pendings.tail⟩

end

mutual

/-- Emptying the buffers of a column leaves it in its place. -/
theorem Node.InPlace.reset : ∀ {path : String} {type : ColumnType} {node : Node},
    node.InPlace path type → node.reset.InPlace path type
  | _, .scalar _, .scalar _ values, ⟨own, typed⟩ => ⟨own, by rw [← typed]; cases values <;> rfl⟩
  | _, .array _, .array _ _ _ _, ⟨own, below⟩ => ⟨own, Node.InPlace.reset below⟩
  | _, .tuple _, .tuple _ _ _, ⟨own, below⟩ => ⟨own, Nodes.InPlace.reset below⟩

theorem Nodes.InPlace.reset : ∀ {parent : String} {schema : Schema} {columns : Nodes},
    columns.InPlace parent schema → columns.reset.InPlace parent schema
  | _, .nil, .nil, _ => trivial
  | _, .cons _ _ _, .cons _ _ _, ⟨own, first, others⟩ =>
      ⟨own, Node.InPlace.reset first, Nodes.InPlace.reset others⟩

end

mutual

/-- A column in its place has the type that is declared there. -/
theorem Node.InPlace.type_eq : ∀ {path : String} {type : ColumnType} {node : Node},
    node.InPlace path type → node.type = type
  | _, .scalar _, .scalar _ _, ⟨_, typed⟩ => congrArg ColumnType.scalar typed
  | _, .array _, .array _ _ _ _, ⟨_, below⟩ =>
      congrArg ColumnType.array (Node.InPlace.type_eq below)
  | _, .tuple _, .tuple _ _ _, ⟨_, below⟩ =>
      congrArg ColumnType.tuple (Nodes.InPlace.schema_eq below)

/-- Columns in their places have the schema that is declared there. -/
theorem Nodes.InPlace.schema_eq : ∀ {parent : String} {schema : Schema} {columns : Nodes},
    columns.InPlace parent schema → columns.schema = schema
  | _, .nil, .nil, _ => rfl
  | _, .cons _ _ _, .cons _ _ _, ⟨same, first, others⟩ => by
      rw [Nodes.schema, same, Node.InPlace.type_eq first, Nodes.InPlace.schema_eq others]

end

/-! ### Paths -/

/-- An index finds the column that it points at in the schema. -/
theorem Nodes.InPlace.get? {parent : String} {column : Column} : ∀ {schema : Schema}
    {columns : Nodes} {index : ColumnIndex}, columns.InPlace parent schema →
    schema.find? index = some column → ∃ node, columns.get? index = some node ∧
      node.InPlace (childPath parent column.name) column.type
  | .nil, _, _, _, found => nomatch found
  | .cons _ _ _, .nil, _, inPlace, _ => inPlace.elim
  | .cons name type rest, .cons own node others, index, ⟨same, first, later⟩, found => by
      subst same
      cases index with
      | position sought =>
        cases sought with
        | zero =>
          obtain rfl := Option.some.inj found
          exact ⟨node, rfl, first⟩
        | succ sought =>
          have below : rest.find? (.position sought) = some column := found
          obtain ⟨next, here, inPlaceBelow⟩ := Nodes.InPlace.get? later below
          exact ⟨next, here, inPlaceBelow⟩
      | name sought =>
        rw [Schema.find?] at found
        rw [Nodes.get?]
        split at found
        · rename_i here
          obtain rfl := Option.some.inj found
          exact ⟨node, if_pos here, first⟩
        · rename_i other
          rw [if_neg other]
          exact Nodes.InPlace.get? later found

/-- An index that points at no column of the schema finds none. -/
theorem Nodes.InPlace.get?_none {parent : String} : ∀ {schema : Schema} {columns : Nodes}
    {index : ColumnIndex}, columns.InPlace parent schema → schema.find? index = none →
    columns.get? index = none
  | .nil, .nil, _, _, _ => rfl
  | .nil, .cons _ _ _, _, inPlace, _ => inPlace.elim
  | .cons _ _ _, .nil, _, inPlace, _ => inPlace.elim
  | .cons _ _ _, .cons _ _ _, .position 0, _, absent => nomatch absent
  | .cons _ _ rest, .cons _ _ others, .position (position + 1), ⟨_, _, later⟩, absent => by
      have below : rest.find? (.position position) = none := absent
      have lost : others.get? (.position position) = none := Nodes.InPlace.get?_none later below
      exact lost
  | .cons _ _ _, .cons _ _ _, .name sought, ⟨same, _, later⟩, absent => by
      subst same
      rw [Schema.find?] at absent
      split at absent
      · cases absent
      · rename_i other
        rw [Nodes.get?, if_neg other]
        exact Nodes.InPlace.get?_none later absent

theorem Nodes.InPlace.length_eq {parent : String} : ∀ {schema : Schema} {columns : Nodes},
    columns.InPlace parent schema → columns.length = schema.length
  | .nil, .nil, _ => rfl
  | .nil, .cons _ _ _, inPlace => inPlace.elim
  | .cons _ _ _, .nil, inPlace => inPlace.elim
  | .cons _ _ _, .cons _ _ _, ⟨_, _, later⟩ => congrArg (· + 1) (Nodes.InPlace.length_eq later)

namespace Node

variable {node : Node} {place : Place} {path : String}

theorem InPlace.eq_scalar {type : ScalarType} (inPlace : node.InPlace path (.scalar type)) :
    ∃ values, node = .scalar path values ∧ values.type = type := by
  cases node with
  | scalar own values =>
    obtain ⟨rfl, typed⟩ := inPlace
    exact ⟨values, rfl, typed⟩
  | array _ _ _ _ => exact inPlace.elim
  | tuple _ _ _ => exact inPlace.elim

theorem InPlace.eq_array {element : ColumnType} (inPlace : node.InPlace path (.array element)) :
    ∃ slots elements entry, node = .array path slots elements entry ∧
      entry.InPlace path element := by
  cases node with
  | array own slots elements entry =>
    obtain ⟨rfl, below⟩ := inPlace
    exact ⟨slots, elements, entry, rfl, below⟩
  | scalar _ _ => exact inPlace.elim
  | tuple _ _ _ => exact inPlace.elim

theorem InPlace.eq_tuple {schema : Schema} (inPlace : node.InPlace path (.tuple schema)) :
    ∃ count columns, node = .tuple path count columns ∧ columns.InPlace path schema := by
  cases node with
  | tuple own count columns =>
    obtain ⟨rfl, below⟩ := inPlace
    exact ⟨count, columns, rfl, below⟩
  | scalar _ _ => exact inPlace.elim
  | array _ _ _ _ => exact inPlace.elim

/-- A column in its place has the path and the kind that are declared there. -/
theorem InPlace.wrongKind (inPlace : node.InPlace place.path place.type) (requested : Kind) :
    node.wrongKind requested = place.wrongKind requested := by
  obtain ⟨path, type⟩ := place
  cases type <;> cases node <;> first | exact inPlace.elim | (cases inPlace.1; rfl)

/-- The column one step below is in the place one step below. -/
theorem InPlace.child (inPlace : node.InPlace place.path place.type) {step : Step} {below : Place}
    (leads : place.child step = .ok below) :
    ∃ next, node.child step = .ok next ∧ next.InPlace below.path below.type := by
  obtain ⟨path, type⟩ := place
  cases type with
  | scalar _ => cases step <;> cases leads
  | array element =>
    cases step with
    | column _ => cases leads
    | entry =>
      cases leads
      obtain ⟨slots, elements, entry, rfl, below⟩ := InPlace.eq_array inPlace
      exact ⟨entry, rfl, below⟩
  | tuple schema =>
    cases step with
    | entry => cases leads
    | column index =>
      cases found : schema.lookup index with
      | error _ =>
        rw [Place.child, found] at leads
        cases leads
      | ok column =>
        rw [Place.child, found] at leads
        cases leads
        obtain ⟨count, columns, rfl, inside⟩ := InPlace.eq_tuple inPlace
        obtain ⟨next, here, below⟩ := inside.get? (Schema.find?_of_lookup found)
        refine ⟨next, ?_, below⟩
        simp only [Node.child, Node.column, asTuple, bind, Except.bind, here, pure, Except.pure]

/-- A step that cannot be taken in the schema cannot be taken in the columns, for the same
reason. -/
theorem InPlace.child_refused (inPlace : node.InPlace place.path place.type) {step : Step}
    {mismatch : Mismatch} (refused : place.child step = .error mismatch) :
    node.child step = .error mismatch := by
  have wrong := inPlace.wrongKind
  obtain ⟨path, type⟩ := place
  cases step with
  | entry =>
    cases type with
    | array _ => cases refused
    | _ =>
      obtain rfl := Except.error.inj refused
      rw [← wrong]
      cases node <;> first | rfl | exact inPlace.elim
  | column index =>
    cases type with
    | tuple schema =>
      obtain ⟨count, columns, rfl, inside⟩ := InPlace.eq_tuple inPlace
      rw [Place.child, Schema.lookup_eq] at refused
      cases found : schema.find? index with
      | some column =>
        rw [found] at refused
        cases refused
      | none =>
        rw [found] at refused
        obtain rfl := Except.error.inj refused
        have absent := inside.get?_none found
        simp only [Node.child, Node.column, asTuple, bind, Except.bind, absent]
        rw [inside.length_eq]
        rfl
    | _ =>
      obtain rfl := Except.error.inj refused
      rw [← wrong]
      cases node <;> first | rfl | exact inPlace.elim

/-- The column at the end of a path is in the place at its end. -/
theorem InPlace.find (inPlace : node.InPlace place.path place.type) {path : List Step}
    {below : Place} (leads : place.find path = .ok below) :
    ∃ target, node.find path = .ok target ∧ target.InPlace below.path below.type := by
  induction path generalizing node place with
  | nil =>
    cases leads
    exact ⟨node, rfl, inPlace⟩
  | cons step rest inductionHypothesis =>
    obtain ⟨middle, first, leads⟩ := bind_ok_iff.mp leads
    obtain ⟨next, taken, inPlaceBelow⟩ := inPlace.child first
    obtain ⟨target, found, reached⟩ := inductionHypothesis inPlaceBelow leads
    refine ⟨target, ?_, reached⟩
    rw [Node.find, taken]
    exact found

/-- A path that leads nowhere in the schema leads nowhere in the columns, for the same reason. -/
theorem InPlace.find_refused (inPlace : node.InPlace place.path place.type) {path : List Step}
    {mismatch : Mismatch} (refused : place.find path = .error mismatch) :
    node.find path = .error mismatch := by
  induction path generalizing node place with
  | nil => cases refused
  | cons step rest inductionHypothesis =>
    cases taken : place.child step with
    | error cause =>
      rw [Place.find, taken] at refused
      obtain rfl := Except.error.inj refused
      rw [Node.find, inPlace.child_refused taken]
      rfl
    | ok below =>
      rw [Place.find, taken] at refused
      obtain ⟨next, here, inPlaceBelow⟩ := inPlace.child taken
      rw [Node.find, here]
      exact inductionHypothesis inPlaceBelow refused

end Node

/-! ### Runs -/

namespace Draft

variable {schema : Schema} {limits : Limits} {draft : Draft}

private theorem inPlace_draft (schema : Schema) (limits : Limits) (machine : RowMachine) :
    (machine.draft schema limits).columns.InPlace "" schema :=
  Nodes.inPlace_holding limits.bufferBytes "" schema _ _

/-- Every operation leaves the columns of a draft in their places. -/
theorem Reached.inPlace_act (reached : Reached schema limits draft)
    (inPlace : draft.columns.InPlace "" schema) (action : Action) :
    (draft.act action).1.columns.InPlace "" schema := by
  cases reached with
  | ended _ ended _ => rwa [act_ended ended]
  | @written machine sound _ =>
    have written : action.isWrite = true →
        ((machine.draft schema limits).act action).1.columns.InPlace "" schema := by
      intro writes
      rw [(follows_act sound writes).draft]
      exact inPlace_draft schema limits _
    cases action with
    | edit _ _ => exact written rfl
    | save => exact written rfl
    | addRow _ => exact written rfl
    | release => exact Nodes.InPlace.reset inPlace
    | finish =>
      have emptied := (inPlace_draft schema limits (machine.discard schema)).reset
      have writing : (machine.draft schema limits).phase = .writing := rfl
      simp only [Draft.act, finish, writing, discardRow_draft]
      split
      · exact emptied
      · exact emptied

private theorem Reached.inPlace_run (reached : Reached schema limits draft)
    (inPlace : draft.columns.InPlace "" schema) (actions : List Action) :
    (draft.run actions).columns.InPlace "" schema := by
  induction actions generalizing draft with
  | nil => exact inPlace
  | cons action rest inductionHypothesis =>
    exact inductionHypothesis (reached.act action) (reached.inPlace_act inPlace action)

/-- After any operations the row of a draft and the columns below it are in their places. -/
theorem inPlace_run (schema : Schema) (limits : Limits) (actions : List Action) :
    ((ofSchema schema limits).run actions).root.InPlace "" (.tuple schema) := by
  refine ⟨rfl, (reached_run schema limits []).inPlace_run ?_ actions⟩
  change (ofSchema schema limits).columns.InPlace "" schema
  rw [ofSchema_eq_draft]
  exact inPlace_draft schema limits _

end Draft

end Columnar
