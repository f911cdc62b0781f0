import Columnar.Proofs.Draft.Independence
import Columnar.Proofs.Draft.SavePoint

/-!
# Whole values

Writing a whole value comes to writing its scalars one by one and saving every element of its
arrays, up to the first of these edits that is refused.
-/

namespace Columnar

/-- A single edit with the path to it from further above. -/
def beyond (steps : List Step) (single : List Step × Edit) : List Step × Edit :=
  (steps ++ single.1, single.2)

theorem map_beyond_nil (singles : List (List Step × Edit)) : singles.map (beyond []) = singles :=
  List.map_id singles

theorem map_beyond_cons (step : Step) (steps : List Step) (singles : List (List Step × Edit)) :
    singles.map (beyond (step :: steps)) = (singles.map (beyond steps)).map (beyond [step]) := by
  rw [List.map_map]
  rfl

mutual

/-- The single edits that write a value into a column of a type, each with the path to it from the
column. A value of another shape than the column is one edit that is refused. -/
def Value.singles : Value → ColumnType → List (List Step × Edit)
  | .scalar value, _ => [([], .set value)]
  | .array items, .array element => Value.elementSingles items element
  | .array _, _ => [([], .saveElement)]
  | .tuple items, .tuple columns =>
      if columns.length < items.length then
        [([.column (.position columns.length)], .saveElement)]
      else Value.columnSingles items columns 0
  | .tuple _, _ => [([.column (.position 0)], .saveElement)]

/-- The single edits that write values as elements of an array. -/
def Value.elementSingles : List Value → ColumnType → List (List Step × Edit)
  | [], _ => []
  | item :: rest, element =>
      (item.singles element).map (beyond [.entry]) ++
        ([], .saveElement) :: Value.elementSingles rest element

/-- The single edits that write values into columns of a tuple, the first of them into the column
at `position`. -/
def Value.columnSingles : List Value → Schema → Nat → List (List Step × Edit)
  | item :: items, .cons _ type rest, position =>
      (item.singles type).map (beyond [.column (.position position)]) ++
        Value.columnSingles items rest (position + 1)
  | _, _, _ => []

end

/-- Does single edits one after the other, up to the first that is refused. -/
def Node.editEach (gate : Option Refusal) (position : Nat) :
    List (List Step × Edit) → Node → Node × Option Refusal
  | [], node => (node, none)
  | single :: rest, node =>
      match node.edit gate single.2 single.1 position with
      | (node, some refusal) => (node, some refusal)
      | (node, none) => node.editEach gate position rest

namespace Nodes

/-- Columns with others behind them. -/
def append : Nodes → Nodes → Nodes
  | .nil, others => others
  | .cons name node rest, others => .cons name node (rest.append others)

variable {name : String} {node : Node} {rest : Nodes}

theorem resolve?_append : ∀ front : Nodes,
    (front.append (.cons name node rest)).resolve? (.position front.length) = some front.length
  | .nil => rfl
  | .cons _ _ more => by
      rw [append, length, resolve?, resolve?_append more]
      rfl

theorem get?_append : ∀ front : Nodes,
    (front.append (.cons name node rest)).get? (.position front.length) = some node
  | .nil => rfl
  | .cons _ _ more => get?_append more

theorem replace_append (other : Node) : ∀ front : Nodes,
    (front.append (.cons name node rest)).replace front.length other =
      front.append (.cons name other rest)
  | .nil => rfl
  | .cons first leading more => congrArg (cons first leading) (replace_append other more)

theorem append_cons : ∀ front : Nodes,
    front.append (.cons name node rest) = (front.append (.cons name node .nil)).append rest
  | .nil => rfl
  | .cons first leading more => congrArg (cons first leading) (append_cons more)

/-- No column is at the position after the last. -/
theorem update_length (change : Node → Node × Option Refusal) (missing : Mismatch) :
    ∀ columns : Nodes, columns.update change missing (.position columns.length) =
      (columns, some (.mismatch missing))
  | .nil => rfl
  | .cons _ _ rest => by
      rw [length, update, update_length change missing rest]

theorem length_append_cons : ∀ front : Nodes,
    (front.append (.cons name node .nil)).length = front.length + 1
  | .nil => rfl
  | .cons _ _ more => congrArg (· + 1) (length_append_cons more)

end Nodes

namespace Node

variable (gate : Option Refusal) (position : Nat)

theorem editEach_append (first second : List (List Step × Edit)) (node : Node) :
    node.editEach gate position (first ++ second) =
      match node.editEach gate position first with
      | (node, some refusal) => (node, some refusal)
      | (node, none) => node.editEach gate position second := by
  induction first generalizing node with
  | nil => rfl
  | cons single rest inductionHypothesis =>
    simp only [List.cons_append, editEach]
    generalize node.edit gate single.2 single.1 position = outcome
    obtain ⟨after, refusal⟩ := outcome
    cases refusal with
    | some _ => rfl
    | none => exact inductionHypothesis after

theorem editEach_singleton (single : List Step × Edit) (node : Node) :
    node.editEach gate position [single] = node.edit gate single.2 single.1 position := by
  simp only [editEach]
  generalize node.edit gate single.2 single.1 position = outcome
  obtain ⟨after, refusal⟩ := outcome
  cases refusal <;> rfl

/-- Single edits below one column of a tuple are done in that column. -/
theorem editEach_column {path : String} {count : Nat} {columns : Nodes} {index : ColumnIndex}
    {chosen : Nat} {child : Node} (resolved : columns.resolve? index = some chosen)
    (found : columns.get? index = some child) (singles : List (List Step × Edit)) :
    (Node.tuple path count columns).editEach gate position
        (singles.map (beyond [.column index])) =
      (.tuple path count (columns.replace chosen (child.editEach gate position singles).1),
        (child.editEach gate position singles).2) := by
  induction singles generalizing columns child with
  | nil => rw [List.map_nil, editEach, editEach, Nodes.replace_self columns resolved found]
  | cons single rest inductionHypothesis =>
    simp only [List.map_cons, editEach, beyond, List.singleton_append, edit_column resolved found]
    generalize child.edit gate single.2 single.1 position = outcome
    obtain ⟨after, refusal⟩ := outcome
    cases refusal with
    | some _ => rfl
    | none =>
      have later := inductionHypothesis
        ((columns.resolve?_replace chosen after index).trans resolved)
        (columns.get?_replace_self after resolved)
      rw [Nodes.replace_replace] at later
      exact later

/-- Single edits below an array are done in its entry. A scalar entry takes one of them only, since
the next one would be another element. -/
theorem editEach_entry {path : String} {slots : Slots} {elements : Nat} {entry : Node}
    (singles : List (List Step × Edit)) (once : entry.isScalar = true → singles.length = 1) :
    (Node.array path slots elements entry).editEach gate position (singles.map (beyond [.entry])) =
      (.array path slots
          (elementsAfter elements (entry.editEach gate elements singles).1
            (entry.editEach gate elements singles).2)
          (entry.editEach gate elements singles).1,
        (entry.editEach gate elements singles).2) := by
  cases isScalar : entry.isScalar with
  | true =>
    obtain ⟨single, rfl⟩ := List.length_eq_one_iff.mp (once isScalar)
    rw [List.map_singleton, editEach_singleton, editEach_singleton]
    rfl
  | false =>
    clear once
    induction singles generalizing entry with
    | nil =>
      rw [List.map_nil, editEach, editEach, elementsAfter_of_composite isScalar]
    | cons single rest inductionHypothesis =>
      have kept := (isScalar_edit gate single.2 single.1 elements entry).trans isScalar
      simp only [List.map_cons, editEach, beyond, List.singleton_append, Node.edit]
      generalize entry.edit gate single.2 single.1 elements = outcome at kept ⊢
      obtain ⟨after, refusal⟩ := outcome
      simp only [elementsAfter_of_composite kept]
      cases refusal with
      | some _ => rw [elementsAfter_of_composite kept]
      | none => exact inductionHypothesis kept

end Node

/-- A value is written into a scalar column by one edit. -/
theorem Value.length_singles {type : ColumnType} (isScalar : type.isScalar = true)
    (value : Value) : (value.singles type).length = 1 := by
  cases type with
  | array _ => cases isScalar
  | tuple _ => cases isScalar
  | scalar _ => cases value <;> rfl

mutual

/-- Writing a value does its single edits. -/
theorem Node.put_eq_editEach (gate : Option Refusal) : ∀ (value : Value) (position : Nat)
    (node : Node),
    node.put gate value position = node.editEach gate position (value.singles node.type)
  | .scalar value, position, .scalar path values => by
      rw [Value.singles, Node.editEach_singleton]
      rfl
  | .array items, position, .array path slots elements entry =>
      Node.putElements_eq_editEach gate items position path slots elements entry
  | .tuple items, position, .tuple path count columns => by
      simp only [Node.put, Node.type, Value.singles, Nodes.length_schema]
      split
      · rw [Node.editEach_singleton, Node.edit, Nodes.update_length]
        rfl
      · exact Nodes.put_eq_editEach gate items position path count .nil columns
  | .scalar _, _, .array _ _ _ _ | .scalar _, _, .tuple _ _ _
  | .array _, _, .scalar _ _ | .array _, _, .tuple _ _ _
  | .tuple _, _, .scalar _ _ | .tuple _, _, .array _ _ _ _ => rfl

/-- Writing elements does their single edits. -/
theorem Node.putElements_eq_editEach (gate : Option Refusal) : ∀ (items : List Value)
    (position : Nat) (path : String) (slots : Slots) (elements : Nat) (entry : Node),
    Node.put gate (.array items) position (.array path slots elements entry) =
      (Node.array path slots elements entry).editEach gate position
        (Value.elementSingles items entry.type)
  | [], _, _, _, _, _ => rfl
  | item :: rest, position, path, slots, elements, entry => by
      have first := Node.put_eq_editEach gate item elements entry
      have kept := Node.type_put gate item elements entry
      have once : entry.isScalar = true → (item.singles entry.type).length = 1 := fun isScalar =>
        Value.length_singles ((Node.isScalar_type entry).trans isScalar) item
      rw [Value.elementSingles, Node.editEach_append, Node.editEach_entry gate position _ once,
        ← first]
      simp only [Node.put, Node.putElements]
      generalize entry.put gate item elements = outcome at kept ⊢
      obtain ⟨written, refusal⟩ := outcome
      cases refusal with
      | some refusal =>
        have unchanged : Node.elementsAfter elements written (some refusal) = elements := by
          simp [Node.elementsAfter]
        simp only [unchanged]
      | none =>
        have closed := (Node.type_saveElement gate (Node.elementsAfter elements written none)
          written).trans kept
        simp only [Node.editEach, Node.edit, Node.editHere]
        generalize Node.saveElement gate (Node.elementsAfter elements written none) written =
          outcome at closed ⊢
        obtain ⟨after, saved, refusal⟩ := outcome
        cases refusal with
        | some _ => rfl
        | none =>
          have later := Node.putElements_eq_editEach gate rest position path slots after saved
          rw [closed] at later
          exact later

/-- Writing into the columns of a tuple, from the first one behind some others on, does the single
edits of these. -/
theorem Nodes.put_eq_editEach (gate : Option Refusal) : ∀ (items : List Value) (position : Nat)
    (path : String) (count : Nat) (front columns : Nodes),
    ((Node.tuple path count (front.append (Nodes.put gate items position columns).1)),
        (Nodes.put gate items position columns).2) =
      (Node.tuple path count (front.append columns)).editEach gate position
        (Value.columnSingles items columns.schema front.length)
  | [], _, _, _, _, columns => by cases columns <;> rfl
  | _ :: _, _, _, _, _, .nil => rfl
  | item :: items, position, path, count, front, .cons name node rest => by
      have first := Node.put_eq_editEach gate item position node
      rw [Nodes.schema, Value.columnSingles, Node.editEach_append,
        Node.editEach_column gate position (Nodes.resolve?_append front) (Nodes.get?_append front),
        Nodes.replace_append, ← first]
      simp only [Nodes.put]
      generalize node.put gate item position = outcome
      obtain ⟨written, refusal⟩ := outcome
      cases refusal with
      | some _ => rfl
      | none =>
        have later := Nodes.put_eq_editEach gate items position path count
          (front.append (.cons name written .nil)) rest
        rw [Nodes.length_append_cons, ← Nodes.append_cons, ← Nodes.append_cons] at later
        exact later

end

namespace Node

/-- Writing a value at the end of a path does its single edits there. -/
theorem Leads.put_eq_editEach {node target : Node} {steps address : List Step}
    {position slot : Nat} (leads : node.Leads steps position address slot target)
    (gate : Option Refusal) (value : Value) :
    node.edit gate (.put value) steps position =
      node.editEach gate position ((value.singles target.type).map (beyond steps)) := by
  induction leads with
  | here node position =>
    rw [map_beyond_nil]
    exact Node.put_eq_editEach gate value position node
  | column resolved found deeper inductionHypothesis =>
    rw [map_beyond_cons, editEach_column gate _ resolved found, ← inductionHypothesis,
      edit_column resolved found]
  | @entry path slots elements entry target rest address slot position deeper
      inductionHypothesis =>
    have once : entry.isScalar = true →
        ((value.singles target.type).map (beyond rest)).length = 1 := by
      intro isScalar
      rw [List.length_map]
      cases deeper with
      | here => exact Value.length_singles ((isScalar_type entry).trans isScalar) value
      | column _ _ _ => cases isScalar
      | entry _ _ => cases isScalar
    rw [map_beyond_cons, editEach_entry gate position _ once, ← inductionHypothesis]
    rfl

end Node

/-- Whether an edit writes one scalar or saves one element. -/
def Edit.isSingle : Edit → Bool
  | .set _ | .saveElement => true
  | .put _ => false

mutual

/-- The edits that write a value are single ones. -/
theorem Value.isSingle_singles : ∀ (value : Value) (type : ColumnType),
    ∀ single ∈ value.singles type, single.2.isSingle = true
  | .scalar _, _ => by simp [Value.singles, Edit.isSingle]
  | .array items, .array element => Value.isSingle_elementSingles items element
  | .array _, .scalar _ | .array _, .tuple _ => by simp [Value.singles, Edit.isSingle]
  | .tuple items, .tuple columns => by
      rw [Value.singles]
      split
      · simp [Edit.isSingle]
      · exact Value.isSingle_columnSingles items columns 0
  | .tuple _, .scalar _ | .tuple _, .array _ => by simp [Value.singles, Edit.isSingle]

/-- The edits that write elements are single ones. -/
theorem Value.isSingle_elementSingles : ∀ (items : List Value) (element : ColumnType),
    ∀ single ∈ Value.elementSingles items element, single.2.isSingle = true
  | [], _ => fun _ member => nomatch member
  | item :: rest, element => by
      intro single member
      rw [Value.elementSingles, List.mem_append, List.mem_cons] at member
      rcases member with inItem | rfl | later
      · obtain ⟨inner, memberInner, rfl⟩ := List.mem_map.mp inItem
        exact Value.isSingle_singles item element inner memberInner
      · rfl
      · exact Value.isSingle_elementSingles rest element single later

/-- The edits that write into columns are single ones. -/
theorem Value.isSingle_columnSingles : ∀ (items : List Value) (schema : Schema) (position : Nat),
    ∀ single ∈ Value.columnSingles items schema position, single.2.isSingle = true
  | [], schema, _ => by cases schema <;> exact fun _ member => nomatch member
  | _ :: _, .nil, _ => fun _ member => nomatch member
  | item :: items, .cons _ type rest, position => by
      intro single member
      rw [Value.columnSingles, List.mem_append] at member
      rcases member with inItem | later
      · obtain ⟨inner, memberInner, rfl⟩ := List.mem_map.mp inItem
        exact Value.isSingle_singles item type inner memberInner
      · exact Value.isSingle_columnSingles items rest (position + 1) single later

end

namespace Draft

/-- Does operations one after the other, up to the first that is refused. -/
def attempt (draft : Draft) : List Action → Draft × Outcome Unit
  | [] => (draft, .accept ())
  | action :: rest =>
      match draft.act action with
      | (draft, ⟨.error refusal, events⟩) => (draft, ⟨.error refusal, events⟩)
      | (draft, ⟨.ok (), events⟩) =>
          let (draft, outcome) := draft.attempt rest
          (draft, ⟨outcome.result, events ++ outcome.events⟩)

/-- What operations that are attempted lead to is what some of the first of them lead to. -/
theorem attempt_eq_run (draft : Draft) (actions : List Action) :
    ∃ done, done <+: actions ∧ (draft.attempt actions).1 = draft.run done := by
  induction actions generalizing draft with
  | nil => exact ⟨[], List.nil_prefix, rfl⟩
  | cons action rest inductionHypothesis =>
    simp only [attempt]
    generalize acted : draft.act action = outcome
    obtain ⟨after, ⟨result, events⟩⟩ := outcome
    have first : draft.run [action] = after := congrArg Prod.fst acted
    cases result with
    | error refusal => exact ⟨[action], List.prefix_append [action] rest, first.symm⟩
    | ok _ =>
      obtain ⟨done, front, ran⟩ := inductionHypothesis after
      refine ⟨action :: done, List.cons_prefix_cons.mpr ⟨rfl, front⟩, ?_⟩
      rw [← List.singleton_append, run_append, first]
      exact ran

/-- Single edits that are attempted are done in the row tuple, and the operation ends once. -/
private theorem attempt_edits (draft : Draft) (singles : List (List Step × Columnar.Edit)) :
    draft.attempt (singles.map fun single => .edit single.1 single.2) =
      settle { draft with
          columns := (draft.root.editEach draft.gate? draft.row singles).1.columns }
        (draft.root.editEach draft.gate? draft.row singles).2 := by
  induction singles generalizing draft with
  | nil => rfl
  | cons single rest inductionHypothesis =>
    have edits := edit_eq_settle draft single.1 single.2
    have later := inductionHypothesis (draft.edited single.1 single.2)
    rw [root_edited] at later
    simp only [List.map_cons, attempt, act, edits, Node.editEach]
    generalize changed : draft.root.edit draft.gate? single.2 single.1 draft.row = outcome
      at later ⊢
    obtain ⟨after, refusal⟩ := outcome
    have sameDraft : draft.edited single.1 single.2 = { draft with columns := after.columns } := by
      rw [edited, changed]
    cases refusal with
    | some refusal =>
      obtain ⟨dropped, events, settled⟩ :=
        settle_refusal (draft.edited single.1 single.2) refusal
      rw [settled, ← sameDraft, settled]
    | none => exact later

/-- The single edits that write a value at the end of a path into a column of a type. -/
def singleEdits (steps : List Step) (value : Value) (type : ColumnType) : List Action :=
  ((value.singles type).map (beyond steps)).map fun single => .edit single.1 single.2

theorem isSingle_singleEdits {steps : List Step} {value : Value} {type : ColumnType}
    {action : Action} (member : action ∈ singleEdits steps value type) :
    action.isSingle = true := by
  obtain ⟨longer, memberLonger, rfl⟩ := List.mem_map.mp member
  obtain ⟨single, memberSingle, rfl⟩ := List.mem_map.mp memberLonger
  have isSingle := Value.isSingle_singles value type single memberSingle
  obtain ⟨path, change⟩ := single
  cases change with
  | set _ => rfl
  | saveElement => rfl
  | put _ => cases isSingle

/-- Writing a whole value attempts its single edits. -/
theorem edit_put_eq_attempt {draft : Draft} {steps address : List Step} {slot : Nat}
    {target : Node} (leads : draft.root.Leads steps draft.row address slot target)
    (value : Value) :
    draft.edit steps (.put value) = draft.attempt (singleEdits steps value target.type) := by
  rw [singleEdits, attempt_edits, edit_eq_settle, edited, leads.put_eq_editEach]

end Draft

end Columnar
