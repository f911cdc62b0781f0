import Columnar.Draft.Edit
import Columnar.Proofs.Row.Machine

/-!
# Edits that change nothing

Behind a closed gate no edit changes anything. With an open gate a scalar or the end of an element
is refused either for lack of room or before anything is changed; only a whole value may be refused
in the middle.
-/

namespace Columnar

/-! ### Behind a closed gate -/

/-- Whether an outcome leaves what there was before, and is no refusal for lack of room. -/
structure Untouched {State : Type} (before : State) (outcome : State × Option Refusal) : Prop where
  same : outcome.1 = before
  hasRoom : ∀ refusal, outcome.2 = some refusal → refusal.isShortage = false

variable {gate : Refusal}

private theorem untouched_refused {State : Type} {before : State} {refusal : Refusal}
    (other : refusal.isShortage = false) : Untouched before (before, some refusal) where
  same := rfl
  hasRoom := by
    intro found isFound
    obtain rfl := Option.some.inj isFound
    exact other

private theorem untouched_accepted {State : Type} (before : State) :
    Untouched before (before, none) where
  same := rfl
  hasRoom := fun _ found => nomatch found

/-- A scalar accepts no value behind a closed gate. -/
private theorem put_closed_scalar (value : Value) (position : Nat) {node : Node}
    (isScalar : node.isScalar = true) : (Node.put (some gate) value position node).2 ≠ none := by
  cases node with
  | scalar _ _ => cases value <;> simp [Node.put, ScalarBuffer.write]
  | array _ _ _ _ => cases isScalar
  | tuple _ _ _ => cases isScalar

mutual

/-- Behind a closed gate no value is written. -/
theorem Node.untouched_put (closed : gate.isShortage = false) : ∀ (value : Value) (position : Nat)
    (node : Node), Untouched node (Node.put (some gate) value position node)
  | .scalar _, _, .scalar _ _ => untouched_refused closed
  | .array items, _, .array path slots elements entry => by
      obtain ⟨kept, same, other⟩ := Node.untouched_putElements closed items elements entry
      simp only [Node.put]
      exact ⟨by rw [kept, same], other⟩
  | .tuple items, position, .tuple path count columns => by
      have below := Nodes.untouched_put closed items position columns
      simp only [Node.put]
      split
      · exact untouched_refused rfl
      · exact ⟨congrArg (Node.tuple path count) below.same, below.hasRoom⟩
  | .scalar _, _, .array _ _ _ _ | .scalar _, _, .tuple _ _ _
  | .array _, _, .scalar _ _ | .array _, _, .tuple _ _ _
  | .tuple _, _, .scalar _ _ | .tuple _, _, .array _ _ _ _ => untouched_refused rfl

/-- Behind a closed gate no element is written. -/
theorem Node.untouched_putElements (closed : gate.isShortage = false) : ∀ (items : List Value)
    (elements : Nat) (entry : Node),
    (Node.putElements (some gate) items elements entry).1 = elements ∧
      Untouched entry (Node.putElements (some gate) items elements entry).2
  | [], _, entry => ⟨rfl, untouched_accepted entry⟩
  | item :: rest, elements, entry => by
      have first := Node.untouched_put closed item elements entry
      have scalarRefused : entry.isScalar = true →
          (Node.put (some gate) item elements entry).2 ≠ none := put_closed_scalar item elements
      simp only [Node.putElements]
      generalize Node.put (some gate) item elements entry = outcome at first scalarRefused ⊢
      obtain ⟨after, refusal⟩ := outcome
      obtain ⟨same, other⟩ := first
      simp only at same
      subst same
      cases refusal with
      | some refusal => exact ⟨rfl, rfl, other⟩
      | none =>
        have composite : after.isScalar = false := by
          simpa using fun isScalar => scalarRefused isScalar rfl
        simp only [Node.saveElement, Node.elementsAfter, composite]
        exact ⟨rfl, untouched_refused closed⟩

/-- Behind a closed gate no row is written. -/
theorem Nodes.untouched_put (closed : gate.isShortage = false) : ∀ (items : List Value)
    (position : Nat) (columns : Nodes),
    Untouched columns (Nodes.put (some gate) items position columns)
  | [], _, columns => untouched_accepted columns
  | _ :: _, _, .nil => untouched_accepted Nodes.nil
  | item :: items, position, .cons name node rest => by
      have first := Node.untouched_put closed item position node
      have others := Nodes.untouched_put closed items position rest
      simp only [Nodes.put]
      generalize Node.put (some gate) item position node = outcome at first ⊢
      obtain ⟨after, refusal⟩ := outcome
      obtain ⟨same, other⟩ := first
      simp only at same
      subst same
      cases refusal with
      | some refusal => exact ⟨rfl, other⟩
      | none => exact ⟨congrArg (Nodes.cons name after) others.same, others.hasRoom⟩

end

private theorem untouched_editHere (closed : gate.isShortage = false) (change : Edit)
    (position : Nat) (node : Node) :
    Untouched node (Node.editHere (some gate) change position node) := by
  cases change with
  | put value => exact Node.untouched_put closed value position node
  | set value =>
    cases node with
    | scalar _ _ => exact untouched_refused closed
    | array _ _ _ _ => exact untouched_refused rfl
    | tuple _ _ _ => exact untouched_refused rfl
  | saveElement =>
    cases node with
    | array _ _ _ _ => exact untouched_refused closed
    | scalar _ _ => exact untouched_refused rfl
    | tuple _ _ _ => exact untouched_refused rfl

/-- An update either finds no column or changes just one. -/
private theorem update_cases (change : Node → Node × Option Refusal) (missing : Mismatch) :
    ∀ (columns : Nodes) (index : ColumnIndex),
      columns.update change missing index = (columns, some (.mismatch missing)) ∨
        ∃ (rebuild : Node → Nodes) (node : Node), rebuild node = columns ∧
          columns.update change missing index = (rebuild (change node).1, (change node).2)
  | .nil, index => by
      left
      cases index <;> rfl
  | .cons name node rest, .position 0 => .inr ⟨fun node => .cons name node rest, node, rfl, rfl⟩
  | .cons name node rest, .position (position + 1) => by
      rcases update_cases change missing rest (.position position) with
        absent | ⟨rebuild, inner, rfl, changed⟩
      · exact .inl (by rw [Nodes.update, absent])
      · exact .inr ⟨fun inner => .cons name node (rebuild inner), inner, rfl,
          by rw [Nodes.update, changed]⟩
  | .cons name node rest, .name sought => by
      by_cases found : name = sought
      · exact .inr ⟨fun node => .cons name node rest, node, rfl, by rw [Nodes.update, if_pos found]⟩
      · rcases update_cases change missing rest (.name sought) with
          absent | ⟨rebuild, inner, rfl, changed⟩
        · exact .inl (by rw [Nodes.update, if_neg found, absent])
        · exact .inr ⟨fun inner => .cons name node (rebuild inner), inner, rfl,
            by rw [Nodes.update, if_neg found, changed]⟩

private theorem untouched_update {change : Node → Node × Option Refusal}
    (untouched : ∀ node, Untouched node (change node)) (missing : Mismatch) (columns : Nodes)
    (index : ColumnIndex) : Untouched columns (columns.update change missing index) := by
  rcases update_cases change missing columns index with absent | ⟨rebuild, node, rfl, changed⟩
  · rw [absent]
    exact untouched_refused rfl
  · rw [changed]
    exact ⟨congrArg rebuild (untouched node).same, (untouched node).hasRoom⟩

private theorem edit_closed_scalar (change : Edit) (steps : List Step) (position : Nat)
    {node : Node} (isScalar : node.isScalar = true) :
    (Node.edit (some gate) change steps position node).2 ≠ none := by
  cases node with
  | array _ _ _ _ => cases isScalar
  | tuple _ _ _ => cases isScalar
  | scalar path values =>
    cases steps with
    | cons step _ => cases step <;> simp [Node.edit]
    | nil =>
      cases change with
      | put value => exact put_closed_scalar value position rfl
      | set value => simp [Node.edit, Node.editHere, ScalarBuffer.write]
      | saveElement => simp [Node.edit, Node.editHere]

/-- Behind a closed gate no edit changes anything, wherever it leads. -/
theorem Node.untouched_edit (closed : gate.isShortage = false) (change : Edit)
    (steps : List Step) (position : Nat) (node : Node) :
    Untouched node (Node.edit (some gate) change steps position node) := by
  induction steps generalizing position node with
  | nil => exact untouched_editHere closed change position node
  | cons step steps inductionHypothesis =>
    cases step with
    | column index =>
      cases node with
      | tuple path count columns =>
        have below := untouched_update (inductionHypothesis position)
          (index.missing columns.length) columns index
        exact ⟨congrArg (Node.tuple path count) below.same, below.hasRoom⟩
      | scalar _ _ => exact untouched_refused rfl
      | array _ _ _ _ => exact untouched_refused rfl
    | entry =>
      cases node with
      | array path slots elements entry =>
        have below := inductionHypothesis elements entry
        have scalarRefused : entry.isScalar = true →
            (Node.edit (some gate) change steps elements entry).2 ≠ none :=
          edit_closed_scalar change steps elements
        simp only [Node.edit]
        generalize Node.edit (some gate) change steps elements entry = outcome
          at below scalarRefused ⊢
        obtain ⟨after, refusal⟩ := outcome
        obtain ⟨same, other⟩ := below
        simp only at same
        subst same
        -- Only an accepted scalar counts as an element, and the gate accepts none.
        have counted : Node.elementsAfter elements after refusal = elements := by
          unfold Node.elementsAfter
          rw [if_neg]
          intro both
          rw [Bool.and_eq_true] at both
          exact scalarRefused both.1 (Option.isNone_iff_eq_none.mp both.2)
        exact ⟨by rw [counted], other⟩
      | scalar _ _ => exact untouched_refused rfl
      | tuple _ _ _ => exact untouched_refused rfl

/-! ### Refused for another reason than lack of room -/

/-- Whether an outcome leaves what there was before, if it is a refusal for another reason than lack
of room. -/
def Untorn {State : Type} (before : State) (outcome : State × Option Refusal) : Prop :=
  ∀ refusal, outcome.2 = some refusal → refusal.isShortage = false → outcome.1 = before

private theorem untorn_refused {State : Type} (before : State) (refusal : Option Refusal) :
    Untorn before (before, refusal) :=
  fun _ _ _ => rfl

mutual

/-- A commit is refused for lack of room only. -/
theorem Node.isShortage_commit : ∀ (node : Node) (slot : Nat) (refusal : Refusal),
    (node.commit slot).2 = some refusal → refusal.isShortage = true
  | .scalar _ values, slot, refusal, found => by
      simp only [Node.commit, Option.map_eq_some_iff] at found
      obtain ⟨shortage, _, rfl⟩ := found
      rfl
  | .array _ slots elements _, slot, refusal, found => by
      simp only [Node.commit, Option.map_eq_some_iff] at found
      obtain ⟨shortage, _, rfl⟩ := found
      rfl
  | .tuple _ _ columns, slot, refusal, found => by
      have below := Nodes.isShortage_commit columns slot refusal
      simp only [Node.commit] at found
      generalize columns.commit slot = outcome at found below
      obtain ⟨after, answer⟩ := outcome
      cases answer with
      | none => cases found
      | some other => exact below found

/-- A commit of columns is refused for lack of room only. -/
theorem Nodes.isShortage_commit : ∀ (columns : Nodes) (slot : Nat) (refusal : Refusal),
    (columns.commit slot).2 = some refusal → refusal.isShortage = true
  | .nil, _, _, found => nomatch found
  | .cons _ node rest, slot, refusal, found => by
      have head := Node.isShortage_commit node slot refusal
      have later := Nodes.isShortage_commit rest slot refusal
      simp only [Nodes.commit] at found
      generalize node.commit slot = outcome at found head
      obtain ⟨after, answer⟩ := outcome
      cases answer with
      | none => exact later found
      | some other => exact head found

end

private theorem ScalarBuffer.set_wrongType {buffer : ScalarBuffer} {index : Nat} {value : Scalar}
    {held given : ScalarType}
    (refused : (buffer.set index value).2 = some (.wrongType held given)) :
    (buffer.set index value).1 = buffer := by
  cases buffer <;> cases value <;> simp [set] at refused ⊢

private theorem untorn_set (gate : Option Refusal) (value : Scalar) (position : Nat) (node : Node) :
    Untorn node (Node.editHere gate (.set value) position node) := by
  cases node with
  | array _ _ _ _ => exact untorn_refused _ _
  | tuple _ _ _ => exact untorn_refused _ _
  | scalar path values =>
    cases gate with
    | some gate => exact untorn_refused _ _
    | none =>
      intro refusal found other
      simp only [Node.editHere, ScalarBuffer.write, Option.map_eq_some_iff] at found ⊢
      obtain ⟨error, failed, rfl⟩ := found
      cases error with
      | shortage _ => cases other
      | wrongType held given => rw [ScalarBuffer.set_wrongType failed]

private theorem untorn_saveElement (gate : Option Refusal) (position : Nat) (node : Node) :
    Untorn node (Node.editHere gate .saveElement position node) := by
  cases node with
  | scalar _ _ => exact untorn_refused _ _
  | tuple _ _ _ => exact untorn_refused _ _
  | array path slots elements entry =>
    cases gate with
    | some gate => exact untorn_refused _ _
    | none =>
      intro refusal found other
      have short := Node.isShortage_commit entry elements refusal
      simp only [Node.editHere, Node.saveElement] at found ⊢
      cases isScalar : entry.isScalar with
      | true => simp [isScalar] at found
      | false =>
        simp only [isScalar, Bool.false_eq_true, if_false] at found ⊢
        generalize entry.commit elements = outcome at found short ⊢
        obtain ⟨after, answer⟩ := outcome
        cases answer with
        | none => simp at found
        | some refused => simp [short found] at other

private theorem untorn_update {change : Node → Node × Option Refusal}
    (untorn : ∀ node, Untorn node (change node)) (missing : Mismatch) (columns : Nodes)
    (index : ColumnIndex) : Untorn columns (columns.update change missing index) := by
  rcases update_cases change missing columns index with absent | ⟨rebuild, node, rfl, changed⟩
  · rw [absent]
    exact untorn_refused _ _
  · rw [changed]
    exact fun refusal found other => congrArg rebuild (untorn node refusal found other)

/-- An edit other than of a whole value changes nothing when it is refused for another reason than
lack of room. -/
theorem Node.untorn_edit {change : Edit} (partly : ∀ value, change ≠ .put value)
    (gate : Option Refusal) (steps : List Step) (position : Nat) (node : Node) :
    Untorn node (Node.edit gate change steps position node) := by
  induction steps generalizing position node with
  | nil =>
    cases change with
    | put value => exact absurd rfl (partly value)
    | set value => exact untorn_set gate value position node
    | saveElement => exact untorn_saveElement gate position node
  | cons step steps inductionHypothesis =>
    cases step with
    | column index =>
      cases node with
      | tuple path count columns =>
        have below := untorn_update (inductionHypothesis position)
          (index.missing columns.length) columns index
        exact fun refusal found other =>
          congrArg (Node.tuple path count) (below refusal found other)
      | scalar _ _ => exact untorn_refused _ _
      | array _ _ _ _ => exact untorn_refused _ _
    | entry =>
      cases node with
      | array path slots elements entry =>
        intro refusal found other
        have same := inductionHypothesis elements entry refusal found other
        simp only [Node.edit] at found ⊢
        rw [same, found]
        simp [Node.elementsAfter]
      | scalar _ _ => exact untorn_refused _ _
      | tuple _ _ _ => exact untorn_refused _ _

end Columnar
