import Columnar.Draft.Basic
import Columnar.Proofs.Row.Machine

/-!
# How an operation ends

An operation that ends with a refusal answers with it, and one that ends without is accepted. The
draft stays as the operation left it, unless a buffer ran short: then the row in progress is
dropped. The number of rows is the same in any case.
-/

namespace Columnar

/-- The answer of an operation that ends with a refusal or without one. -/
def answer : Option Refusal → Except Refusal Unit
  | none => .ok ()
  | some refusal => .error refusal

theorem answer_eq_ok {refusal : Option Refusal} : answer refusal = .ok () ↔ refusal = none := by
  cases refusal <;> simp [answer]

theorem isOk_answer (refusal : Option Refusal) : (answer refusal).isOk = refusal.isNone := by
  cases refusal <;> rfl

/-- An edit of a tuple leaves its path and its count. -/
theorem Node.edit_tuple (gate : Option Refusal) (change : Edit) (steps : List Step)
    (position : Nat) (path : String) (count : Nat) (columns : Nodes) :
    ∃ after, (Node.edit gate change steps position (.tuple path count columns)).1 =
      .tuple path count after := by
  cases steps with
  | nil =>
    cases change with
    | set _ => exact ⟨columns, rfl⟩
    | saveElement => exact ⟨columns, rfl⟩
    | put value =>
      cases value with
      | scalar _ => exact ⟨columns, rfl⟩
      | array _ => exact ⟨columns, rfl⟩
      | tuple items =>
        simp only [Node.edit, Node.editHere, Node.put]
        split
        · exact ⟨columns, rfl⟩
        · exact ⟨_, rfl⟩
  | cons step rest =>
    cases step with
    | column index => exact ⟨_, rfl⟩
    | entry => exact ⟨columns, rfl⟩

namespace Draft

theorem result_settle (draft : Draft) (refusal : Option Refusal) :
    (draft.settle refusal).2.result = answer refusal := by
  cases refusal with
  | none => rfl
  | some refusal =>
    cases refusal with
    | overflow overflow => cases overflow <;> rfl
    | _ => rfl

/-- An operation for which no buffer ran short ends with the draft as it is. -/
theorem settle_hasRoom {draft : Draft} {refusal : Option Refusal}
    (hasRoom : ranShort (answer refusal) = false) :
    draft.settle refusal = (draft, ⟨answer refusal, []⟩) := by
  cases refusal with
  | none => rfl
  | some refusal =>
    cases refusal with
    | overflow overflow =>
      cases overflow with
      | rowLimit _ => rfl
      | buffer _ _ _ => cases hasRoom
    | _ => rfl

/-- A refused operation answers with its refusal. -/
theorem settle_refusal (draft : Draft) (refusal : Refusal) :
    ∃ after events, draft.settle (some refusal) = (after, ⟨.error refusal, events⟩) := by
  cases refusal with
  | overflow overflow => cases overflow <;> exact ⟨_, _, rfl⟩
  | _ => exact ⟨_, _, rfl⟩

/-- Whether what became of a draft has the same number of rows under the same limits. -/
structure SameRow (before after : Draft) : Prop where
  row : after.row = before.row
  limits : after.limits = before.limits

theorem sameRow_settle (draft : Draft) (refusal : Option Refusal) :
    SameRow draft (draft.settle refusal).1 := by
  cases refusal with
  | none => exact ⟨rfl, rfl⟩
  | some refusal =>
    cases refusal with
    | overflow overflow => cases overflow <;> exact ⟨rfl, rfl⟩
    | _ => exact ⟨rfl, rfl⟩

/-- The draft with the columns that an edit of its row leaves, before the operation ends. -/
def edited (draft : Draft) (steps : List Step) (change : Columnar.Edit) : Draft :=
  { draft with columns := (draft.root.edit draft.gate? change steps draft.row).1.columns }

theorem edit_eq_settle (draft : Draft) (steps : List Step) (change : Columnar.Edit) :
    draft.edit steps change =
      (draft.edited steps change).settle
        (draft.root.edit draft.gate? change steps draft.row).2 := by
  cases draft
  rfl

/-- The row tuple of an edited draft is the edited row tuple. -/
theorem root_edited (draft : Draft) (steps : List Step) (change : Columnar.Edit) :
    (draft.edited steps change).root =
      (draft.root.edit draft.gate? change steps draft.row).1 := by
  obtain ⟨after, changed⟩ :=
    Node.edit_tuple draft.gate? change steps draft.row "" draft.row draft.columns
  simp only [edited, root, changed, Node.columns]

theorem result_edit (draft : Draft) (steps : List Step) (change : Columnar.Edit) :
    (draft.edit steps change).2.result =
      answer (draft.root.edit draft.gate? change steps draft.row).2 := by
  rw [edit_eq_settle, result_settle]

/-- An edit for which no buffer ran short ends with the draft that it leaves. -/
theorem edit_hasRoom {draft : Draft} {steps : List Step} {change : Columnar.Edit}
    (hasRoom : ranShort (draft.edit steps change).2.result = false) :
    draft.edit steps change =
      (draft.edited steps change, ⟨(draft.edit steps change).2.result, []⟩) := by
  rw [result_edit] at hasRoom ⊢
  rw [edit_eq_settle, settle_hasRoom hasRoom]

end Draft

end Columnar
