import Columnar.Proofs.Draft.Locality
import Columnar.Proofs.Draft.Settling

/-!
# Edits that do not meet

Edits of a draft reach no further than the columns that they are made for: what else is stored, the
other counts of elements and the row stay, and two edits of columns of which neither lies in the
other give the same draft in either order. Only an edit that meets a lack of room drops the whole
row.
-/

namespace Columnar

namespace Draft

private theorem edited_edited (draft : Draft) (steps other : List Step)
    (change otherChange : Columnar.Edit) :
    (draft.edited steps change).edited other otherChange =
      { draft with
        columns := ((draft.root.edit draft.gate? change steps draft.row).1.edit draft.gate?
          otherChange other draft.row).1.columns } := by
  rw [edited, root_edited]
  rfl

variable {draft : Draft} {steps other address place : List Step} {slot otherSlot : Nat}
  {target before : Node}

/-- Edits that do not meet, with room for both, give the same draft and the same answers in either
order. -/
private theorem edit_comm (leads : draft.root.Leads steps draft.row address slot target)
    (elsewhere : draft.root.Leads other draft.row place otherSlot before)
    (outside : ¬address <+: place) (apart : ¬place <+: address)
    (change otherChange : Columnar.Edit)
    (hasRoom : ranShort (draft.edit steps change).2.result = false)
    (hasRoomAlso : ranShort ((draft.edit steps change).1.edit other otherChange).2.result = false) :
    (draft.edit other otherChange).2 = ((draft.edit steps change).1.edit other otherChange).2 ∧
      (draft.edit other otherChange).1.edit steps change =
        (((draft.edit steps change).1.edit other otherChange).1, (draft.edit steps change).2) := by
  obtain ⟨same, answered, answeredAlso⟩ :=
    leads.edit_comm elsewhere outside apart draft.gate? change otherChange
  have first := edit_hasRoom hasRoom
  rw [first] at hasRoomAlso ⊢
  have second := edit_hasRoom hasRoomAlso
  have secondAnswer : ((draft.edited steps change).edit other otherChange).2.result =
      (draft.edit other otherChange).2.result := by
    rw [result_edit, result_edit, root_edited]
    exact congrArg answer answered
  have early := edit_hasRoom (secondAnswer ▸ hasRoomAlso)
  have lateAnswer : ((draft.edited other otherChange).edit steps change).2.result =
      (draft.edit steps change).2.result := by
    rw [result_edit, result_edit, root_edited]
    exact congrArg answer answeredAlso
  have late := edit_hasRoom (lateAnswer ▸ hasRoom)
  have sameDraft : (draft.edited other otherChange).edited steps change =
      (draft.edited steps change).edited other otherChange := by
    rw [edited_edited, edited_edited, same]
  rw [second, early, late, secondAnswer, lateAnswer, sameDraft]
  exact ⟨rfl, rfl⟩

/-- Saving an element of an array adds an element to no other column. -/
private theorem gained_saveElement
    (leads : draft.root.Leads steps draft.row address slot target) :
    Node.gained place address target (draft.edit steps .saveElement).2.result.isOk = 0 := by
  rw [result_edit, isOk_answer, (leads.edit draft.gate? .saveElement).1]
  cases target with
  | scalar path values => simp [Node.gained, Node.editHere]
  | array _ _ _ _ => simp [Node.gained, Node.isScalar]
  | tuple _ _ _ => simp [Node.gained, Node.isScalar]

/-- What an edit for which no buffer ran short means for the rest of a draft: only columns change,
and of these none that lies neither at the end of the path nor below. Only an array counts one
element more when its scalar entry accepts a value, and saving an element adds to no other count. If
the other column does not lie above either, and no buffer runs short for an edit of it afterwards,
then that edit can come first, with the same answers and the same draft in the end. -/
theorem edit_independent (leads : draft.root.Leads steps draft.row address slot target)
    (elsewhere : draft.root.Leads other draft.row place otherSlot before)
    (outside : ¬address <+: place) (change : Columnar.Edit)
    (hasRoom : ranShort (draft.edit steps change).2.result = false) :
    (∃ columns, (draft.edit steps change).1 = { draft with columns := columns }) ∧
    (∃ after,
      (draft.edit steps change).1.root.Leads other draft.row place otherSlot after ∧
      after.content = before.content ∧
      after.elements = before.elements +
        Node.gained place address target (draft.edit steps change).2.result.isOk ∧
      (change = .saveElement → after.elements = before.elements)) ∧
    (¬place <+: address → ∀ otherChange,
      ranShort ((draft.edit steps change).1.edit other otherChange).2.result = false →
      (draft.edit other otherChange).2 = ((draft.edit steps change).1.edit other otherChange).2 ∧
        (draft.edit other otherChange).1.edit steps change =
          (((draft.edit steps change).1.edit other otherChange).1,
            (draft.edit steps change).2)) := by
  have edits : (draft.edit steps change).1 = draft.edited steps change :=
    congrArg Prod.fst (edit_hasRoom hasRoom)
  refine ⟨⟨_, edits⟩, ?_, ?_⟩
  · obtain ⟨after, leadsAfter, kept, counted⟩ :=
      leads.edit_elsewhere elsewhere outside draft.gate? change
    rw [← root_edited, ← edits] at leadsAfter
    rw [← isOk_answer, ← result_edit] at counted
    refine ⟨after, leadsAfter, kept, counted, ?_⟩
    rintro rfl
    rw [counted, gained_saveElement leads, Nat.add_zero]
  · intro apart otherChange hasRoomAlso
    exact edit_comm leads elsewhere outside apart change otherChange hasRoom hasRoomAlso

-- Two edits of one element of an array: a truth value for the array of them in the element, and a
-- number beside it.
example :
    let schema : Schema :=
      .cons "points" (.array (.tuple (.cons "x" (.scalar .integer)
        (.cons "tags" (.array (.scalar .boolean)) .nil)))) .nil
    let x : List Step := [.column (.position 0), .entry, .column (.name "x")]
    let tag : List Step := [.column (.name "points"), .entry, .column (.position 1), .entry]
    let draft := (ofSchema schema ⟨4, 16⟩).run
      [.edit x (.set (.int 1)), .edit [.column (.position 0)] .saveElement]
    let tagged := (draft.edit tag (.set (.bool true))).1
    ranShort (draft.edit tag (.set (.bool true))).2.result = false ∧ tagged ≠ draft ∧
      (tagged.edit x (.set (.int 2))).1 ≠ tagged ∧
      ((draft.edit x (.set (.int 2))).1.edit tag (.set (.bool true))).1 =
        (tagged.edit x (.set (.int 2))).1 := by
  intro schema x tag draft tagged
  have leads : draft.root.Leads tag draft.row
      [.column (.position 0), .entry, .column (.position 1), .entry] 0 _ :=
    .column rfl rfl (.entry _ (.column rfl rfl (.entry _ (.here _ _))))
  have elsewhere : draft.root.Leads x draft.row
      [.column (.position 0), .entry, .column (.position 0)] 1 _ :=
    .column rfl rfl (.entry _ (.column rfl rfl (.here _ _)))
  have hasRoom : ranShort (draft.edit tag (.set (.bool true))).2.result = false := by
    decide +kernel
  have hasRoomAlso : ranShort (tagged.edit x (.set (.int 2))).2.result = false := by
    decide +kernel
  obtain ⟨_, _, swapped⟩ :=
    edit_independent leads elsewhere (by decide) (.set (.bool true)) hasRoom
  obtain ⟨_, same⟩ := swapped (by decide) (.set (.int 2)) hasRoomAlso
  exact ⟨hasRoom, by decide +kernel, by decide +kernel, congrArg Prod.fst same⟩

end Draft

end Columnar
