import Columnar.Proofs.Draft.Columns
import Columnar.Proofs.Draft.WholeValues

/-!
# Columns in line with their slots

Between operations every column of a draft is in line with the slot that is written to: nothing
before the slot is missing, and nothing behind it is there. So a scalar is always written right
behind the finished values or over the one in progress.
-/

namespace Columnar

/-- Whether a column is in line with the slot that is written to. A scalar has a value for every
slot before, and maybe one for the slot itself; an array has closed the slots before, and a scalar
entry has just the values of its elements; the columns of a tuple share a value for every slot
before. -/
def Node.Aligned (slot : Nat) : Node → Prop
  | .scalar _ values => slot ≤ values.count ∧ values.count ≤ slot + 1
  | .array _ slots elements entry =>
      slots.count = slot ∧ OffsetsRise slots.offsets ∧ slots.lastOffset ≤ elements ∧
        ∀ values, entry.asScalar = .ok values → values.count = elements
  | .tuple _ count _ => count = slot

namespace Node

variable {capacity slot : Nat}

/-- A scalar entry of an array without a value in progress has as many values as saved ones. -/
private theorem count_entry {path : String} {element : ColumnType} {items : List Value}
    {current : Pending} (settled : element.isScalar = true → current.written = none)
    {values : ScalarBuffer}
    (isScalar : (Node.holding capacity path element items current).asScalar = .ok values) :
    values.count = items.length := by
  cases element with
  | array _ => cases isScalar
  | tuple _ => cases isScalar
  | scalar type =>
    obtain rfl := Except.ok.inj isScalar
    rw [settled rfl, ScalarBuffer.count_ofScalars]
    simp

/-- A column that holds the values of the slots before its own is in line with it. -/
theorem Holds.aligned {node : Node} (holds : node.Holds capacity slot) : node.Aligned slot := by
  obtain ⟨path, type, saved, pending, rfl, rfl, _, settled⟩ := holds
  cases type with
  | scalar type =>
    simp only [Node.holding, Aligned, ScalarBuffer.count_ofScalars, List.length_append,
      List.length_map]
    cases pending.written with
    | none => exact ⟨Nat.le_refl _, Nat.le_succ _⟩
    | some _ => exact ⟨Nat.le_succ _, Nat.le_refl _⟩
  | array element =>
    refine ⟨?_, offsetsRise_offsetsOf _, ?_, fun values => count_entry settled.1⟩
    · rw [Slots.count_ofSizes, Value.length_sizes]
    · rw [Slots.lastOffset_ofSizes, Value.sum_sizes, List.length_append]
      exact Nat.le_add_right _ _
  | tuple _ => rfl

/-- The elements of an array that are not in a closed slot are those of the current slot. -/
theorem Aligned.lastOffset_add_elementIndex {path : String} {slots : Slots} {elements : Nat}
    {entry : Node} (aligned : (Node.array path slots elements entry).Aligned slot) :
    slots.lastOffset + (Node.array path slots elements entry).elementIndex = elements := by
  obtain ⟨_, _, within, _⟩ := aligned
  exact Nat.add_sub_cancel' within

/-- A scalar that is accepted becomes the value of its slot, and the values before stay. -/
theorem Holds.set {path : String} {values : ScalarBuffer}
    (holds : (Node.scalar path values).Holds capacity slot) {gate : Option Refusal}
    {value : Scalar}
    (accepted : ((Node.scalar path values).editHere gate (.set value) slot).2 = none) :
    ∃ after, ((Node.scalar path values).editHere gate (.set value) slot).1 = .scalar path after ∧
      after.count = slot + 1 ∧ after.truncate slot = values.truncate slot := by
  obtain ⟨type, saved, last, rfl, rfl⟩ := holds.scalar
  cases gate with
  | some _ => cases accepted
  | none =>
    simp only [editHere, ScalarBuffer.write] at accepted ⊢
    cases keeps : type.keep? value with
    | none =>
      rw [ScalarBuffer.set_eq_of_keep?_eq_none keeps] at accepted
      cases accepted
    | some kept =>
      rw [ScalarBuffer.set_ofScalars_length keeps capacity saved last] at accepted ⊢
      cases found : type.writeShortage? capacity (saved ++ [kept]) with
      | some _ =>
        rw [found] at accepted
        cases accepted
      | none =>
        refine ⟨_, rfl, ?_, ?_⟩
        · simp
        · simp only [Option.map_none, guarded_none, ScalarBuffer.truncate_ofScalars,
            List.take_left']

end Node

namespace Draft

/-- After any writes, every column is in line with the slot that is written to, at every depth. So
a scalar that is accepted becomes the value of that slot, with no gap before it and without any
change to earlier slots, and so does every scalar of a whole value, which is written by single
edits. The elements of the current slot of an array are those behind its last offset. -/
theorem aligned_of_run (schema : Schema) (limits : Limits) {actions : List Action}
    (writes : ∀ action ∈ actions, action.isWrite = true) {steps address : List Step} {slot : Nat}
    {target : Node} :
    let draft := (ofSchema schema limits).run actions
    draft.root.Leads steps draft.row address slot target →
      target.Aligned slot ∧
      (∀ path values value, target = .scalar path values →
        (draft.edit steps (.set value)).2.result = .ok () →
        ∃ after, (draft.edit steps (.set value)).1.find steps = .ok (.scalar path after) ∧
          after.count = slot + 1 ∧ after.truncate slot = values.truncate slot) ∧
      (∀ value, draft.edit steps (.put value) =
          draft.attempt (singleEdits steps value target.type) ∧
        (∀ action ∈ singleEdits steps value target.type, action.isSingle = true) ∧
        ∃ done, done <+: singleEdits steps value target.type ∧
          (draft.edit steps (.put value)).1 = draft.run done) ∧
      (∀ path slots elements entry, target = .array path slots elements entry →
        slots.lastOffset + target.elementIndex = elements) := by
  intro draft leads
  have holds := holds_of_leads schema limits writes leads
  refine ⟨holds.aligned, ?_, ?_, ?_⟩
  · rintro path values value rfl accepted
    obtain ⟨answered, found⟩ := leads.edit draft.gate? (.set value)
    have hasRoom : ranShort (draft.edit steps (.set value)).2.result = false := by
      rw [accepted]
      rfl
    rw [result_edit, answered, answer_eq_ok] at accepted
    obtain ⟨after, written, counted, kept⟩ := holds.set accepted
    refine ⟨after, ?_, counted, kept⟩
    rw [edit_hasRoom hasRoom, Draft.find, root_edited, found, written]
  · intro value
    have attempted := edit_put_eq_attempt leads value
    refine ⟨attempted, fun _ => isSingle_singleEdits, ?_⟩
    rw [attempted]
    exact attempt_eq_run draft _
  · rintro path slots elements entry rfl
    exact holds.aligned.lastOffset_add_elementIndex

/-- The third element of an array of tuples, whose number is written twice. -/
theorem aligned_of_run_rewrite :
    let schema : Schema :=
      .cons "points" (.array (.tuple (.cons "x" (.scalar .integer)
        (.cons "tags" (.array (.scalar .boolean)) .nil)))) .nil
    let points : List Step := [.column (.position 0)]
    let x : List Step := [.column (.name "points"), .entry, .column (.position 0)]
    let tag : List Step := [.column (.position 0), .entry, .column (.name "tags"), .entry]
    let actions : List Action :=
      [.edit x (.set (.int 1)), .edit points .saveElement, .save, .edit tag (.set (.bool true)),
        .edit points .saveElement, .edit x (.set (.int 2))]
    let draft : Draft := ⟨⟨4, 16⟩, schema, .writing, 1,
      .cons "points" (.array "points" ⟨16, #[0, 1]⟩ 2 (.tuple "points" 2
        (.cons "x" (.scalar "points.x" (.int ⟨16, #[1, 0, 2]⟩))
          (.cons "tags" (.array "points.tags" ⟨16, #[0, 0, 1]⟩ 1
            (.scalar "points.tags" (.bool ⟨16, #[true]⟩))) .nil)))) .nil⟩
    (∀ action ∈ actions, action.isWrite = true) ∧
      (ofSchema schema ⟨4, 16⟩).run actions = draft ∧
      draft.root.Leads x draft.row [.column (.position 0), .entry, .column (.position 0)] 2
        (.scalar "points.x" (.int ⟨16, #[1, 0, 2]⟩)) ∧
      ∃ after, (draft.edit x (.set (.int 3))).1.find x = .ok (.scalar "points.x" after) ∧
        after.count = 3 ∧ after.truncate 2 = .int ⟨16, #[1, 0]⟩ := by
  intro schema points x tag actions draft
  have writes : ∀ action ∈ actions, action.isWrite = true := by decide
  have reached : (ofSchema schema ⟨4, 16⟩).run actions = draft := by decide +kernel
  have leads : draft.root.Leads x draft.row
      [.column (.position 0), .entry, .column (.position 0)] 2
      (.scalar "points.x" (.int ⟨16, #[1, 0, 2]⟩)) :=
    .column rfl rfl (.entry _ (.column rfl rfl (.here _ _)))
  have cut : (ScalarBuffer.int ⟨16, #[1, 0, 2]⟩).truncate 2 = .int ⟨16, #[1, 0]⟩ := by
    decide +kernel
  have aligned := @aligned_of_run schema ⟨4, 16⟩ actions writes x
    [.column (.position 0), .entry, .column (.position 0)] 2
    (.scalar "points.x" (.int ⟨16, #[1, 0, 2]⟩))
  rw [reached] at aligned
  have written := (aligned leads).2.1 _ _ (.int 3) rfl rfl
  rw [cut] at written
  exact ⟨writes, reached, leads, written⟩

end Draft

end Columnar
