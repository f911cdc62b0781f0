import Columnar.Proofs.Draft.Paths
import Columnar.Proofs.Draft.Shape

/-!
# What an edit reaches

An edit reaches the column that its path leads to, and the columns below that one. Every other
column keeps what it stores, and edits of columns of which neither lies in the other can be done in
any order.
-/

namespace Columnar

/-- What a column stores by itself, without the columns below it: the values of a scalar, the slots
of an array, or the count that the columns of a tuple share. -/
inductive Content where
  | values (values : ScalarBuffer)
  | slots (slots : Slots)
  | shared (count : Nat)
  deriving DecidableEq

namespace Node

/-- What a column stores by itself. -/
def content : Node → Content
  | .scalar _ values => .values values
  | .array _ slots _ _ => .slots slots
  | .tuple _ count _ => .shared count

/-- The elements written for all slots of an array. Other columns have none. -/
def elements : Node → Nat
  | .array _ _ elements _ => elements
  | _ => 0

/-- Only the values of a scalar entry are elements at once. -/
theorem elementsAfter_of_composite {entry : Node} (composite : entry.isScalar = false)
    (elements : Nat) (refusal : Option Refusal) :
    elementsAfter elements entry refusal = elements := by
  rw [elementsAfter, composite]
  rfl

/-- An edit below a tuple changes the column that the path begins with. -/
theorem edit_column {path : String} {count : Nat} {columns : Nodes} {index : ColumnIndex}
    {chosen : Nat} {child : Node} (resolved : columns.resolve? index = some chosen)
    (found : columns.get? index = some child) (gate : Option Refusal) (change : Edit)
    (rest : List Step) (position : Nat) :
    Node.edit gate change (.column index :: rest) position (.tuple path count columns) =
      (.tuple path count (columns.replace chosen (child.edit gate change rest position).1),
        (child.edit gate change rest position).2) := by
  cases columns.points index with
  | nowhere unresolved _ _ =>
    rw [unresolved] at resolved
    cases resolved
  | «at» position other resolvedAlso foundAlso updated =>
    obtain rfl := Option.some.inj (resolved.symm.trans resolvedAlso)
    obtain rfl := Option.some.inj (found.symm.trans foundAlso)
    simp only [Node.edit, updated]

/-- An edit at the end of a path does what it does to the column there, at the slot there. -/
theorem Leads.edit {node target : Node} {steps address : List Step} {position slot : Nat}
    (leads : node.Leads steps position address slot target) (gate : Option Refusal)
    (change : Edit) :
    (node.edit gate change steps position).2 = (target.editHere gate change slot).2 ∧
      (node.edit gate change steps position).1.find steps =
        .ok (target.editHere gate change slot).1 := by
  induction leads with
  | here node position => exact ⟨rfl, rfl⟩
  | @column path count columns index chosen child target rest address position slot resolved found
      below inductionHypothesis =>
    obtain ⟨answered, reached⟩ := inductionHypothesis
    rw [edit_column resolved found]
    refine ⟨answered, ?_⟩
    have placed := Nodes.get?_replace_self columns
      (child.edit gate change rest position).1 resolved
    simp only [Node.find, Node.child, Node.column, asTuple, bind, Except.bind, placed, pure,
      Except.pure]
    exact reached
  | entry position below inductionHypothesis => exact inductionHypothesis

/-! ### Columns elsewhere -/

/-- The elements that the array at `place` gains by itself with an edit at `address`: one, if the
edit is accepted by the scalar entry of that array. -/
def gained (place address : List Step) (target : Node) (accepted : Bool) : Nat :=
  if address = place ++ [.entry] ∧ target.isScalar = true ∧ accepted = true then 1 else 0

theorem gained_cons (step : Step) (place address : List Step) (target : Node) (accepted : Bool) :
    gained (step :: place) (step :: address) target accepted =
      gained place address target accepted := by
  simp [gained]

/-- An edit elsewhere than right below a column gains it nothing. -/
theorem gained_of_ne (target : Node) (accepted : Bool) {place address : List Step}
    (apart : address ≠ place ++ [.entry]) : gained place address target accepted = 0 :=
  if_neg fun both => apart both.1

/-- An array counts the elements that it gains with an edit below it. -/
private theorem elementsAfter_edit {entry target : Node} {rest address : List Step}
    {elements slot : Nat} (leads : entry.Leads rest elements address slot target)
    (gate : Option Refusal) (change : Edit) (refusal : Option Refusal) :
    elementsAfter elements (entry.edit gate change rest elements).1 refusal =
      elements + gained [] (.entry :: address) target refusal.isNone := by
  by_cases deep : address = []
  · subst deep
    cases leads
    rw [elementsAfter, isScalar_edit, gained]
    cases entry.isScalar <;> cases refusal <;> rfl
  · have composite : (entry.edit gate change rest elements).1.isScalar = false := by
      rw [isScalar_edit, leads.isScalar_eq_false deep]
    have none : gained [] (.entry :: address) target refusal.isNone = 0 :=
      gained_of_ne target refusal.isNone (by simpa using deep)
    rw [elementsAfter_of_composite composite, none, Nat.add_zero]

/-- An edit leaves what is stored by a column that lies neither at the end of its path nor below
that. Only an array counts one element more when its scalar entry accepts a value. -/
theorem Leads.edit_elsewhere {node target before : Node} {steps other address place : List Step}
    {position slot otherSlot : Nat} (leads : node.Leads steps position address slot target)
    (elsewhere : node.Leads other position place otherSlot before)
    (outside : ¬address <+: place) (gate : Option Refusal) (change : Edit) :
    ∃ after,
      (node.edit gate change steps position).1.Leads other position place otherSlot after ∧
      after.content = before.content ∧
      after.elements = before.elements +
        gained place address target (node.edit gate change steps position).2.isNone := by
  induction leads generalizing other place otherSlot before with
  | here node position => exact absurd List.nil_prefix outside
  | @column path count columns index chosen child target rest address position slot resolved found
      below inductionHypothesis =>
    rw [edit_column resolved found]
    cases elsewhere with
    | here =>
      have none : gained [] (.column (.position chosen) :: address) target
          (child.edit gate change rest position).2.isNone = 0 :=
        gained_of_ne target _ (by simp)
      exact ⟨_, .here _ _, rfl, none.symm⟩
    | @column _ _ _ otherIndex otherChosen otherChild _ otherRest otherPlace _ _ otherResolved
        otherFound otherBelow =>
      have resolvedAfter := (Nodes.resolve?_replace columns chosen
        (child.edit gate change rest position).1 otherIndex).trans otherResolved
      by_cases same : otherChosen = chosen
      · -- Both paths go on from the same column.
        subst same
        obtain rfl := Nodes.same_of_resolve? resolved otherResolved found otherFound
        rw [List.cons_prefix_cons] at outside
        obtain ⟨after, leadsAfter, kept, counted⟩ :=
          inductionHypothesis otherBelow fun within => outside ⟨rfl, within⟩
        refine ⟨after, ?_, kept, ?_⟩
        · exact .column resolvedAfter (Nodes.get?_replace_self columns _ otherResolved) leadsAfter
        · rw [gained_cons]
          exact counted
      · have untouched := (Nodes.get?_replace_other columns
          (child.edit gate change rest position).1 otherResolved same).trans otherFound
        have none : gained (.column (.position otherChosen) :: otherPlace)
            (.column (.position chosen) :: address) target
            (child.edit gate change rest position).2.isNone = 0 :=
          gained_of_ne target _ (by simpa using fun equal => absurd equal.symm same)
        refine ⟨before, .column resolvedAfter untouched otherBelow, rfl, ?_⟩
        rw [none, Nat.add_zero]
  | @entry path slots elements entry target rest address slot position below
      inductionHypothesis =>
    have counted := elementsAfter_edit below gate change (entry.edit gate change rest elements).2
    simp only [Node.edit, counted]
    cases elsewhere with
    | here => exact ⟨_, .here _ _, rfl, rfl⟩
    | @entry _ _ _ _ _ _ otherPlace _ _ otherBelow =>
      rw [List.cons_prefix_cons] at outside
      have apart : ¬address <+: otherPlace := fun within => outside ⟨rfl, within⟩
      obtain ⟨after, leadsAfter, kept, gains⟩ := inductionHypothesis otherBelow apart
      have deep : address ≠ [] := by
        rintro rfl
        exact apart List.nil_prefix
      have none : gained [] (.entry :: address) target
          (entry.edit gate change rest elements).2.isNone = 0 :=
        gained_of_ne target _ (by simpa using deep)
      refine ⟨after, ?_, kept, ?_⟩
      · rw [none, Nat.add_zero]
        exact .entry position leadsAfter
      · rw [gained_cons]
        exact gains

/-! ### Edits in any order -/

/-- Two edits of columns of which neither lies in the other can be done in any order. -/
theorem Leads.edit_comm {node target otherTarget : Node} {steps other address place : List Step}
    {position slot otherSlot : Nat} (leads : node.Leads steps position address slot target)
    (otherLeads : node.Leads other position place otherSlot otherTarget)
    (outside : ¬address <+: place) (apart : ¬place <+: address) (gate : Option Refusal)
    (change otherChange : Edit) :
    let first := node.edit gate change steps position
    let second := node.edit gate otherChange other position
    (first.1.edit gate otherChange other position).1 =
        (second.1.edit gate change steps position).1 ∧
      (first.1.edit gate otherChange other position).2 = second.2 ∧
      (second.1.edit gate change steps position).2 = first.2 := by
  induction leads generalizing other place otherSlot otherTarget with
  | here node position => exact absurd List.nil_prefix outside
  | @column path count columns index chosen child target rest address position slot resolved found
      below inductionHypothesis =>
    cases otherLeads with
    | here => exact absurd List.nil_prefix apart
    | @column _ _ _ otherIndex otherChosen otherChild _ otherRest otherPlace _ _ otherResolved
        otherFound otherBelow =>
      have resolvedAfter := fun node => (Nodes.resolve?_replace columns chosen node
        otherIndex).trans otherResolved
      have resolvedBefore := fun node => (Nodes.resolve?_replace columns otherChosen node
        index).trans resolved
      simp only [edit_column resolved found, edit_column otherResolved otherFound]
      by_cases same : otherChosen = chosen
      · subst same
        obtain rfl := Nodes.same_of_resolve? resolved otherResolved found otherFound
        rw [List.cons_prefix_cons] at outside apart
        obtain ⟨same, answered, answeredAlso⟩ := inductionHypothesis otherBelow
          (fun within => outside ⟨rfl, within⟩) (fun within => apart ⟨rfl, within⟩)
        rw [edit_column (resolvedAfter _) (Nodes.get?_replace_self columns _ otherResolved),
          edit_column (resolvedBefore _) (Nodes.get?_replace_self columns _ resolved),
          Nodes.replace_replace, Nodes.replace_replace, same]
        exact ⟨rfl, answered, answeredAlso⟩
      · have untouched := fun node =>
          (Nodes.get?_replace_other columns node otherResolved same).trans otherFound
        have untouchedAlso := fun node =>
          (Nodes.get?_replace_other columns node resolved fun equal => same equal.symm).trans found
        rw [edit_column (resolvedAfter _) (untouched _),
          edit_column (resolvedBefore _) (untouchedAlso _), Nodes.replace_comm columns _ _ same]
        exact ⟨rfl, rfl, rfl⟩
  | @entry path slots elements entry target rest address slot position below
      inductionHypothesis =>
    cases otherLeads with
    | here => exact absurd List.nil_prefix apart
    | @entry _ _ _ _ _ otherRest otherPlace _ _ otherBelow =>
      rw [List.cons_prefix_cons] at outside apart
      have outsideEntry : ¬address <+: otherPlace := fun within => outside ⟨rfl, within⟩
      have apartEntry : ¬otherPlace <+: address := fun within => apart ⟨rfl, within⟩
      have composite : entry.isScalar = false := by
        refine below.isScalar_eq_false ?_
        rintro rfl
        exact outsideEntry List.nil_prefix
      obtain ⟨same, answered, answeredAlso⟩ :=
        inductionHypothesis otherBelow outsideEntry apartEntry
      -- Below an entry that is no scalar, no edit adds an element.
      have counted : ∀ change steps position refusal,
          elementsAfter elements (entry.edit gate change steps position).1 refusal = elements :=
        fun change steps position refusal =>
          elementsAfter_of_composite ((isScalar_edit _ _ _ _ _).trans composite) elements refusal
      have countedTwice : ∀ change steps position otherChange otherSteps otherPosition refusal,
          elementsAfter elements ((entry.edit gate change steps position).1.edit gate otherChange
            otherSteps otherPosition).1 refusal = elements :=
        fun change steps position _ _ _ refusal =>
          elementsAfter_of_composite (by rw [isScalar_edit, isScalar_edit, composite]) elements
            refusal
      simp only [Node.edit, counted, countedTwice, same, answered, answeredAlso, and_self]

end Node

end Columnar
