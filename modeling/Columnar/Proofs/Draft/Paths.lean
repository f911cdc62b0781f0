import Columnar.Draft.Edit

/-!
# Columns at the end of a path

A path leads to the column that is found at its end. The address of a column is the path to it with
every column given by its position, so two paths lead to the same column exactly when the columns
there have the same address, and a column lies in another when its address goes on from the other's.
-/

namespace Columnar

namespace Nodes

/-- The position of the column that an index points at. -/
def resolve? : Nodes → ColumnIndex → Option Nat
  | .nil, _ => none
  | .cons name _ rest, .name sought =>
      if name = sought then some 0 else (rest.resolve? (.name sought)).map (· + 1)
  | .cons _ _ _, .position 0 => some 0
  | .cons _ _ rest, .position (position + 1) => (rest.resolve? (.position position)).map (· + 1)

/-- The columns with another one in the place of that at a position. -/
def replace : Nodes → Nat → Node → Nodes
  | .nil, _, _ => .nil
  | .cons name _ rest, 0, node => .cons name node rest
  | .cons name first rest, position + 1, node => .cons name first (rest.replace position node)

/-- Where an index points: at no column, or at one of which it tells the position. -/
inductive Points (columns : Nodes) (index : ColumnIndex) : Prop where
  | nowhere (unresolved : columns.resolve? index = none) (absent : columns.get? index = none)
      (refused : ∀ change missing,
        columns.update change missing index = (columns, some (.mismatch missing)))
  | at (position : Nat) (child : Node) (resolved : columns.resolve? index = some position)
      (found : columns.get? index = some child)
      (updated : ∀ change missing, columns.update change missing index =
        (columns.replace position (change child).1, (change child).2))

private theorem points_later {name : String} {node : Node} {rest : Nodes}
    {index sought : ColumnIndex} (points : rest.Points index)
    (resolve : (cons name node rest).resolve? sought = (rest.resolve? index).map (· + 1))
    (get : (cons name node rest).get? sought = rest.get? index)
    (update : ∀ change missing, (cons name node rest).update change missing sought =
      (cons name node (rest.update change missing index).1,
        (rest.update change missing index).2)) : (cons name node rest).Points sought := by
  cases points with
  | nowhere unresolved absent refused =>
    refine .nowhere ?_ (get.trans absent) ?_
    · rw [resolve, unresolved, Option.map_none]
    · intro change missing
      rw [update, refused]
  | «at» position child resolved found updated =>
    refine .at (position + 1) child ?_ (get.trans found) ?_
    · rw [resolve, resolved, Option.map_some]
    · intro change missing
      rw [update, updated, replace]

/-- Every index points at no column or at one. -/
theorem points : ∀ (columns : Nodes) (index : ColumnIndex), columns.Points index
  | .nil, index => by
      refine .nowhere ?_ ?_ ?_
      · cases index <;> rfl
      · cases index <;> rfl
      · intro change missing
        cases index <;> rfl
  | .cons name node rest, .position 0 => .at 0 node rfl rfl fun _ _ => rfl
  | .cons name node rest, .position (position + 1) =>
      points_later (points rest (.position position)) rfl rfl fun _ _ => rfl
  | .cons name node rest, .name sought => by
      by_cases here : name = sought
      · exact .at 0 node (if_pos here) (if_pos here) fun _ _ => if_pos here
      · exact points_later (points rest (.name sought)) (if_neg here) (if_neg here)
          fun _ _ => if_neg here

/-- An index that points at a position finds the column there. -/
theorem get?_of_resolve? : ∀ (columns : Nodes) {index : ColumnIndex} {position : Nat},
    columns.resolve? index = some position → columns.get? index = columns.get? (.position position)
  | .nil, index, _, resolved => by cases index <;> cases resolved
  | .cons name node rest, .position 0, _, resolved => by
      obtain rfl := Option.some.inj resolved
      rfl
  | .cons name node rest, .position (position + 1), _, resolved => by
      obtain ⟨later, below, rfl⟩ := Option.map_eq_some_iff.mp resolved
      exact get?_of_resolve? rest below
  | .cons name node rest, .name sought, _, resolved => by
      by_cases here : name = sought
      · simp only [resolve?, if_pos here] at resolved
        obtain rfl := Option.some.inj resolved
        exact if_pos here
      · simp only [resolve?, if_neg here] at resolved
        obtain ⟨later, below, rfl⟩ := Option.map_eq_some_iff.mp resolved
        exact (if_neg here).trans (get?_of_resolve? rest below)

/-- Indexes that point at one position find one column. -/
theorem same_of_resolve? {columns : Nodes} {one two : ColumnIndex} {position : Nat}
    {first second : Node} (resolved : columns.resolve? one = some position)
    (resolvedAlso : columns.resolve? two = some position) (found : columns.get? one = some first)
    (foundAlso : columns.get? two = some second) : first = second := by
  rw [get?_of_resolve? columns resolved, ← get?_of_resolve? columns resolvedAlso,
    foundAlso] at found
  exact (Option.some.inj found).symm

/-! ### Columns in the place of others -/

/-- Another column in the place of one is pointed at in the same way. -/
@[simp] theorem resolve?_replace : ∀ (columns : Nodes) (position : Nat) (node : Node)
    (index : ColumnIndex), (columns.replace position node).resolve? index = columns.resolve? index
  | .nil, _, _, _ => rfl
  | .cons _ _ _, 0, _, .name _ => rfl
  | .cons _ _ _, 0, _, .position 0 => rfl
  | .cons _ _ _, 0, _, .position (_ + 1) => rfl
  | .cons _ _ _, _ + 1, _, .position 0 => rfl
  | .cons _ _ rest, position + 1, node, .position (sought + 1) => by
      simp only [replace, resolve?, resolve?_replace rest position node (.position sought)]
  | .cons _ _ rest, position + 1, node, .name sought => by
      simp only [replace, resolve?, resolve?_replace rest position node (.name sought)]

/-- The column that was put in the place of another is found there. -/
theorem get?_replace_self : ∀ (columns : Nodes) {index : ColumnIndex} {position : Nat}
    (node : Node), columns.resolve? index = some position →
    (columns.replace position node).get? index = some node
  | .nil, index, _, _, resolved => by cases index <;> cases resolved
  | .cons _ _ _, .position 0, _, _, resolved => by
      obtain rfl := Option.some.inj resolved
      rfl
  | .cons _ _ rest, .position (_ + 1), _, node, resolved => by
      obtain ⟨later, below, rfl⟩ := Option.map_eq_some_iff.mp resolved
      exact get?_replace_self rest node below
  | .cons name _ rest, .name sought, _, node, resolved => by
      by_cases here : name = sought
      · simp only [resolve?, if_pos here] at resolved
        obtain rfl := Option.some.inj resolved
        exact if_pos here
      · simp only [resolve?, if_neg here] at resolved
        obtain ⟨later, below, rfl⟩ := Option.map_eq_some_iff.mp resolved
        exact (if_neg here).trans (get?_replace_self rest node below)

/-- Every other column is found as before. -/
theorem get?_replace_other : ∀ (columns : Nodes) {index : ColumnIndex} {found position : Nat}
    (node : Node), columns.resolve? index = some found → found ≠ position →
    (columns.replace position node).get? index = columns.get? index
  | .nil, _, _, _, _, _, _ => rfl
  | .cons _ _ _, .position 0, _, 0, _, resolved, apart => by
      exact absurd (Option.some.inj resolved).symm apart
  | .cons _ _ _, .position 0, _, _ + 1, _, _, _ => rfl
  | .cons _ _ _, .position (_ + 1), _, 0, _, _, _ => rfl
  | .cons _ _ rest, .position (_ + 1), _, position + 1, node, resolved, apart => by
      obtain ⟨later, below, rfl⟩ := Option.map_eq_some_iff.mp resolved
      exact get?_replace_other rest node below fun same => apart (congrArg (· + 1) same)
  | .cons name _ rest, .name sought, _, 0, node, resolved, apart => by
      by_cases here : name = sought
      · simp only [resolve?, if_pos here] at resolved
        exact absurd (Option.some.inj resolved).symm apart
      · simp only [replace, get?, if_neg here]
  | .cons name _ rest, .name sought, _, position + 1, node, resolved, apart => by
      by_cases here : name = sought
      · simp only [replace, get?, if_pos here]
      · simp only [resolve?, if_neg here] at resolved
        obtain ⟨later, below, rfl⟩ := Option.map_eq_some_iff.mp resolved
        simp only [replace, get?, if_neg here]
        exact get?_replace_other rest node below fun same => apart (congrArg (· + 1) same)

/-- A column in its own place changes nothing. -/
theorem replace_self : ∀ (columns : Nodes) {index : ColumnIndex} {position : Nat} {node : Node},
    columns.resolve? index = some position → columns.get? index = some node →
    columns.replace position node = columns
  | .nil, index, _, _, resolved, _ => by cases index <;> cases resolved
  | .cons _ _ _, .position 0, _, _, resolved, found => by
      obtain rfl := Option.some.inj resolved
      obtain rfl := Option.some.inj found
      rfl
  | .cons name first rest, .position (_ + 1), _, _, resolved, found => by
      obtain ⟨later, below, rfl⟩ := Option.map_eq_some_iff.mp resolved
      exact congrArg (cons name first) (replace_self rest below found)
  | .cons name first rest, .name sought, _, _, resolved, found => by
      by_cases here : name = sought
      · simp only [resolve?, get?, if_pos here] at resolved found
        obtain rfl := Option.some.inj resolved
        obtain rfl := Option.some.inj found
        rfl
      · simp only [resolve?, get?, if_neg here] at resolved found
        obtain ⟨later, below, rfl⟩ := Option.map_eq_some_iff.mp resolved
        exact congrArg (cons name first) (replace_self rest below found)

/-- The last of two columns in the same place stays there. -/
@[simp] theorem replace_replace : ∀ (columns : Nodes) (position : Nat) (first second : Node),
    (columns.replace position first).replace position second = columns.replace position second
  | .nil, _, _, _ => rfl
  | .cons _ _ _, 0, _, _ => rfl
  | .cons name node rest, position + 1, first, second =>
      congrArg (cons name node) (replace_replace rest position first second)

/-- Columns are put in different places in any order. -/
theorem replace_comm : ∀ (columns : Nodes) {one two : Nat} (first second : Node), one ≠ two →
    (columns.replace one first).replace two second =
      (columns.replace two second).replace one first
  | .nil, _, _, _, _, _ => rfl
  | .cons _ _ _, 0, 0, _, _, apart => absurd rfl apart
  | .cons _ _ _, 0, _ + 1, _, _, _ => rfl
  | .cons _ _ _, _ + 1, 0, _, _, _ => rfl
  | .cons name node rest, _ + 1, _ + 1, first, second, apart =>
      congrArg (cons name node)
        (replace_comm rest first second fun same => apart (congrArg (· + 1) same))

end Nodes

namespace Node

/-- Where a path leads, from a slot of a column: the address of the column there, the slot that an
edit there writes to, and the column itself. The entry of an array is at the slot of the element
that is being written. -/
inductive Leads : Node → List Step → Nat → List Step → Nat → Node → Prop where
  | here (node : Node) (position : Nat) : Leads node [] position [] position node
  | column {path : String} {count : Nat} {columns : Nodes} {index : ColumnIndex} {chosen : Nat}
      {child target : Node} {rest address : List Step} {position slot : Nat}
      (resolved : columns.resolve? index = some chosen) (found : columns.get? index = some child)
      (below : child.Leads rest position address slot target) :
      Leads (.tuple path count columns) (.column index :: rest) position
        (.column (.position chosen) :: address) slot target
  | entry {path : String} {slots : Slots} {elements : Nat} {entry target : Node}
      {rest address : List Step} {slot : Nat} (position : Nat)
      (below : entry.Leads rest elements address slot target) :
      Leads (.array path slots elements entry) (.entry :: rest) position (.entry :: address) slot
        target

/-- A path leads to the column that is found at its end. -/
theorem Leads.find {node target : Node} {steps address : List Step} {position slot : Nat}
    (leads : node.Leads steps position address slot target) : node.find steps = .ok target := by
  induction leads with
  | here node position => rfl
  | column resolved found below inductionHypothesis =>
    simp only [Node.find, child, Node.column, asTuple, bind, Except.bind, found, pure, Except.pure]
    exact inductionHypothesis
  | entry position below inductionHypothesis => exact inductionHypothesis

/-- A path at whose end a column is found leads there from every slot. -/
theorem leads_of_find {node target : Node} {steps : List Step} (position : Nat)
    (found : node.find steps = .ok target) :
    ∃ address slot, node.Leads steps position address slot target := by
  induction steps generalizing node position with
  | nil =>
    obtain rfl := Except.ok.inj found
    exact ⟨[], position, .here node position⟩
  | cons step rest inductionHypothesis =>
    cases step with
    | column index =>
      cases node with
      | tuple path count columns =>
        simp only [Node.find, child, Node.column, asTuple, bind, Except.bind, pure,
          Except.pure] at found
        cases columns.points index with
        | nowhere _ absent _ =>
          rw [absent] at found
          cases found
        | «at» chosen inner resolved present _ =>
          rw [present] at found
          obtain ⟨address, slot, below⟩ := inductionHypothesis position found
          exact ⟨_, slot, .column resolved present below⟩
      | scalar _ _ => cases found
      | array _ _ _ _ => cases found
    | entry =>
      cases node with
      | array path slots elements entry =>
        obtain ⟨address, slot, below⟩ := inductionHypothesis elements found
        exact ⟨_, slot, .entry position below⟩
      | scalar _ _ => cases found
      | tuple _ _ _ => cases found

/-- A column has columns below it only if it is no scalar. -/
theorem Leads.isScalar_eq_false {node target : Node} {steps address : List Step}
    {position slot : Nat} (leads : node.Leads steps position address slot target)
    (deep : address ≠ []) : node.isScalar = false := by
  cases leads with
  | here => exact absurd rfl deep
  | column _ _ _ => rfl
  | entry _ _ => rfl

end Node

end Columnar
