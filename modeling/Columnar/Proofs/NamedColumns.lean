import Columnar.Proofs.Draft.Paths
import Columnar.Proofs.Reader.Spots

/-!
# Columns by name and by position

Where the names of the columns of a tuple differ, a name and its position are two ways to say the
same: a path with the one and a path with the other lead to the same column, and what is done there
is the same.
-/

namespace Columnar

/-- A name that comes later is another one. -/
private theorem ne_of_nodup {own name : String} {names : List String} {position : Nat}
    (differ : (own :: names).Nodup) (here : names[position]? = some name) : own ≠ name := by
  rintro rfl
  exact (List.nodup_cons.mp differ).1 (List.mem_of_getElem? here)

/-! ### Columns being written -/

/-- A name stands for its position. -/
theorem Nodes.resolve?_name : ∀ (columns : Nodes) {name : String} {position : Nat},
    columns.names.Nodup → columns.names[position]? = some name →
    columns.resolve? (.name name) = some position
  | .nil, _, _, _, here => nomatch here
  | .cons own _ _, name, 0, _, here => if_pos (Option.some.inj here)
  | .cons own _ rest, name, position + 1, differ, here => by
      have later := Nodes.resolve?_name rest (List.nodup_cons.mp differ).2 here
      rw [resolve?, if_neg (ne_of_nodup differ here), later, Option.map_some]

/-- A position stands for itself. -/
theorem Nodes.resolve?_position : ∀ (columns : Nodes) {name : String} {position : Nat},
    columns.names[position]? = some name → columns.resolve? (.position position) = some position
  | .nil, _, _, here => nomatch here
  | .cons _ _ _, _, 0, _ => rfl
  | .cons _ _ rest, _, position + 1, here => by
      rw [resolve?, Nodes.resolve?_position rest here, Option.map_some]

namespace Node

/-- What leads on from an index leads on from any other that stands for its position. -/
theorem Leads.reindex {path : String} {count chosen : Nat} {columns : Nodes}
    {one other : ColumnIndex} (resolved : columns.resolve? one = some chosen)
    (resolvedAlso : columns.resolve? other = some chosen) {rest address : List Step}
    {position slot : Nat} {target : Node}
    (leads : (Node.tuple path count columns).Leads (.column one :: rest) position address slot
      target) :
    (Node.tuple path count columns).Leads (.column other :: rest) position address slot target := by
  cases leads with
  | column here found below =>
    obtain rfl := Option.some.inj (here.symm.trans resolved)
    rw [Nodes.get?_of_resolve? columns resolved,
      ← Nodes.get?_of_resolve? columns resolvedAlso] at found
    exact .column resolvedAlso found below

/-- What leads on from a column leads on from the path to it. -/
theorem Leads.congr {node middle target : Node} {steps one other address : List Step}
    {position slot : Nat} (found : node.find steps = .ok middle)
    (same : ∀ {position slot : Nat} {address : List Step},
      middle.Leads one position address slot target →
        middle.Leads other position address slot target)
    (leads : node.Leads (steps ++ one) position address slot target) :
    node.Leads (steps ++ other) position address slot target := by
  induction steps generalizing node position address with
  | nil =>
    cases found
    exact same leads
  | cons step rest inductionHypothesis =>
    cases leads with
    | column resolved here below =>
      simp only [Node.find, Node.child, Node.column, asTuple, bind, Except.bind, here, pure,
        Except.pure] at found
      exact .column resolved here (inductionHypothesis found below)
    | entry position below => exact .entry position (inductionHypothesis found below)

/-- A path is walked part by part. -/
theorem find_append (node : Node) (first second : List Step) :
    node.find (first ++ second) = node.find first >>= fun below => below.find second := by
  induction first generalizing node with
  | nil => rfl
  | cons step rest inductionHypothesis =>
    simp only [List.cons_append, find]
    cases node.child step with
    | error _ => rfl
    | ok below => exact inductionHypothesis below

end Node

/-! ### Columns being read -/

/-- A name finds the column at its position. -/
theorem Views.get?_name : ∀ (columns : Views) {name : String} {position : Nat},
    columns.names.Nodup → columns.names[position]? = some name →
    columns.get? (.name name) = columns.get? (.position position)
  | .nil, _, _, _, here => nomatch here
  | .cons _ _ _, _, 0, _, here => if_pos (Option.some.inj here)
  | .cons _ _ rest, _, position + 1, differ, here => by
      rw [get?, if_neg (ne_of_nodup differ here)]
      exact Views.get?_name rest (List.nodup_cons.mp differ).2 here

/-- A position that has a name has a column. -/
theorem Views.get?_position : ∀ (columns : Views) {name : String} {position : Nat},
    columns.names[position]? = some name → ∃ view, columns.get? (.position position) = some view
  | .nil, _, _, here => nomatch here
  | .cons _ view _, _, 0, _ => ⟨view, rfl⟩
  | .cons _ _ rest, _, _ + 1, here => Views.get?_position rest here

/-- A change of the column of a name is one of the column at its position. -/
theorem Views.update_name {change : View → Except Refusal View} {missing otherMissing : Mismatch} :
    ∀ (columns : Views) {name : String} {position : Nat}, columns.names.Nodup →
    columns.names[position]? = some name →
    columns.update change missing (.name name) =
      columns.update change otherMissing (.position position)
  | .nil, _, _, _, here => nomatch here
  | .cons _ _ _, _, 0, _, here => if_pos (Option.some.inj here)
  | .cons _ _ rest, _, position + 1, differ, here => by
      rw [update, if_neg (ne_of_nodup differ here),
        Views.update_name rest (List.nodup_cons.mp differ).2 here]
      rfl

/-- Moving an entry goes on from the column that the first part of a path leads to. -/
theorem View.select_congr {element : Nat} {view : View} {position : Position}
    {steps one other : List Step} {spot : Spot}
    (found : Spot.find ⟨view, position⟩ steps = .ok spot)
    (same : spot.view.select element one spot.position =
      spot.view.select element other spot.position) :
    view.select element (steps ++ one) position =
      view.select element (steps ++ other) position := by
  induction steps generalizing view position with
  | nil =>
    cases found
    exact same
  | cons step rest inductionHypothesis =>
    obtain ⟨next, taken, found⟩ := bind_ok_iff.mp found
    have below := inductionHypothesis found
    cases step with
    | column index =>
      cases view with
      | scalar _ _ => cases taken
      | array _ _ _ _ => cases taken
      | tuple path columns =>
        simp only [Spot.child] at taken
        split at taken
        · rename_i child here
          cases taken
          rw [List.cons_append, List.cons_append, View.select, View.select,
            Views.update_of_get? columns here, Views.update_of_get? columns here, below]
        · cases taken
    | entry =>
      cases view with
      | scalar _ _ => cases taken
      | tuple _ _ => cases taken
      | array path offsets selected entry =>
        cases taken
        change (View.select element (rest ++ one) (entryPosition offsets selected position) entry
          >>= _) = _
        rw [below]
        rfl

end Columnar
