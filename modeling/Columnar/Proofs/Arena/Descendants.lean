import Columnar.Proofs.Arena.Segments
import Columnar.Proofs.Buffer.Forest

/-!
# What is below a column in an arena

Walks come to a column before its parts, and so to each number of the column and of what is below it
once. What is below a column in the forest of the buffers has just these numbers.
-/

namespace Columnar

mutual

/-- The numbers of a column and of all below it, in the order in which walks come to them. -/
def ColumnType.visits (start : Nat) : ColumnType → List Nat
  | .scalar _ => [start]
  | .array element => (start + (element.inner + 1)) :: element.visits start
  | .tuple columns => (start + columns.size) :: columns.visits start

/-- The numbers of columns and of all below them, in the order in which walks come to them. -/
def Schema.visits (start : Nat) : Schema → List Nat
  | .nil => []
  | .cons _ type rest => type.visits start ++ rest.visits (start + type.inner + 1)

end

private theorem perm_range'_succ {visits : List Nat} {start count : Nat}
    (perm : visits.Perm (List.range' start count)) :
    ((start + count) :: visits).Perm (List.range' start (count + 1)) := by
  rw [List.range'_concat, Nat.one_mul]
  exact (perm.cons _).trans (List.perm_append_singleton _ _).symm

mutual

/-- A walk comes to each of the numbers once. -/
theorem ColumnType.visits_perm : ∀ (type : ColumnType) (start : Nat),
    (type.visits start).Perm (List.range' start (type.inner + 1))
  | .scalar _, _ => .refl _
  | .array element, start => perm_range'_succ (ColumnType.visits_perm element start)
  | .tuple columns, start => perm_range'_succ (Schema.visits_perm columns start)

/-- Walks one after the other come to each of the numbers once. -/
theorem Schema.visits_perm : ∀ (schema : Schema) (start : Nat),
    (schema.visits start).Perm (List.range' start schema.size)
  | .nil, _ => .refl _
  | .cons _ type rest, start => by
      have first := ColumnType.visits_perm type start
      have others := Schema.visits_perm rest (start + type.inner + 1)
      have whole := first.append others
      rwa [Nat.add_assoc start, List.range'_append_1] at whole

end

namespace Store

/-- What is below a buffer that is there is the buffer itself or below one of those that it
names. -/
theorem below_iff_of_get? {store : Store} {id part : Nat} {buffer : Buffer}
    (found : store.get? id = some buffer) :
    store.Below part id ↔ part = id ∨ ∃ child ∈ buffer.children, store.Below part child := by
  rw [below_iff]
  refine or_congr_right ⟨?_, ?_⟩
  · rintro ⟨child, below, other, present, member⟩
    obtain rfl := Option.some.inj (found.symm.trans present)
    exact ⟨child, member, below⟩
  · rintro ⟨child, member, below⟩
    exact ⟨child, below, buffer, found, member⟩

end Store

mutual

/-- What is below a column is what a walk from it comes to. -/
theorem Node.below_holding : ∀ (node : Node) (around : Around) (path : String) (position : Nat)
    (appends : Bool) (part : Nat),
    (around.holding path position appends node).store.Below part (around.start + node.type.inner) ↔
      part ∈ node.type.visits around.start
  | .scalar own values, around, path, position, appends, part => by
      rw [Store.below_iff_of_get? (around.get?_holding path position appends _)]
      simp [Node.buffer, Buffer.children, Node.type, ColumnType.inner, ColumnType.visits]
  | .array own slots elements entry, around, path, position, appends, part => by
      have below := Node.below_holding entry
        (around.inArray path position slots elements entry.type) path around.cursor
        entry.type.isScalar part
      rw [← Around.holding_array own appends rfl] at below
      rw [Store.below_iff_of_get? (around.get?_holding path position appends _)]
      simp only [Node.buffer, Buffer.children, Node.type, ColumnType.inner, ColumnType.visits,
        List.mem_cons, List.not_mem_nil, or_false, exists_eq_left]
      exact or_congr_right below
  | .tuple own shared columns, around, path, position, appends, part => by
      have below := Nodes.below_holdingEach columns
        (around.inTuple path position shared columns.schema) path position part
      rw [← Around.holding_tuple own appends rfl] at below
      rw [Store.below_iff_of_get? (around.get?_holding path position appends _)]
      simp only [Node.buffer, Buffer.children, Node.type, ColumnType.inner, ColumnType.visits,
        List.mem_cons]
      exact or_congr_right below

/-- What is below columns is what walks from them come to. -/
theorem Nodes.below_holdingEach : ∀ (columns : Nodes) (around : Around) (parent : String)
    (position part : Nat),
    (∃ id ∈ columns.schema.numbers around.start,
        (around.holdingEach parent position columns).store.Below part id) ↔
      part ∈ columns.schema.visits around.start
  | .nil, _, _, _, _ => ⟨nofun, nofun⟩
  | .cons name node rest, around, parent, position, part => by
      have first := Node.below_holding node (around.beforeRest parent position node.type rest)
        (childPath parent name) position false part
      have others := Nodes.below_holdingEach rest (around.afterFirst parent name position node)
        parent position part
      rw [← Around.holdingEach_first rfl] at first
      rw [← Around.holdingEach_rest, Around.start_afterFirst] at others
      simp only [Nodes.schema, Schema.numbers, Schema.visits, List.mem_cons,
        exists_eq_or_imp, List.mem_append]
      exact or_congr first others

end

end Columnar
