import Columnar.Buffer.Store
import Mathlib.Logic.Relation

/-!
# Forests of buffers

The buffers of a store form a forest when a buffer only names parts with smaller numbers and each
buffer is a part of at most one other. What is below two parts of one buffer is then apart.
-/

namespace Columnar

namespace Store

/-- A buffer names another one as its part. -/
def IsPart (store : Store) (part id : Nat) : Prop :=
  ∃ buffer, store.get? id = some buffer ∧ part ∈ buffer.children

/-- A buffer is another one or, through parts of parts, below it. -/
def Below (store : Store) : Nat → Nat → Prop :=
  Relation.ReflTransGen store.IsPart

/-- The buffers form a forest. -/
structure Forest (store : Store) : Prop where
  /-- A part has a smaller number, as it was there before. -/
  before : ∀ part id, store.IsPart part id → part < id
  /-- A buffer is a part of at most one other. -/
  oneParent : ∀ part id other, store.IsPart part id → store.IsPart part other → id = other
  /-- A buffer names each of its parts once. -/
  once : ∀ id buffer, store.get? id = some buffer → buffer.children.Nodup
  /-- A tuple has columns, and a name for each. -/
  named : ∀ id names parts shared, store.get? id = some (.group names parts shared) →
    names.length = parts.length ∧ parts ≠ []

variable {store : Store}

theorem below_refl (store : Store) (id : Nat) : store.Below id id :=
  .refl

/-- What is below a part is below the buffer. -/
theorem Below.tail {part child id : Nat} (below : store.Below part child)
    (isPart : store.IsPart child id) : store.Below part id :=
  Relation.ReflTransGen.tail below isPart

/-- What is below a buffer is the buffer itself or is below one of its parts. -/
theorem below_iff {part id : Nat} :
    store.Below part id ↔ part = id ∨ ∃ child, store.Below part child ∧ store.IsPart child id := by
  rw [eq_comm]
  exact Relation.ReflTransGen.cases_tail_iff store.IsPart part id

namespace Forest

theorem le_of_below (forest : store.Forest) {part id : Nat} (below : store.Below part id) :
    part ≤ id := by
  induction below with
  | refl => exact Nat.le_refl _
  | tail _ isPart inductionHypothesis =>
    exact Nat.le_of_lt (Nat.lt_of_le_of_lt inductionHypothesis (forest.before _ _ isPart))

/-- A buffer is not below its parts. -/
theorem not_below_part (forest : store.Forest) {child id : Nat} (isPart : store.IsPart child id) :
    ¬store.Below id child := fun below =>
  Nat.not_lt.mpr (forest.le_of_below below) (forest.before child id isPart)

/-- A part of a buffer is below another part of it only if it is that part. -/
private theorem eq_of_part_below (forest : store.Forest) {first second id : Nat}
    (firstPart : store.IsPart first id) (secondPart : store.IsPart second id)
    (below : store.Below first second) : first = second := by
  rcases Relation.ReflTransGen.cases_head below with same | ⟨parent, isPart, above⟩
  · exact same
  · -- The one buffer that the first is a part of is the parent of both.
    obtain rfl := forest.oneParent first id parent firstPart isPart
    exact absurd above (forest.not_below_part secondPart)

/-- What is below two parts of one buffer is below one part of it. -/
theorem eq_of_below (forest : store.Forest) {part first second id : Nat}
    (firstPart : store.IsPart first id) (secondPart : store.IsPart second id)
    (belowFirst : store.Below part first) (belowSecond : store.Below part second) :
    first = second := by
  have oneParent : Relator.RightUnique store.IsPart := fun part id other isPart isOther =>
    forest.oneParent part id other isPart isOther
  rcases belowFirst.total_of_right_unique oneParent belowSecond with below | below
  · exact forest.eq_of_part_below firstPart secondPart below
  · exact (forest.eq_of_part_below secondPart firstPart below).symm

end Forest

/-! ### Lengths -/

/-- The number of rows that a buffer has when it is frozen: that of its values or slots and, for a
tuple, that of its first column, which has a smaller number. -/
def lengthOf (store : Store) (id : Nat) : Nat :=
  match store.get? id with
  | some (.scalar values) => values.count
  | some (.slots _ ends) => ends.count
  | some (.group _ (first :: _) _) => if first < id then store.lengthOf first else 0
  | _ => 0
termination_by id

theorem lengthOf_scalar {id : Nat} {values : ScalarBuffer}
    (found : store.get? id = some (.scalar values)) : store.lengthOf id = values.count := by
  rw [lengthOf, found]

theorem lengthOf_slots {id entry : Nat} {ends : Slots}
    (found : store.get? id = some (.slots entry ends)) : store.lengthOf id = ends.count := by
  rw [lengthOf, found]

theorem Forest.lengthOf_group (forest : store.Forest) {id first : Nat} {names : List String}
    {rest : List Nat} {shared : Nat}
    (found : store.get? id = some (.group names (first :: rest) shared)) :
    store.lengthOf id = store.lengthOf first := by
  have before := forest.before first id ⟨_, found, List.mem_cons_self⟩
  rw [lengthOf, found]
  exact if_pos before

end Store

end Columnar
