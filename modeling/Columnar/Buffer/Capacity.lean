/-!
# Capacity

Every buffer has a limit in bytes. A write is measured before it changes anything, so a buffer that
refuses a write is the buffer from before.
-/

namespace Columnar

/-- The bytes of one stored offset. -/
def offsetBytes : Nat := 4

/-- The largest offset that can be stored, that of a signed 32-bit integer. -/
def maxOffset : Nat := 2147483647

/-- A request for more bytes than there may be. -/
structure Shortage where
  requested : Nat
  capacity : Nat
  deriving DecidableEq

/-- The message of a shortage. -/
def Shortage.message (shortage : Shortage) : String :=
  s!"buffer overflow: {shortage.requested} bytes requested, capacity is {shortage.capacity}"

/-- The shortage that a request meets, if it meets one. -/
def shortage? (requested capacity : Nat) : Option Shortage :=
  if capacity < requested then some ⟨requested, capacity⟩ else none

/-- A request is refused exactly when it exceeds the capacity, and the shortage says by what. -/
theorem shortage?_eq_some_iff {requested capacity : Nat} {shortage : Shortage} :
    shortage? requested capacity = some shortage ↔
      capacity < requested ∧ shortage = ⟨requested, capacity⟩ := by
  unfold shortage?
  split
  · simp_all [eq_comm]
  · simp
    omega

/-- A request is granted exactly when it is within the capacity. -/
@[simp] theorem shortage?_eq_none_iff {requested capacity : Nat} :
    shortage? requested capacity = none ↔ requested ≤ capacity := by
  unfold shortage?
  split
  · simp
    omega
  · simp
    omega

end Columnar
