import Columnar.Proofs.Buffer.Writes

/-!
# Boundaries of slots

Slots keep their boundaries whatever is done with them: a slot that is committed goes on where the
one before it ends, and the slots before it stay as they are. As long as no slot is committed with
an end before its beginning, slots lie side by side, so that every element is in one of them.
-/

namespace Columnar

namespace Slots

/-- Where a slot begins and where it ends. -/
def bounds? (slots : Slots) (slot : Nat) : Option (Nat × Nat) := do
  let first ← slots.offset? slot
  let last ← slots.offset? (slot + 1)
  pure (first, last)

/-- Does one operation. To set a slot is to commit it with its end. -/
def perform (slots : Slots) : Operation Nat → Slots × Option Shortage
  | .set slot last => slots.commit slot last
  | .fill count => slots.fill count
  | .truncate count => (slots.truncate count, none)
  | .reset => (slots.reset, none)

/-- Where a slot begins if it is committed, which is where the slot before it ends. -/
def beginning (slots : Slots) (slot : Nat) : Nat :=
  (slots.offset? (min slot slots.count)).getD 0

/-- Whether a sequence of operations commits no slot with an end before its beginning. -/
def Forward : Slots → List (Operation Nat) → Prop
  | _, [] => True
  | slots, operation :: rest =>
      (∀ slot last, operation = .set slot last → slots.beginning slot ≤ last) ∧
        Forward (slots.perform operation).1 rest

/-- Whether an element is in a slot. -/
def Owns (slots : Slots) (slot element : Nat) : Prop :=
  ∃ first last, slots.bounds? slot = some (first, last) ∧ first ≤ element ∧ element < last

/-- Slots that lie side by side: they begin at zero, none ends before it begins, and an element is
in one of them, and in only one, if it is before the end of the last one. -/
structure SideBySide (slots : Slots) : Prop where
  rise : OffsetsRise slots.offsets
  owned_iff : ∀ element, element < slots.lastOffset ↔ ∃ slot, slots.Owns slot element
  unique : ∀ element one other, slots.Owns one element → slots.Owns other element → one = other

variable {slots : Slots}

/-! ### Offsets -/

theorem bounds?_eq_some_iff {slot first last : Nat} :
    slots.bounds? slot = some (first, last) ↔
      slots.offset? slot = some first ∧ slots.offset? (slot + 1) = some last := by
  simp [bounds?, Option.bind_eq_some_iff]

theorem begun_of_zero (zero : slots.offset? 0 = some 0) : slots.offsets ≠ #[] := by
  intro empty
  rw [offset?, empty] at zero
  cases zero

/-- There is an offset for every slot, and one more. -/
theorem exists_offset? (begun : slots.offsets ≠ #[]) {index : Nat} (within : index ≤ slots.count) :
    ∃ offset, slots.offset? index = some offset := by
  have size := size_offsets begun
  exact ⟨_, Array.getElem?_eq_getElem (by omega)⟩

theorem le_count_of_offset? {index offset : Nat} (found : slots.offset? index = some offset) :
    index ≤ slots.count := by
  obtain ⟨within, -⟩ := Array.getElem?_eq_some_iff.mp found
  have size := size_offsets (Array.size_pos_iff.mp (Nat.zero_lt_of_lt within))
  omega

/-- The offset behind the last slot is its end. -/
theorem offset?_count (begun : slots.offsets ≠ #[]) :
    slots.offset? slots.count = some slots.lastOffset := by
  obtain ⟨offset, found⟩ := exists_offset? begun (Nat.le_refl _)
  have size := size_offsets begun
  have last : slots.offsets.back? = some offset := by
    rw [Array.back?_eq_getElem?, show slots.offsets.size - 1 = slots.count by omega]
    exact found
  rw [found, lastOffset, endOf, last, Option.getD_some]

theorem offset?_beginning (begun : slots.offsets ≠ #[]) (slot : Nat) :
    slots.offset? (min slot slots.count) = some (slots.beginning slot) := by
  obtain ⟨offset, found⟩ := exists_offset? begun (Nat.min_le_right slot slots.count)
  rw [beginning, found, Option.getD_some]

/-- Cutting slots keeps the offsets of those that stay. -/
theorem offset?_truncate (begun : slots.offsets ≠ #[]) {count index : Nat}
    (within : index ≤ count) : (slots.truncate count).offset? index = slots.offset? index := by
  have stored := size_offsets begun
  rw [truncate]
  split
  · have size : (slots.offsets.shrink (count + 1)).size = min (count + 1) slots.offsets.size :=
      Array.size_shrink
    have kept : index < (slots.offsets.shrink (count + 1)).size := by omega
    rw [offset?, offset?, Array.getElem?_eq_getElem kept, Array.getElem_shrink,
      Array.getElem?_eq_getElem]
  · rfl

/-- Cutting slots leaves none behind. -/
theorem count_truncate (begun : slots.offsets ≠ #[]) (count : Nat) :
    (slots.truncate count).count = min count slots.count := by
  have stored := size_offsets begun
  have size : (slots.offsets.shrink (count + 1)).size = min (count + 1) slots.offsets.size :=
    Array.size_shrink
  rw [truncate]
  split
  · exact count_of_size (size.trans (by omega))
  · omega

/-! ### Steps -/

/-- An operation leaves slots as they are if it is refused, and else makes of them what it should.
-/
private theorem perform_cases (begun : slots.offsets ≠ #[]) {operation : Operation Nat}
    (small : operation.Small) :
    (slots.perform operation).1 = slots ∨
      (∃ slot last, operation = .set slot last ∧ Exact slots.offsets.size slot ∧
        (slots.perform operation).1 = slots.putAt slot last) ∨
      (∃ count, Exact slots.offsets.size count ∧
        (slots.perform operation).1 = slots.padded count) ∨
      (∃ count, (slots.perform operation).1 = slots.truncate count) ∨
      (slots.perform operation).1 = empty slots.capacity := by
  cases operation with
  | set slot last =>
    have exact : Exact slots.offsets.size (slot + 1) := .inr small
    rw [perform, commit_eq begun exact]
    cases firstShortage? (slots.commitDemands slot last) with
    | some _ => exact .inl rfl
    | none => exact .inr (.inl ⟨slot, last, rfl, exact.of_succ, rfl⟩)
  | fill count =>
    have exact : Exact slots.offsets.size count := .inr small
    rw [perform, fill_eq begun exact]
    cases firstShortage? (slots.fillDemands count) with
    | some _ => exact .inl rfl
    | none => exact .inr (.inr (.inl ⟨count, exact, rfl⟩))
  | truncate count => exact .inr (.inr (.inr (.inl ⟨count, rfl⟩)))
  | reset => exact .inr (.inr (.inr (.inr rfl)))

/-- Slots that go on from others begin where these do. -/
private theorem GoesOn.zero {before after : Slots} {slot : Nat} (goesOn : before.GoesOn after slot)
    (zero : before.offset? 0 = some 0) : after.offset? 0 = some 0 := by
  rw [goesOn.offset? 0 (Nat.zero_le _), Nat.zero_min, zero]

/-- Whatever is done with slots, they begin at zero. -/
private theorem zero_perform (zero : slots.offset? 0 = some 0) {operation : Operation Nat}
    (small : operation.Small) : (slots.perform operation).1.offset? 0 = some 0 := by
  have begun := begun_of_zero zero
  rcases perform_cases begun small with
    same | ⟨slot, last, -, exact, put⟩ | ⟨count, exact, padded⟩ | ⟨count, cut⟩ | dropped
  · rwa [same]
  · rw [put]
    exact (goesOn_putAt begun exact last).zero zero
  · rw [padded]
    exact (goesOn_padded begun exact).zero zero
  · rw [cut, offset?_truncate begun (Nat.zero_le _), zero]
  · rw [dropped]
    rfl

/-- No offset of slots that go on from others is larger than one behind it, if that is so for the
others. -/
private theorem GoesOn.le {before after : Slots} {slot : Nat} (goesOn : before.GoesOn after slot)
    (rise : OffsetsRise before.offsets) {earlier later low high : Nat} (order : earlier ≤ later)
    (within : later ≤ slot) (lower : after.offset? earlier = some low)
    (upper : after.offset? later = some high) : low ≤ high := by
  rw [goesOn.offset? _ (Nat.le_trans order within)] at lower
  rw [goesOn.offset? _ within] at upper
  exact rising_iff.mp rise.2 _ _ _ _ (by omega) lower upper

/-- Padding keeps offsets from decreasing. -/
private theorem rise_padded (rise : OffsetsRise slots.offsets) {count : Nat}
    (exact : Exact slots.offsets.size count) : OffsetsRise (slots.padded count).offsets := by
  have begun := begun_of_zero rise.1
  have goesOn := goesOn_padded begun exact
  refine ⟨goesOn.zero rise.1, rising_iff.mpr ?_⟩
  intro earlier later low high order lower upper
  have within : later ≤ (slots.padded count).count := le_count_of_offset? upper
  rw [count_of_size (size_padded begun exact)] at within
  exact goesOn.le rise order within lower upper

/-- A slot that ends no earlier than it begins keeps offsets from decreasing. -/
private theorem rise_putAt (rise : OffsetsRise slots.offsets) {slot last : Nat}
    (exact : Exact slots.offsets.size slot) (forward : slots.beginning slot ≤ last) :
    OffsetsRise (slots.putAt slot last).offsets := by
  have begun := begun_of_zero rise.1
  have goesOn := goesOn_putAt begun exact last
  have counted := count_putAt begun exact last
  have ends : (slots.putAt slot last).offset? (slot + 1) = some last := by
    have behind := offset?_count (begun_of_zero (goesOn.zero rise.1))
    rwa [counted, lastOffset_putAt] at behind
  refine ⟨goesOn.zero rise.1, rising_iff.mpr ?_⟩
  intro earlier later low high order lower upper
  have within : later ≤ (slots.putAt slot last).count := le_count_of_offset? upper
  rw [counted] at within
  rcases Nat.lt_or_eq_of_le within with inside | rfl
  · exact goesOn.le rise order (by omega) lower upper
  · obtain rfl := Option.some.inj (ends.symm.trans upper)
    rcases Nat.lt_or_eq_of_le order with before | rfl
    · -- No offset up to the slot is larger than the one at which it begins.
      have first := goesOn.offset? slot (Nat.le_refl _)
      rw [offset?_beginning begun] at first
      exact Nat.le_trans (goesOn.le rise (by omega) (Nat.le_refl _) lower first) forward
    · obtain rfl := Option.some.inj (ends.symm.trans lower)
      exact Nat.le_refl _

/-- Cutting keeps offsets from decreasing. -/
private theorem rise_truncate (rise : OffsetsRise slots.offsets) (count : Nat) :
    OffsetsRise (slots.truncate count).offsets := by
  have begun := begun_of_zero rise.1
  refine ⟨(offset?_truncate begun (Nat.zero_le _)).trans rise.1, rising_iff.mpr ?_⟩
  intro earlier later low high order lower upper
  have within : later ≤ (slots.truncate count).count := le_count_of_offset? upper
  rw [count_truncate begun] at within
  have before : slots.offset? earlier = some low :=
    (offset?_truncate begun (by omega)).symm.trans lower
  have behind : slots.offset? later = some high :=
    (offset?_truncate begun (by omega)).symm.trans upper
  exact rising_iff.mp rise.2 _ _ _ _ order before behind

/-- An operation that commits no slot with an end before its beginning keeps offsets from
decreasing. -/
private theorem rise_perform (rise : OffsetsRise slots.offsets) {operation : Operation Nat}
    (small : operation.Small)
    (forward : ∀ slot last, operation = .set slot last → slots.beginning slot ≤ last) :
    OffsetsRise (slots.perform operation).1.offsets := by
  rcases perform_cases (begun_of_zero rise.1) small with
    same | ⟨slot, last, sets, exact, put⟩ | ⟨count, exact, padded⟩ | ⟨count, cut⟩ | dropped
  · rwa [same]
  · rw [put]
    exact rise_putAt rise exact (forward slot last sets)
  · rw [padded]
    exact rise_padded rise exact
  · rw [cut]
    exact rise_truncate rise count
  · rw [dropped]
    exact ⟨rfl, List.pairwise_singleton _ _⟩

/-! ### Runs -/

private theorem zero_runOf (zero : slots.offset? 0 = some 0) {operations : List (Operation Nat)}
    (small : ∀ operation ∈ operations, operation.Small) :
    (runOf perform slots operations).offset? 0 = some 0 := by
  induction operations generalizing slots with
  | nil => exact zero
  | cons operation rest inductionHypothesis =>
    obtain ⟨here, later⟩ := List.forall_mem_cons.mp small
    exact inductionHypothesis (zero_perform zero here) later

private theorem rise_runOf (rise : OffsetsRise slots.offsets) {operations : List (Operation Nat)}
    (small : ∀ operation ∈ operations, operation.Small) (forward : Forward slots operations) :
    OffsetsRise (runOf perform slots operations).offsets := by
  induction operations generalizing slots with
  | nil => exact rise
  | cons operation rest inductionHypothesis =>
    obtain ⟨here, later⟩ := List.forall_mem_cons.mp small
    exact inductionHypothesis (rise_perform rise here forward.1) later forward.2

/-- An element before an offset is in one of the slots before it. -/
private theorem exists_owner (zero : slots.offset? 0 = some 0) {element : Nat} :
    ∀ {slot offset : Nat}, slots.offset? slot = some offset → element < offset →
      ∃ owner, slots.Owns owner element
  | 0, offset, found, before => by
      obtain rfl := Option.some.inj (zero.symm.trans found)
      omega
  | slot + 1, offset, found, before => by
      have within := le_count_of_offset? found
      obtain ⟨first, begins⟩ := exists_offset? (begun_of_zero zero) (Nat.le_of_succ_le within)
      by_cases earlier : element < first
      · exact exists_owner zero begins earlier
      · exact ⟨slot, first, offset, bounds?_eq_some_iff.mpr ⟨begins, found⟩, by omega, before⟩

/-- Slots whose offsets never decrease lie side by side. -/
private theorem sideBySide_of_rise (rise : OffsetsRise slots.offsets) : slots.SideBySide where
  rise := rise
  owned_iff := by
    intro element
    have behind := offset?_count (begun_of_zero rise.1)
    constructor
    · exact exists_owner rise.1 behind
    · rintro ⟨slot, first, last, bounds, -, before⟩
      obtain ⟨-, ends⟩ := bounds?_eq_some_iff.mp bounds
      have most := rising_iff.mp rise.2 _ _ _ _ (le_count_of_offset? ends) ends behind
      omega
  unique := by
    rintro element one other ⟨first, last, bounds, inside⟩ ⟨start, stop, boundsAlso, within⟩
    obtain ⟨begins, ends⟩ := bounds?_eq_some_iff.mp bounds
    obtain ⟨beginsAlso, endsAlso⟩ := bounds?_eq_some_iff.mp boundsAlso
    exact slot_unique rise.2 begins ends beginsAlso endsAlso inside within

/-- What a commit makes of slots: the slots before the one that is committed keep their bounds,
those that are skipped are empty, and it is the last one, from where the one before it ends to the
end it is given. -/
structure Commits (before after : Slots) (slot last : Nat) : Prop where
  count : after.count = slot + 1
  kept : ∀ index < min slot before.count, ∃ bounds,
    before.bounds? index = some bounds ∧ after.bounds? index = some bounds
  skipped : ∀ index, before.count ≤ index → index < slot →
    after.bounds? index = some (before.lastOffset, before.lastOffset)
  ends : after.bounds? slot = some (before.beginning slot, last)

private theorem commits_putAt (begun : slots.offsets ≠ #[]) {slot : Nat}
    (exact : Exact slots.offsets.size slot) (last : Nat) :
    slots.Commits (slots.putAt slot last) slot last := by
  have goesOn := goesOn_putAt begun exact last
  have counted := count_putAt begun exact last
  have behind : (slots.putAt slot last).offset? (slots.putAt slot last).count = some last := by
    rw [offset?_count Array.push_ne_empty, lastOffset_putAt]
  rw [counted] at behind
  refine ⟨counted, ?_, ?_, bounds?_eq_some_iff.mpr ⟨?_, behind⟩⟩
  · intro index inside
    have held : index + 1 ≤ slots.count := by omega
    obtain ⟨first, begins⟩ := exists_offset? begun (Nat.le_of_succ_le held)
    obtain ⟨stop, ends⟩ := exists_offset? begun held
    refine ⟨(first, stop), bounds?_eq_some_iff.mpr ⟨begins, ends⟩, bounds?_eq_some_iff.mpr ⟨?_, ?_⟩⟩
    · rw [goesOn.offset? _ (by omega), Nat.min_eq_left (by omega), begins]
    · rw [goesOn.offset? _ (by omega), Nat.min_eq_left (by omega), ends]
  · intro index beyond before
    have last := offset?_count begun
    refine bounds?_eq_some_iff.mpr ⟨?_, ?_⟩
    · rw [goesOn.offset? _ (by omega), Nat.min_eq_right beyond, last]
    · rw [goesOn.offset? _ (by omega), Nat.min_eq_right (by omega), last]
  · rw [goesOn.offset? _ (Nat.le_refl _), offset?_beginning begun]

/-- Slots keep their boundaries. After any operations whose sizes a machine word holds, whether or
not they were refused, there are offsets and they begin at zero, every slot has its bounds, and an
accepted commit keeps the slots before the one that is committed, empties those that are skipped and
gives it its end. If no slot was ever committed with an end before its beginning, the slots lie side
by side, and freezing them never finds an offset that decreases. -/
theorem boundaries_of_run (capacity : Nat) {operations : List (Operation Nat)}
    (small : ∀ operation ∈ operations, operation.Small) :
    let slots := runOf perform (empty capacity) operations
    (slots.offsets ≠ #[] ∧ slots.offset? 0 = some 0) ∧
    (∀ slot last, (Operation.set slot last).Small → (slots.commit slot last).2 = none →
      slots.Commits (slots.commit slot last).1 slot last) ∧
    (Forward (empty capacity) operations → slots.SideBySide ∧
      ∀ entry parts, ((Buffer.slots entry slots).freeze parts).2 ≠ .error .decreasingOffsets) := by
  intro slots
  have zero : slots.offset? 0 = some 0 := zero_runOf rfl small
  have begun := begun_of_zero zero
  refine ⟨⟨begun, zero⟩, ?_, ?_⟩
  · intro slot last smallCommit accepted
    have exact : Exact slots.offsets.size (slot + 1) := .inr smallCommit
    rw [commit_eq begun exact] at accepted ⊢
    rw [fst_guarded_of_none accepted]
    exact commits_putAt begun exact.of_succ last
  · intro forward
    have rise : OffsetsRise slots.offsets :=
      rise_runOf ⟨rfl, List.pairwise_singleton _ _⟩ small forward
    refine ⟨sideBySide_of_rise rise, ?_⟩
    intro entry parts frozen
    cases parts with
    | nil => cases frozen
    | cons items rest =>
      have ordered : disordered slots.offsets = false :=
        disordered_eq_false_iff.mpr ⟨begun, rise.2⟩
      simp only [Buffer.freeze, ColumnData.ofItems?, ordered, Bool.false_eq_true,
        if_false] at frozen
      split at frozen <;> cases frozen

/-- A first slot, a third one that leaves the second one empty, a fourth one that finds no room, and
the second one committed anew, which drops those behind it: element 2 is in the second slot. -/
theorem boundaries_of_run_recommitted :
    let operations : List (Operation Nat) := [.set 0 2, .set 2 5, .set 3 6, .set 1 3]
    let slots := runOf perform (empty 16) operations
    (∀ operation ∈ operations, operation.Small) ∧ Forward (empty 16) operations ∧
      slots.SideBySide ∧ slots.Owns 1 2 ∧ (slots.commit 2 3).2 = none ∧
      slots.Commits (slots.commit 2 3).1 2 3 := by
  intro operations slots
  have small : ∀ operation ∈ operations, operation.Small := by decide +kernel
  have forward : Forward (empty 16) operations := by
    refine ⟨?_, ?_, ?_, ?_, trivial⟩
    all_goals
      rintro slot last ⟨⟩
      decide +kernel
  have reached : slots = ⟨16, #[0, 2, 3]⟩ := by decide +kernel
  obtain ⟨-, commits, sideBySide⟩ := boundaries_of_run 16 small
  have accepted : (slots.commit 2 3).2 = none := by
    rw [reached]
    decide +kernel
  refine ⟨small, forward, (sideBySide forward).1, ⟨2, 3, ?_, by decide⟩, accepted,
    commits 2 3 (by decide +kernel) accepted⟩
  rw [reached]
  decide

/-- Of the largest slot number the sizes wrap around: the commit is accepted, but no slot is left,
and the one offset is not zero. -/
theorem boundaries_lost_of_wrapped :
    let slots := runOf perform (empty 64) [.set 0 2]
    (slots.commit 18446744073709551615 5).2 = none ∧
      (slots.commit 18446744073709551615 5).1.offsets = #[5] ∧
      (slots.commit 18446744073709551615 5).1.count = 0 := by
  decide +kernel

end Slots

end Columnar
