import Columnar.Proofs.Buffer.Measures
import Columnar.Proofs.Buffer.Runs

/-!
# What a write is refused for

A write to a buffer of any kind leads to so many bytes and offsets, which it demands. If one of them
is past its limit, the write is refused with that one and leaves the buffer as it was; else it does
what it should. What a buffer holds has room already, so that a write which adds nothing to a part
of it is never refused for that part.
-/

namespace Columnar

/-- So many bytes, or so large an offset, and what that may be at most. -/
structure Demand where
  requested : Nat
  limit : Nat
  deriving DecidableEq

namespace Demand

/-- More is requested than there may be. -/
def Exceeds (demand : Demand) : Prop :=
  demand.limit < demand.requested

instance (demand : Demand) : Decidable demand.Exceeds :=
  inferInstanceAs (Decidable (_ < _))

/-- What is reported of a demand that exceeds its limit. -/
def shortage (demand : Demand) : Shortage :=
  ⟨demand.requested, demand.limit⟩

end Demand

/-- What is reported of demands, the first that exceeds its limit. -/
def firstShortage? : List Demand → Option Shortage
  | [] => none
  | demand :: rest => (shortage? demand.requested demand.limit).or (firstShortage? rest)

/-- What is reported is one of the demands, and exceeds its limit. -/
theorem exceeds_of_firstShortage? {demands : List Demand} {shortage : Shortage}
    (found : firstShortage? demands = some shortage) :
    ∃ demand ∈ demands, demand.Exceeds ∧ shortage = demand.shortage := by
  induction demands with
  | nil => cases found
  | cons demand rest inductionHypothesis =>
    rcases Option.or_eq_some_iff.mp found with here | ⟨-, there⟩
    · obtain ⟨exceeds, rfl⟩ := shortage?_eq_some_iff.mp here
      exact ⟨demand, List.mem_cons_self, exceeds, rfl⟩
    · obtain ⟨other, member, exceeds⟩ := inductionHypothesis there
      exact ⟨other, List.mem_cons_of_mem demand member, exceeds⟩

/-- Nothing is reported exactly if no demand exceeds its limit. -/
theorem firstShortage?_eq_none_iff {demands : List Demand} :
    firstShortage? demands = none ↔ ∀ demand ∈ demands, ¬demand.Exceeds := by
  induction demands with
  | nil => exact ⟨fun _ => nofun, fun _ => rfl⟩
  | cons demand rest inductionHypothesis =>
    rw [firstShortage?, Option.or_eq_none_iff, shortage?_eq_none_iff, inductionHypothesis,
      List.forall_mem_cons, Demand.Exceeds, Nat.not_lt]

/-- An operation that is measured before it changes anything. It is refused exactly if one of its
demands exceeds the limit; what is reported is such a demand; and a refused operation has changed
nothing. -/
structure Measured {State Fault : Type} (overflow : Shortage → Fault) (demands : List Demand)
    (before : State) (outcome : State × Option Fault) : Prop where
  refused_iff : outcome.2.isSome ↔ ∃ demand ∈ demands, demand.Exceeds
  offending : ∀ fault, outcome.2 = some fault →
    ∃ demand ∈ demands, demand.Exceeds ∧ fault = overflow demand.shortage
  unchanged : outcome.2.isSome → outcome.1 = before

/-- An operation is measured if it reports the first of its demands that exceeds the limit. -/
theorem measured_guarded {State Fault : Type} (overflow : Shortage → Fault) (demands : List Demand)
    (before after : State) :
    Measured overflow demands before
      (guarded ((firstShortage? demands).map overflow) before after) := by
  cases reported : firstShortage? demands with
  | none =>
    have within := firstShortage?_eq_none_iff.mp reported
    refine ⟨⟨nofun, ?_⟩, nofun, nofun⟩
    rintro ⟨demand, member, exceeds⟩
    exact absurd exceeds (within demand member)
  | some shortage =>
    obtain ⟨demand, member, exceeds, rfl⟩ := exceeds_of_firstShortage? reported
    refine ⟨⟨fun _ => ⟨demand, member, exceeds⟩, fun _ => rfl⟩, ?_, fun _ => rfl⟩
    rintro _ ⟨⟩
    exact ⟨demand, member, exceeds, rfl⟩

/-! ### Scalars -/

/-- What byte strings demand: all their bytes and all their offsets within the capacity, and the
last offset within what can be stored. -/
def ByteStrings.demands (capacity : Nat) (values : List ByteArray) : List Demand :=
  let bytes := (values.map ByteArray.size).sum
  [⟨bytes, capacity⟩, ⟨(values.length + 1) * offsetBytes, capacity⟩, ⟨bytes, maxOffset⟩]

namespace ScalarType

/-- What the scalars of a column demand. -/
def demands (type : ScalarType) (capacity : Nat) (values : List Scalar) : List Demand :=
  match type with
  | .integer => [⟨values.length * 4, capacity⟩]
  | .long | .double => [⟨values.length * 8, capacity⟩]
  | .boolean => [⟨(values.length + 7) / 8, capacity⟩]
  | .string => ByteStrings.demands capacity (values.map Scalar.textBytes)
  | .bytes => ByteStrings.demands capacity (values.map Scalar.toBytes)

/-- What an operation, in the kept form, on a column of the scalars of a list demands: what there is
after it. An operation that adds no scalar and writes none demands nothing. -/
def demandsOf (type : ScalarType) (capacity : Nat) (values : List Scalar)
    (operation : Operation Scalar) : List Demand :=
  match operation with
  | .set _ _ => type.demands capacity (type.onList values operation)
  | .fill count =>
      if values.length < count then type.demands capacity (type.onList values operation) else []
  | .truncate _ | .reset => []

/-- A write measures everything there is after it. -/
theorem writeShortage?_eq (type : ScalarType) (capacity : Nat) (values : List Scalar) :
    type.writeShortage? capacity values = firstShortage? (type.demands capacity values) := by
  cases type <;> simp [writeShortage?, demands, firstShortage?, Cells.shortage?, Cell.bytesFor,
    ByteStrings.writeShortage?, ByteStrings.demands]

/-- Scalars fit if nothing that they demand exceeds its limit. -/
theorem fits_iff {type : ScalarType} {capacity : Nat} {values : List Scalar} :
    type.Fits capacity values ↔ firstShortage? (type.demands capacity values) = none := by
  rw [← writeShortage?_eq]
  exact (measures_write capacity type values).none_iff.symm

/-- Padding byte strings measures only their offsets, since their bytes are those there were. -/
private theorem firstShortage?_padded {capacity count : Nat} {values : List Scalar}
    {read : Scalar → ByteArray} {blank : Scalar} (reads : read blank = .empty)
    (room : values = [] ∨ stringsFit capacity (values.map read)) (short : values.length < count) :
    firstShortage? (ByteStrings.demands capacity ((padTo blank count values).map read)) =
      shortage? ((count + 1) * offsetBytes) capacity := by
  have bytes : ((padTo blank count values).map read |>.map ByteArray.size).sum =
      ((values.map read).map ByteArray.size).sum := by
    simp [padTo, reads]
  have within : ((values.map read).map ByteArray.size).sum ≤ capacity ∧
      ((values.map read).map ByteArray.size).sum ≤ maxOffset := by
    rcases room with rfl | ⟨⟨-, small⟩, data⟩
    · exact ⟨Nat.zero_le _, Nat.zero_le _⟩
    · exact ⟨data, small⟩
  have length : ((padTo blank count values).map read).length = count := by
    rw [List.length_map, length_padTo]
    omega
  rw [ByteStrings.demands, bytes, length]
  simp only [firstShortage?, shortage?_eq_none_iff.mpr within.1,
    shortage?_eq_none_iff.mpr within.2, Option.none_or, Option.or_none]

/-- What an operation is refused for is the first of its demands that exceeds the limit, if what
there is has room. -/
theorem refusal?_eq {type : ScalarType} {capacity : Nat} {values : List Scalar}
    (room : values = [] ∨ type.Fits capacity values) (operation : Operation Scalar) :
    type.refusal? capacity values operation =
      firstShortage? (type.demandsOf capacity values operation) := by
  cases operation with
  | set index value => exact writeShortage?_eq type capacity _
  | fill count =>
    rw [refusal?, demandsOf]
    split
    · rename_i short
      cases type with
      | string => exact (firstShortage?_padded rfl room short).symm
      | bytes => exact (firstShortage?_padded rfl room short).symm
      | _ =>
        simp [padShortage?, demands, firstShortage?, Cells.shortage?, Cell.bytesFor, onList,
          Operation.onList, Nat.max_eq_right (Nat.le_of_lt short)]
    · rfl
  | _ => rfl

/-- What an accepted operation makes of the scalars of a column with room has room. -/
theorem room_onList {type : ScalarType} {capacity : Nat} {values : List Scalar}
    (room : values = [] ∨ type.Fits capacity values) {operation : Operation Scalar}
    (accepted : type.refusal? capacity values operation = none) :
    type.onList values operation = [] ∨ type.Fits capacity (type.onList values operation) := by
  have demanded := accepted
  rw [refusal?_eq room] at demanded
  cases operation with
  | set index value => exact .inr (fits_iff.mpr demanded)
  | fill count =>
    by_cases short : values.length < count
    · rw [demandsOf, if_pos short] at demanded
      exact .inr (fits_iff.mpr demanded)
    · rw [onList, Operation.onList, padTo_of_le _ (Nat.not_lt.mp short)]
      exact room
  | truncate count =>
    rcases room with rfl | fits
    · exact .inl List.take_nil
    · rw [← List.take_append_drop count values] at fits
      exact .inr (fits_ofAppend fits)
  | reset => exact .inl rfl

end ScalarType

/-! ### Slots -/

namespace Slots

/-- Slots end as others do up to a slot, and those that the others do not have are empty. -/
structure GoesOn (before after : Slots) (slot : Nat) : Prop where
  capacity : after.capacity = before.capacity
  offset? : ∀ index ≤ slot, after.offset? index = before.offset? (min index before.count)

theorem size_offsets {slots : Slots} (begun : slots.offsets ≠ #[]) :
    slots.offsets.size = slots.count + 1 :=
  size_eq_countOf_succ begun

theorem count_of_size {slots : Slots} {count : Nat} (size : slots.offsets.size = count + 1) :
    slots.count = count :=
  countOf_of_size size

theorem offsets_pad {slots : Slots} (begun : slots.offsets ≠ #[]) {count : Nat}
    (exact : Exact slots.offsets.size count) (more : slots.count ≤ count) :
    (slots.pad count).offsets =
      slots.offsets ++ Array.replicate (count - slots.count) slots.lastOffset := by
  have size := size_offsets begun
  rw [pad, resize_eq exact (by omega), size, Nat.add_sub_add_right]
  rfl

theorem size_pad {slots : Slots} (begun : slots.offsets ≠ #[]) {count : Nat}
    (exact : Exact slots.offsets.size count) (more : slots.count ≤ count) :
    (slots.pad count).offsets.size = count + 1 := by
  have size := size_offsets begun
  rw [offsets_pad begun exact more, Array.size_append, Array.size_replicate]
  omega

/-- Padding goes on with empty slots where the last one ends. -/
theorem goesOn_pad {slots : Slots} (begun : slots.offsets ≠ #[]) {count : Nat}
    (exact : Exact slots.offsets.size count) (more : slots.count ≤ count) :
    slots.GoesOn (slots.pad count) count where
  capacity := rfl
  offset? := by
    intro index within
    have size := size_offsets begun
    rw [offset?, offset?, offsets_pad begun exact more]
    by_cases inside : index < slots.offsets.size
    · rw [Array.getElem?_append_left inside, Nat.min_eq_left (by omega)]
    · rw [Array.getElem?_append_right (Nat.not_lt.mp inside), Array.getElem?_replicate,
        if_pos (by omega), Nat.min_eq_right (by omega), lastOffset, endOf,
        Array.back?_eq_getElem?, show slots.offsets.size - 1 = slots.count by omega,
        Array.getElem?_eq_getElem (by omega)]
      rfl

/-- Padding to the slots there are changes nothing. -/
theorem pad_count {slots : Slots} (begun : slots.offsets ≠ #[]) :
    slots.pad slots.count = slots := by
  have size := size_offsets begun
  have exact : Exact slots.offsets.size slots.count := .inl (by omega)
  rw [pad, resize_eq exact (by omega), size, Nat.sub_self, Array.replicate_zero,
    Array.append_empty]

/-- What filling up to a number of slots demands: the offsets, if there are fewer slots. -/
def fillDemands (slots : Slots) (count : Nat) : List Demand :=
  if slots.count < count then [⟨(count + 1) * offsetBytes, slots.capacity⟩] else []

/-- Slots with empty ones behind them if there are fewer than a number. -/
def padded (slots : Slots) (count : Nat) : Slots :=
  slots.pad (max slots.count count)

theorem exact_max {slots : Slots} (begun : slots.offsets ≠ #[]) {count : Nat}
    (exact : Exact slots.offsets.size count) :
    Exact slots.offsets.size (max slots.count count) := by
  have size := size_offsets begun
  rcases Nat.le_total count slots.count with enough | more
  · rw [Nat.max_eq_left enough]
    exact .inl (by omega)
  · rwa [Nat.max_eq_right more]

theorem size_padded {slots : Slots} (begun : slots.offsets ≠ #[]) {count : Nat}
    (exact : Exact slots.offsets.size count) :
    (slots.padded count).offsets.size = max slots.count count + 1 :=
  size_pad begun (exact_max begun exact) (Nat.le_max_left _ _)

theorem goesOn_padded {slots : Slots} (begun : slots.offsets ≠ #[]) {count : Nat}
    (exact : Exact slots.offsets.size count) :
    slots.GoesOn (slots.padded count) (max slots.count count) :=
  goesOn_pad begun (exact_max begun exact) (Nat.le_max_left _ _)

theorem fill_eq {slots : Slots} (begun : slots.offsets ≠ #[]) {count : Nat}
    (exact : Exact slots.offsets.size count) :
    slots.fill count =
      guarded (firstShortage? (slots.fillDemands count)) slots (slots.padded count) := by
  rw [fill, fillDemands, padded, offsetsSize_eq exact]
  split
  · rename_i short
    rw [firstShortage?, firstShortage?, Option.or_none, Nat.max_eq_right (Nat.le_of_lt short)]
    cases shortage? ((count + 1) * offsetBytes) slots.capacity <;> rfl
  · rename_i enough
    rw [Nat.max_eq_left (Nat.not_lt.mp enough), pad_count begun]
    rfl

/-- What committing a slot demands: the offsets up to its end, and the end itself. -/
def commitDemands (slots : Slots) (slot last : Nat) : List Demand :=
  [⟨(slot + 2) * offsetBytes, slots.capacity⟩, ⟨last, maxOffset⟩]

/-- The slots before a slot, with empty ones where some are missing, and it as the last one. -/
def putAt (slots : Slots) (slot last : Nat) : Slots :=
  { slots with offsets := ((slots.padded slot).offsets.shrink (slot + 1)).push last }

/-- Committing a slot fills the slots before it, which is never refused any more. -/
theorem commit_eq {slots : Slots} (begun : slots.offsets ≠ #[]) {slot : Nat}
    (exact : Exact slots.offsets.size (slot + 1)) (last : Nat) :
    slots.commit slot last =
      guarded (firstShortage? (slots.commitDemands slot last)) slots (slots.putAt slot last) := by
  have exactBefore := exact.of_succ
  unfold commit
  simp only [offsetsSize_eq exact, offsetsFor_eq exactBefore]
  rw [commitDemands, firstShortage?, firstShortage?, firstShortage?, Option.or_none]
  cases measured : (shortage? ((slot + 1 + 1) * offsetBytes) slots.capacity).or
      (shortage? last maxOffset) with
  | some shortage => rfl
  | none =>
    have offsets := shortage?_eq_none_iff.mp (Option.or_eq_none_iff.mp measured).1
    have filled : firstShortage? (slots.fillDemands slot) = none := by
      rw [firstShortage?_eq_none_iff, fillDemands]
      split
      · rw [List.forall_mem_singleton]
        simp only [Demand.Exceeds]
        unfold offsetBytes at *
        omega
      · nofun
    rw [fill_eq begun exactBefore, filled]
    rfl

section Put

variable {slots : Slots} (begun : slots.offsets ≠ #[]) {slot : Nat}
  (exact : Exact slots.offsets.size slot) (last : Nat)

include begun exact

theorem count_putAt : (slots.putAt slot last).count = slot + 1 := by
  have size := size_padded begun exact
  apply count_of_size
  simp only [putAt, Array.size_push, Array.size_shrink]
  omega

theorem goesOn_putAt : slots.GoesOn (slots.putAt slot last) slot where
  capacity := rfl
  offset? := by
    intro index within
    have size := size_padded begun exact
    have kept : index < ((slots.padded slot).offsets.shrink (slot + 1)).size := by
      rw [Array.size_shrink]
      omega
    rw [← (goesOn_padded begun exact).offset? index (by omega)]
    simp only [Slots.offset?, putAt]
    rw [Array.getElem?_push_lt kept, Array.getElem_shrink, Array.getElem?_eq_getElem]

end Put

theorem lastOffset_putAt (slots : Slots) (slot last : Nat) :
    (slots.putAt slot last).lastOffset = last := by
  simp [putAt, lastOffset, endOf]

/-! Slots keep the offset that they begin with. -/

theorem begun_empty (capacity : Nat) : (empty capacity).offsets ≠ #[] := by
  simp [empty]

theorem begun_fill {slots : Slots} (begun : slots.offsets ≠ #[]) {count : Nat}
    (exact : Exact slots.offsets.size count) : (slots.fill count).1.offsets ≠ #[] := by
  rw [fill_eq begun exact]
  cases firstShortage? (slots.fillDemands count) with
  | some shortage => exact begun
  | none =>
    intro empty
    have size := size_padded begun exact
    rw [guarded_none] at empty
    rw [empty, Array.size_empty] at size
    omega

theorem begun_commit {slots : Slots} (begun : slots.offsets ≠ #[]) {slot : Nat}
    (exact : Exact slots.offsets.size (slot + 1)) (last : Nat) :
    (slots.commit slot last).1.offsets ≠ #[] := by
  rw [commit_eq begun exact]
  cases firstShortage? (slots.commitDemands slot last) with
  | some shortage => exact begun
  | none => exact Array.push_ne_empty

theorem begun_truncate {slots : Slots} (begun : slots.offsets ≠ #[]) (count : Nat) :
    (slots.truncate count).offsets ≠ #[] := by
  have some : 0 < slots.offsets.size := Array.size_pos_iff.mpr begun
  rw [truncate]
  split
  · intro empty
    have size := congrArg Array.size empty
    rw [Array.size_shrink, Array.size_empty] at size
    omega
  · exact begun

end Slots

/-! ### Buffers of any kind -/

namespace Buffer

/-- Whether a buffer takes a scalar: it is of the type of the buffer, or an integer for longs. -/
def Takes (buffer : Buffer) (value : Scalar) : Prop :=
  buffer.type? = some value.type ∨ buffer.type? = some .long ∧ value.type = .integer

instance (buffer : Buffer) (value : Scalar) : Decidable (buffer.Takes value) :=
  inferInstanceAs (Decidable (_ ∨ _))

/-- Whether the values of a buffer are told apart by offsets. -/
def hasOffsets : Buffer → Bool
  | .scalar column => column.type.hasOffsets
  | .slots _ _ => true
  | .group _ _ _ => false

/-- What a buffer can be after any operations, from an empty buffer on. Where there are offsets, a
machine word holds the size of those that are asked for. -/
inductive Reached : Buffer → Prop where
  | ofType (type : ScalarType) (capacity : Nat) : Reached (.ofType type capacity)
  | ofEntry (entry capacity : Nat) : Reached (.ofEntry entry capacity)
  | ofChildren (names : List String) (children : List Nat) : Reached (.ofChildren names children)
  | performed {buffer : Buffer} (reached : Reached buffer) (operation : Operation Scalar)
      (small : buffer.hasOffsets → operation.Small) : Reached (buffer.perform operation).1
  | committed {entry : Nat} {slots : Slots} (reached : Reached (.slots entry slots))
      (slot last : Nat) (small : (slot + 2) * offsetBytes < wordRange) :
      Reached (.slots entry (slots.commit slot last).1)
  | frozen {buffer : Buffer} (reached : Reached buffer) (parts : List ColumnData) :
      Reached (buffer.freeze parts).1

/-- What every operation keeps of a buffer: it is that of scalars of its type which have room, or of
slots that begin somewhere. -/
def HasRoom : Buffer → Prop
  | .scalar column => ∃ values, IsColumn column.type column.capacity (.scalar column) values ∧
      (values = [] ∨ column.type.Fits column.capacity values)
  | .slots _ ends => ends.offsets ≠ #[]
  | .group _ _ _ => True

theorem hasRoom_ofScalars {type : ScalarType} {capacity : Nat} {values : List Scalar}
    (typed : ∀ value ∈ values, value.type = type)
    (room : values = [] ∨ type.Fits capacity values) :
    HasRoom (.scalar (.ofScalars type capacity values)) := by
  refine ⟨values, ⟨?_, ?_⟩, ?_⟩
  all_goals rw [ScalarBuffer.type_ofScalars]
  · rw [ScalarBuffer.capacity_ofScalars]
  · exact typed
  · rw [ScalarBuffer.capacity_ofScalars]
    exact room

/-- An operation keeps the scalars of a column in their room. -/
private theorem hasRoom_perform_ofScalars {type : ScalarType} {capacity : Nat}
    {values : List Scalar} (typed : ∀ value ∈ values, value.type = type)
    (room : values = [] ∨ type.Fits capacity values) {operation : Operation Scalar}
    (small : type.hasOffsets → operation.Small) :
    HasRoom ((scalar (.ofScalars type capacity values)).perform operation).1 := by
  cases keeps : operation.keep? type with
  | none =>
    obtain ⟨_, same⟩ := perform_ofScalars_of_not_kept keeps capacity values
    rw [same]
    exact hasRoom_ofScalars typed room
  | some kept =>
    rw [perform_ofScalars keeps small]
    cases measured : type.refusal? capacity values kept with
    | some shortage => exact hasRoom_ofScalars typed room
    | none =>
      exact hasRoom_ofScalars (ScalarType.type_of_mem_onList keeps typed)
        (ScalarType.room_onList room measured)

private theorem HasRoom.perform {buffer : Buffer} (room : buffer.HasRoom)
    {operation : Operation Scalar} (small : buffer.hasOffsets → operation.Small) :
    (buffer.perform operation).1.HasRoom := by
  cases buffer with
  | scalar column =>
    obtain ⟨values, ⟨same, typed⟩, fits⟩ := room
    rw [same]
    exact hasRoom_perform_ofScalars typed fits small
  | slots entry slots =>
    cases operation with
    | set index value => exact room
    | fill count => exact Slots.begun_fill room (.inr (small rfl))
    | truncate count => exact Slots.begun_truncate room count
    | reset => exact Slots.begun_empty slots.capacity
  | group names parts count => cases operation <;> trivial

private theorem HasRoom.freeze {buffer : Buffer} (room : buffer.HasRoom)
    (parts : List ColumnData) : (buffer.freeze parts).1.HasRoom := by
  cases buffer with
  | scalar column =>
    rw [Buffer.freeze, ScalarBuffer.reset_eq]
    exact hasRoom_ofScalars (List.forall_mem_nil _) (.inl rfl)
  | slots entry slots =>
    cases parts with
    | nil => exact room
    | cons items rest => exact Slots.begun_empty slots.capacity
  | group names parts count => trivial

/-- Every buffer that can be reached has room for what it holds. -/
theorem Reached.hasRoom {buffer : Buffer} (reached : buffer.Reached) : buffer.HasRoom := by
  induction reached with
  | ofType type capacity =>
    rw [Buffer.ofType, ← ScalarBuffer.ofScalars_nil]
    exact hasRoom_ofScalars (List.forall_mem_nil _) (.inl rfl)
  | ofEntry entry capacity => exact Slots.begun_empty capacity
  | ofChildren names children => trivial
  | performed _ operation small room => exact room.perform small
  | committed _ slot last small begun => exact Slots.begun_commit begun (.inr small) last
  | frozen _ parts room => exact room.freeze parts

/-- What operations do to the buffer of the scalars of a list, if a machine word holds the size of
their offsets. Those it takes are refused exactly if what they lead to exceeds a limit, and else
make of the list what they should. What is there already can always be replaced by a value of the
same size. -/
structure ScalarWrites (type : ScalarType) (capacity : Nat) (buffer : Buffer)
    (values : List Scalar) : Prop where
  column : IsColumn type capacity buffer values
  measured : ∀ operation kept, operation.keep? type = some kept →
    (type.hasOffsets → operation.Small) →
    Measured .overflow (type.demandsOf capacity values kept) buffer (buffer.perform operation)
  accepted : ∀ operation kept, operation.keep? type = some kept →
    (type.hasOffsets → operation.Small) → (buffer.perform operation).2 = none →
      IsColumn type capacity (buffer.perform operation).1 (type.onList values kept)
  replaced : type ≠ .string → type ≠ .bytes → ∀ index value kept, index < values.length →
    type.keep? value = some kept →
      ∃ after, buffer.set index value = (after, none) ∧
        IsColumn type capacity after (values.set index kept)

/-- What filling and committing does to slots, if a machine word holds the size of the offsets. It
is refused exactly if what it leads to exceeds a limit, and else leads to so many slots that go on
from those before. -/
structure SlotWrites (entry : Nat) (slots : Slots) : Prop where
  commit_measured : ∀ slot last, (slot + 2) * offsetBytes < wordRange →
    Measured id (slots.commitDemands slot last) slots (slots.commit slot last)
  commit_accepted : ∀ slot last, (slot + 2) * offsetBytes < wordRange →
    (slots.commit slot last).2 = none →
    (slots.commit slot last).1.count = slot + 1 ∧ (slots.commit slot last).1.lastOffset = last ∧
      slots.GoesOn (slots.commit slot last).1 slot
  fill_measured : ∀ count, (count + 1) * offsetBytes < wordRange →
    Measured id (slots.fillDemands count) (.slots entry slots)
      ((Buffer.slots entry slots).fill count)
  fill_accepted : ∀ count, (count + 1) * offsetBytes < wordRange →
    ((Buffer.slots entry slots).fill count).2 = none →
    ∃ after, ((Buffer.slots entry slots).fill count).1 = .slots entry after ∧
      after.count = max slots.count count ∧ slots.GoesOn after (max slots.count count)

/-- A value that is there is replaced by one of the same size in the same room. -/
private theorem fits_replaced {type : ScalarType} (noText : type ≠ .string)
    (noBytes : type ≠ .bytes) {capacity index : Nat} {values : List Scalar}
    (inside : index < values.length) (kept : Scalar) (fits : type.Fits capacity values) :
    type.writeAt values index kept = values.set index kept ∧
      type.Fits capacity (values.set index kept) := by
  cases type <;> simp_all [ScalarType.writeAt, replaceAt, ScalarType.Fits]

theorem scalarWrites {type : ScalarType} {capacity : Nat} {buffer : Buffer} {values : List Scalar}
    (column : IsColumn type capacity buffer values)
    (room : values = [] ∨ type.Fits capacity values) :
    ScalarWrites type capacity buffer values := by
  obtain ⟨rfl, typed⟩ := column
  refine ⟨⟨rfl, typed⟩, ?_, ?_, ?_⟩
  · intro operation kept keeps small
    rw [perform_ofScalars keeps small, ScalarType.refusal?_eq room]
    exact measured_guarded _ _ _ _
  · intro operation kept keeps small accepted
    rw [perform_ofScalars keeps small] at accepted ⊢
    exact ⟨fst_guarded_of_none accepted, ScalarType.type_of_mem_onList keeps typed⟩
  · intro noText noBytes index value kept inside keeps
    have some : values ≠ [] := List.ne_nil_of_length_pos (Nat.zero_lt_of_lt inside)
    obtain ⟨written, fits⟩ :=
      fits_replaced noText noBytes inside kept (room.resolve_left some)
    have keepsSet := Operation.keep?_set keeps index
    have granted : type.refusal? capacity values (.set index kept) = none := by
      rw [ScalarType.refusal?, written]
      exact (ScalarType.measures_write capacity type _).none_iff.mpr fits
    have noOffsets : type.hasOffsets = false := by
      cases type <;> first | rfl | contradiction
    have performed := perform_ofScalars keepsSet (by simp [noOffsets]) capacity values
    rw [granted, ScalarType.onList, Operation.onList, written] at performed
    refine ⟨_, performed, rfl, ?_⟩
    rw [← written]
    exact ScalarType.type_of_mem_onList keepsSet typed

theorem slotWrites {slots : Slots} (begun : slots.offsets ≠ #[]) (entry : Nat) :
    SlotWrites entry slots where
  commit_measured slot last small := by
    have measured := measured_guarded id (slots.commitDemands slot last) slots
      (slots.putAt slot last)
    rwa [Option.map_id_apply, ← Slots.commit_eq begun (.inr small)] at measured
  commit_accepted slot last small accepted := by
    have exact : Exact slots.offsets.size slot := Exact.of_succ (.inr small)
    rw [Slots.commit_eq begun (.inr small)] at accepted ⊢
    rw [fst_guarded_of_none accepted]
    exact ⟨Slots.count_putAt begun exact last, Slots.lastOffset_putAt .., 
      Slots.goesOn_putAt begun exact last⟩
  fill_measured count small := by
    have measured := measured_guarded id (slots.fillDemands count) (.slots entry slots)
      (Buffer.slots entry (slots.padded count))
    rw [Option.map_id_apply] at measured
    simp only [fill, Slots.fill_eq begun (.inr small)]
    generalize firstShortage? (slots.fillDemands count) = reported at measured ⊢
    cases reported <;> exact measured
  fill_accepted count small accepted := by
    have exact : Exact slots.offsets.size count := .inr small
    simp only [fill, Slots.fill_eq begun exact] at accepted ⊢
    rw [fst_guarded_of_none accepted]
    exact ⟨_, rfl, Slots.count_of_size (Slots.size_padded begun exact),
      Slots.goesOn_padded begun exact⟩

/-- A column takes a scalar if it keeps it in some form. -/
private theorem takes_iff_keep? (type : ScalarType) (capacity : Nat) (values : List Scalar)
    (value : Scalar) :
    (scalar (.ofScalars type capacity values)).Takes value ↔ (type.keep? value).isSome := by
  rw [ScalarType.keep?_isSome_iff, Takes, type?, ScalarBuffer.type_ofScalars]
  simp only [Option.some.injEq, eq_comm]

/-- A scalar that a column does not take is refused for its type. -/
private theorem set_of_not_takes {type : ScalarType} {capacity : Nat} {values : List Scalar}
    {value : Scalar} (refused : ¬(scalar (.ofScalars type capacity values)).Takes value)
    (index : Nat) :
    (scalar (.ofScalars type capacity values)).set index value =
      (.scalar (.ofScalars type capacity values),
        some (.mismatch (scalar (.ofScalars type capacity values)).type? value.type)) := by
  rw [takes_iff_keep?, Option.not_isSome_iff_eq_none] at refused
  rw [type?, ScalarBuffer.type_ofScalars]
  exact perform_ofScalars_of_mismatch refused capacity values

/-- What is short of room is not of another type. -/
private theorem overflow_ne_mismatch (fault : Option Shortage) (held : Option ScalarType)
    (given : ScalarType) :
    (fault.map WriteError.shortage).map BufferError.refused ≠ some (.mismatch held given) := by
  cases fault <;> cases held <;> simp [BufferError.mismatch]

/-- A scalar that a column takes is never refused for its type. -/
private theorem ne_mismatch_of_takes {column : ScalarBuffer} {value : Scalar}
    (takes : (scalar column).Takes value) (index : Nat) (held : Option ScalarType)
    (given : ScalarType) : ((scalar column).set index value).2 ≠ some (.mismatch held given) := by
  simp only [Takes, type?, Option.some.injEq] at takes
  cases column <;> cases value <;>
    first
    | exact overflow_ne_mismatch _ held given
    | simp [ScalarBuffer.type, Scalar.type] at takes

end Buffer

end Columnar
