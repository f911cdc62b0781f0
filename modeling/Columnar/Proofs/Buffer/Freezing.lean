import Columnar.Proofs.Batch.Assembly
import Columnar.Proofs.Buffer.Forest
import Columnar.Proofs.Buffer.Leaves
import Mathlib.Data.List.Forall2

/-!
# Freezing

Freezing a buffer of a forest hands over just what is stored in it and below it, and empties these
buffers and no others. It succeeds when the columns of every tuple below are equally long, the slots
of every array end within its elements and scalar buffers store what their type says; what was
written as scalars always does.
-/

namespace Columnar

/-! ### Emptied buffers -/

namespace Buffer

/-- The offsets that tell the values or slots apart, where there are any. -/
def offsets? : Buffer → Option (Array Nat)
  | .scalar column => column.offsets?
  | .slots _ ends => some ends.offsets
  | .group _ _ _ => none

@[simp] theorem count_reset (buffer : Buffer) : buffer.reset.count = 0 := by
  cases buffer with
  | scalar column => cases column <;> rfl
  | _ => rfl

@[simp] theorem capacity?_reset (buffer : Buffer) : buffer.reset.capacity? = buffer.capacity? := by
  cases buffer with
  | scalar column => cases column <;> rfl
  | _ => rfl

@[simp] theorem children_reset (buffer : Buffer) : buffer.reset.children = buffer.children := by
  cases buffer <;> rfl

/-- A buffer that gets the data of all its parts is empty afterwards, also when these do not fit. -/
theorem fst_freeze {buffer : Buffer} {parts : List ColumnData}
    (each : parts.length = buffer.children.length) : (buffer.freeze parts).1 = buffer.reset := by
  cases buffer with
  | slots entry ends =>
    cases parts with
    | nil => cases each
    | cons items rest => rfl
  | _ => rfl

end Buffer

namespace Store

variable {store : Store}

theorem get?_replace_self {id : Nat} {old : Buffer} (found : store.get? id = some old)
    (buffer : Buffer) : (store.replace id buffer).get? id = some buffer := by
  obtain ⟨inside, -⟩ := Array.getElem?_eq_some_iff.mp found
  exact Array.getElem?_setIfInBounds_self_of_lt inside

theorem get?_replace_of_ne {id other : Nat} (apart : other ≠ id) (buffer : Buffer) :
    (store.replace id buffer).get? other = store.get? other :=
  Array.getElem?_setIfInBounds_ne apart.symm

/-! ### What is stored -/

/-- Where values or slots are told apart by offsets, there are some, and none is smaller than the
one before it. -/
def Rises (store : Store) : Prop :=
  ∀ id buffer offsets, store.get? id = some buffer → buffer.offsets? = some offsets →
    disordered offsets = false

mutual

/-- Data is what is stored in a buffer and below it: for a scalar its values, for an array its
offsets and the data of its elements, and for a tuple the data of its columns in order. -/
def Depicts (store : Store) : Nat → ColumnData → Prop
  | id, .leaf leaf => ∃ column, store.get? id = some (.scalar column) ∧ leaf.Shows column
  | id, .list offsets items => ∃ entry ends, store.get? id = some (.slots entry ends) ∧
      offsets = ends.offsets ∧ store.Depicts entry items
  | id, .struct rows columns => rows = store.lengthOf id ∧
      ∃ names parts shared, store.get? id = some (.group names parts shared) ∧
        store.DepictsEach names parts columns

/-- Columns are what is stored in buffers and below them, in order and under the given names. -/
def DepictsEach (store : Store) : List String → List Nat → DataColumns → Prop
  | [], [], .nil => True
  | name :: names, part :: parts, .cons found data rest =>
      found = name ∧ store.Depicts part data ∧ store.DepictsEach names parts rest
  | _, _, _ => False

end

/-- What is stored in a buffer has as many rows as the buffer is told to have. -/
theorem length_of_depicts (rises : store.Rises) {id : Nat} {data : ColumnData}
    (depicts : store.Depicts id data) : data.length = store.lengthOf id := by
  cases data with
  | leaf leaf =>
    obtain ⟨column, found, shows⟩ := depicts
    exact shows.length.trans (lengthOf_scalar found).symm
  | list offsets items =>
    obtain ⟨entry, ends, found, rfl, -⟩ := depicts
    have begun := (disordered_eq_false_iff.mp (rises id _ _ found rfl)).1
    rw [lengthOf_slots found, ColumnData.length, Slots.size_offsets begun, Nat.add_sub_cancel]
  | struct rows columns => exact depicts.1

theorem lengths_of_depicts (rises : store.Rises) {parts : List Nat} {datas : List ColumnData}
    (each : List.Forall₂ store.Depicts parts datas) :
    datas.map ColumnData.length = parts.map store.lengthOf := by
  induction each with
  | nil => rfl
  | cons first _ inductionHypothesis =>
    rw [List.map_cons, List.map_cons, length_of_depicts rises first, inductionHypothesis]

theorem depictsEach_of_forall₂ {parts : List Nat} {datas : List ColumnData}
    (each : List.Forall₂ store.Depicts parts datas) {names : List String}
    (named : names.length = parts.length) :
    store.DepictsEach names parts (.ofList (names.zip datas)) := by
  induction each generalizing names with
  | nil =>
    obtain rfl := List.length_eq_zero_iff.mp named
    trivial
  | cons first _ inductionHypothesis =>
    cases names with
    | nil => cases named
    | cons name names => exact ⟨rfl, first, inductionHypothesis (Nat.succ.inj named)⟩

/-! ### When freezing succeeds -/

/-- Every scalar buffer below a buffer stores what its type says. -/
def SealsScalars (store : Store) (id : Nat) : Prop :=
  ∀ part column, store.Below part id → store.get? part = some (.scalar column) → column.Sealable

/-- The slots of every array below a buffer end within its elements. -/
def CoversSlots (store : Store) (id : Nat) : Prop :=
  ∀ part entry ends, store.Below part id → store.get? part = some (.slots entry ends) →
    ends.lastOffset ≤ store.lengthOf entry

/-- The columns of every tuple below a buffer are equally long. -/
def LevelsColumns (store : Store) (id : Nat) : Prop :=
  ∀ part names parts shared, store.Below part id →
    store.get? part = some (.group names parts shared) →
      ∀ first ∈ parts, ∀ second ∈ parts, store.lengthOf first = store.lengthOf second

/-- What a buffer needs of its own for being frozen, given the data of its parts. -/
def Ready (store : Store) (id : Nat) : Prop :=
  match store.get? id with
  | some (.scalar column) => column.Sealable
  | some (.slots entry ends) => ends.lastOffset ≤ store.lengthOf entry
  | some (.group _ parts _) =>
      ∀ first ∈ parts, ∀ second ∈ parts, store.lengthOf first = store.lengthOf second
  | none => True

theorem forall_ready_iff {id : Nat} :
    (∀ part, store.Below part id → store.Ready part) ↔
      store.SealsScalars id ∧ store.CoversSlots id ∧ store.LevelsColumns id := by
  constructor
  · intro ready
    refine ⟨?_, ?_, ?_⟩
    · intro part column below found
      simpa only [Ready, found] using ready part below
    · intro part entry ends below found
      simpa only [Ready, found] using ready part below
    · intro part names parts shared below found
      simpa only [Ready, found] using ready part below
  · rintro ⟨scalars, slots, columns⟩ part below
    rw [Ready]
    split
    · exact scalars part _ below ‹_›
    · exact slots part _ _ below ‹_›
    · exact columns part _ _ _ below ‹_›
    · trivial

/-- Scalars make a leaf if they are what their type says. -/
private theorem depicts_scalar {id : Nat} {column : ScalarBuffer}
    (found : store.get? id = some (.scalar column))
    (ordered : ∀ offsets, column.offsets? = some offsets → disordered offsets = false) :
    ((∃ data, column.toLeaf?.map ColumnData.leaf = .ok data) ↔ store.Ready id) ∧
      ∀ data, column.toLeaf?.map ColumnData.leaf = .ok data → store.Depicts id data := by
  have succeeds := ScalarBuffer.exists_toLeaf?_iff ordered
  simp only [Ready, found, ← succeeds]
  cases made : column.toLeaf? with
  | error error => exact ⟨⟨nofun, nofun⟩, nofun⟩
  | ok leaf =>
    have shows := ScalarBuffer.shows_of_toLeaf? made
    refine ⟨⟨fun _ => ⟨leaf, rfl⟩, fun _ => ⟨.leaf leaf, rfl⟩⟩, ?_⟩
    rintro _ ⟨⟩
    exact ⟨column, found, shows⟩

/-- Slots with their elements make a list if they end within these. -/
private theorem depicts_slots (rises : store.Rises) {id entry : Nat} {ends : Slots}
    {items : ColumnData} (found : store.get? id = some (.slots entry ends))
    (entries : store.Depicts entry items) :
    ((∃ data, ColumnData.ofItems? ends.offsets items = .ok data) ↔ store.Ready id) ∧
      ∀ data, ColumnData.ofItems? ends.offsets items = .ok data → store.Depicts id data := by
  have ordered : disordered ends.offsets = false := rises id _ _ found rfl
  simp only [ColumnData.ofItems?_eq_ok_iff, Ready, found, ordered]
  constructor
  · rw [← length_of_depicts rises entries]
    exact ⟨fun ⟨_, _, covered, _⟩ => covered, fun covered => ⟨_, trivial, covered, rfl⟩⟩
  · rintro data ⟨-, -, rfl⟩
    exact ⟨entry, ends, found, rfl, entries⟩

/-- Columns make a struct if they are equally long. -/
private theorem depicts_group (forest : store.Forest) (rises : store.Rises) {id shared : Nat}
    {names : List String} {parts : List Nat} {datas : List ColumnData}
    (found : store.get? id = some (.group names parts shared))
    (columns : List.Forall₂ store.Depicts parts datas) :
    ((∃ data, ColumnData.ofColumns? names datas = .ok data) ↔ store.Ready id) ∧
      ∀ data, ColumnData.ofColumns? names datas = .ok data → store.Depicts id data := by
  obtain ⟨named, filled⟩ := forest.named id names parts shared found
  obtain ⟨first, rest, rfl⟩ := List.exists_cons_of_ne_nil filled
  have lengths := lengths_of_depicts rises columns
  have rows : (datas.head?.map ColumnData.length).getD 0 = store.lengthOf first := by
    rw [← List.head?_map, lengths]
    rfl
  have level : (∀ column ∈ datas, column.length = store.lengthOf first) ↔ store.Ready id := by
    rw [Ready, found, ← List.forall_mem_map (P := (· = store.lengthOf first)), lengths,
      List.forall_mem_map]
    exact ⟨fun equal one here other there => (equal one here).trans (equal other there).symm,
      fun equal part member => equal part member first List.mem_cons_self⟩
  have made := @ColumnData.ofColumns?_eq_ok_iff names datas
  simp only [rows, level, named.trans columns.length_eq, true_imp_iff] at made
  constructor
  · simp only [made, exists_and_left, exists_eq, and_true]
  · rintro data done
    obtain ⟨-, rfl⟩ := made.mp done
    exact ⟨(forest.lengthOf_group found).symm, names, _, shared, found,
      depictsEach_of_forall₂ columns named⟩

/-- A buffer with the data of its parts is frozen if it is ready, to what is stored in it. -/
private theorem depicts_freeze (forest : store.Forest)
    (rises : store.Rises)
    {id : Nat} {buffer : Buffer} {datas : List ColumnData} (found : store.get? id = some buffer)
    (parts : List.Forall₂ store.Depicts buffer.children datas) :
    ((∃ data, (buffer.freeze datas).2 = .ok data) ↔ store.Ready id) ∧
      ∀ data, (buffer.freeze datas).2 = .ok data → store.Depicts id data := by
  cases buffer with
  | scalar column => exact depicts_scalar found fun offsets => rises id _ offsets found
  | slots entry ends =>
    obtain ⟨items, _, entries, none, rfl⟩ := List.forall₂_cons_left_iff.mp parts
    obtain rfl := List.forall₂_nil_left_iff.mp none
    exact depicts_slots rises found entries
  | group names children shared => exact depicts_group forest rises found parts

/-! ### Freezing with what is below -/

/-- What freezing some buffers of a forest comes to, and all that is below them. It succeeds exactly
if each of these is ready; then it hands over what it should, and each of them is empty; and no
other buffer has changed. -/
structure Freezes (origin : Store) {Data : Type} (mine : Nat → Prop) (hands : Data → Prop)
    (store : Store) (outcome : Store × Except AssemblyError Data) : Prop where
  succeeds_iff : (∃ data, outcome.2 = .ok data) ↔ ∀ part, mine part → origin.Ready part
  hands : ∀ data, outcome.2 = .ok data → hands data
  emptied : ∀ data, outcome.2 = .ok data → ∀ part, mine part →
    outcome.1.get? part = (origin.get? part).map Buffer.reset
  frame : ∀ part, ¬mine part → outcome.1.get? part = store.get? part

/-- A store is as at first below a buffer. -/
def AgreesBelow (origin : Store) (id : Nat) (store : Store) : Prop :=
  ∀ part, origin.Below part id → store.get? part = origin.get? part

/-- A failure where something is not ready and nothing else has changed. -/
private theorem freezes_error {origin store next : Store} {Data : Type} {mine : Nat → Prop}
    {hands : Data → Prop} (error : AssemblyError) (unready : ¬∀ part, mine part → origin.Ready part)
    (frame : ∀ part, ¬mine part → next.get? part = store.get? part) :
    origin.Freezes mine hands store (next, .error error) where
  succeeds_iff := ⟨nofun, fun ready => absurd ready unready⟩
  hands := nofun
  emptied := nofun
  frame := frame

private theorem Freezes.unready {origin store next : Store} {Data : Type} {mine : Nat → Prop}
    {hands : Data → Prop} {error : AssemblyError}
    (freezes : origin.Freezes mine hands store (next, .error error)) :
    ¬∀ part, mine part → origin.Ready part := fun ready =>
  nomatch freezes.succeeds_iff.mpr ready

/-- Freezing buffers one after the other freezes them all, if what is below them is apart. -/
private theorem freezes_freezeEach {origin : Store}
    {freeze : Store → Nat → Store × Except AssemblyError ColumnData} {ids : List Nat}
    (one : ∀ id ∈ ids, ∀ store, origin.AgreesBelow id store →
      origin.Freezes (origin.Below · id) (origin.Depicts id) store (freeze store id))
    (apart : ids.Pairwise fun id other => ∀ part, origin.Below part id → ¬origin.Below part other)
    {store : Store} (agrees : ∀ id ∈ ids, origin.AgreesBelow id store) :
    origin.Freezes (fun part => ∃ id ∈ ids, origin.Below part id) (List.Forall₂ origin.Depicts ids)
      store (freezeEach freeze store ids) := by
  induction ids generalizing store with
  | nil =>
    refine ⟨⟨fun _ => nofun, fun _ => ⟨[], rfl⟩⟩, ?_, nofun, fun _ _ => rfl⟩
    rintro _ ⟨⟩
    exact .nil
  | cons id rest inductionHypothesis =>
    obtain ⟨oneHere, oneThere⟩ := List.forall_mem_cons.mp one
    obtain ⟨agreesHere, agreesThere⟩ := List.forall_mem_cons.mp agrees
    obtain ⟨apartHere, apartThere⟩ := List.pairwise_cons.mp apart
    have first := oneHere store agreesHere
    simp only [List.exists_mem_cons_iff]
    rw [freezeEach]
    generalize freeze store id = outcome at first ⊢
    obtain ⟨next, error | data⟩ := outcome
    · refine freezes_error error ?_ fun part others => ?_
      · exact fun ready => first.unready fun part below => ready part (.inl below)
      · exact first.frame part fun below => others (.inl below)
    -- What is below the later buffers is not below the first, so it is still as it was.
    have later := inductionHypothesis oneThere apartThere fun other member part below =>
      (first.frame part fun here => apartHere other member part here below).trans
        (agreesThere other member part below)
    dsimp only
    generalize freezeEach freeze next rest = outcome at later ⊢
    obtain ⟨last, error | datas⟩ := outcome
    · refine freezes_error error ?_ fun part others => ?_
      · exact fun ready => later.unready fun part below => ready part (.inr below)
      · exact (later.frame part fun below => others (.inr below)).trans
          (first.frame part fun below => others (.inl below))
    · have firstReady := first.succeeds_iff.mp ⟨data, rfl⟩
      have laterReady := later.succeeds_iff.mp ⟨datas, rfl⟩
      refine ⟨⟨fun _ part => Or.rec (firstReady part) (laterReady part),
        fun _ => ⟨data :: datas, rfl⟩⟩, ?_, ?_, ?_⟩
      · rintro _ ⟨⟩
        exact .cons (first.hands data rfl) (later.hands datas rfl)
      · rintro _ ⟨⟩ part (below | below)
        · rw [later.frame part]
          · exact first.emptied data rfl part below
          · rintro ⟨other, member, belowOther⟩
            exact apartHere other member part below belowOther
        · exact later.emptied datas rfl part below
      · intro part others
        exact (later.frame part fun below => others (.inr below)).trans
          (first.frame part fun below => others (.inl below))

/-- Freezing a buffer after everything below its parts freezes it with all that is below it. -/
private theorem freezes_freezeOne {origin store next : Store} (forest : origin.Forest)
    (rises : origin.Rises)
    {id : Nat} {buffer : Buffer} (found : origin.get? id = some buffer)
    (still : next.get? id = some buffer) {parts : List ColumnData}
    (below : origin.Freezes (fun part => ∃ child ∈ buffer.children, origin.Below part child)
      (List.Forall₂ origin.Depicts buffer.children) store (next, .ok parts)) :
    origin.Freezes (origin.Below · id) (origin.Depicts id) store (next.freezeOne id parts) := by
  have stored := below.hands parts rfl
  obtain ⟨own, hands⟩ := depicts_freeze forest rises found stored
  have isPart : ∀ child ∈ buffer.children, origin.IsPart child id :=
    fun child member => ⟨buffer, found, member⟩
  have outcome : next.freezeOne id parts =
      (next.replace id buffer.reset, (buffer.freeze parts).2) := by
    rw [freezeOne, still, ← Buffer.fst_freeze stored.length_eq.symm]
  rw [outcome]
  refine ⟨own.trans ⟨?_, fun ready => ready id (origin.below_refl id)⟩, hands, ?_, ?_⟩
  · intro ready part belowId
    rcases below_iff.mp belowId with rfl | ⟨child, belowChild, buffer', found', member⟩
    · exact ready
    · obtain rfl := Option.some.inj (found.symm.trans found')
      exact below.succeeds_iff.mp ⟨parts, rfl⟩ part ⟨child, member, belowChild⟩
  · intro data made part belowId
    rcases below_iff.mp belowId with rfl | ⟨child, belowChild, buffer', found', member⟩
    · rw [get?_replace_self still, found]
      rfl
    · obtain rfl := Option.some.inj (found.symm.trans found')
      have apart : part ≠ id := by
        rintro rfl
        exact forest.not_below_part (isPart child member) belowChild
      rw [get?_replace_of_ne apart]
      exact below.emptied parts rfl part ⟨child, member, belowChild⟩
  · intro part others
    have apart : part ≠ id := by
      rintro rfl
      exact others (origin.below_refl _)
    rw [get?_replace_of_ne apart]
    exact below.frame part fun ⟨child, member, belowChild⟩ =>
      others (belowChild.tail (isPart child member))

/-- Freezing a buffer of a forest freezes all that is below it, in a store that is as at first
there. -/
private theorem freezes_freezeWithin {origin : Store} (forest : origin.Forest)
    (rises : origin.Rises)
    {depth id : Nat} (shallow : id < depth) (inside : id < origin.size) {store : Store}
    (agrees : origin.AgreesBelow id store) :
    origin.Freezes (origin.Below · id) (origin.Depicts id) store (store.freezeWithin depth id) := by
  induction depth generalizing id store with
  | zero => exact absurd shallow (Nat.not_lt_zero id)
  | succ depth inductionHypothesis =>
    obtain ⟨buffer, found⟩ : ∃ buffer, origin.get? id = some buffer :=
      ⟨_, Array.getElem?_eq_getElem inside⟩
    have here : store.get? id = some buffer := (agrees id (origin.below_refl id)).trans found
    have isPart : ∀ child ∈ buffer.children, origin.IsPart child id :=
      fun child member => ⟨buffer, found, member⟩
    have one : ∀ child ∈ buffer.children, ∀ store, origin.AgreesBelow child store →
        origin.Freezes (origin.Below · child) (origin.Depicts child) store
          (freezeWithin depth store child) := by
      intro child member store agrees
      have before := forest.before child id (isPart child member)
      exact inductionHypothesis (by omega) (by omega) agrees
    have apart : buffer.children.Pairwise fun child other =>
        ∀ part, origin.Below part child → ¬origin.Below part other := by
      apply (forest.once id buffer found).imp_of_mem
      intro child other member otherMember different part belowChild belowOther
      exact different (forest.eq_of_below (isPart child member) (isPart other otherMember)
        belowChild belowOther)
    have below := freezes_freezeEach one apart fun child member part belowChild =>
      agrees part (belowChild.tail (isPart child member))
    rw [freezeWithin, here]
    dsimp only
    generalize freezeEach (freezeWithin depth) store buffer.children = outcome at below ⊢
    obtain ⟨next, error | parts⟩ := outcome
    · refine freezes_error error (fun ready => below.unready ?_) fun part others => ?_
      · rintro part ⟨child, member, belowChild⟩
        exact ready part (belowChild.tail (isPart child member))
      · exact below.frame part fun ⟨child, member, belowChild⟩ =>
          others (belowChild.tail (isPart child member))
    · have still : next.get? id = some buffer := by
        rw [← here]
        exact below.frame id fun ⟨child, member, belowChild⟩ =>
          forest.not_below_part (isPart child member) belowChild
      exact freezes_freezeOne forest rises found still below

/-- Freezing a buffer of a forest takes out just what is below it. It succeeds exactly if the scalar
buffers below store what their type says, the slots of every array below end within its elements,
and the columns of every tuple below are equally long; of buffers that were filled by operations,
the scalars always are as they should be. What it hands over is then what was stored, and all
buffers below are empty. Whether it succeeds or not, no other buffer changes. -/
theorem freeze_exactly {store : Store} (forest : store.Forest)
    (rises : store.Rises)
    {id : Nat} (inside : id < store.size) :
    ((∃ data, (store.freeze id).2 = .ok data) ↔
      store.SealsScalars id ∧ store.CoversSlots id ∧ store.LevelsColumns id) ∧
    ((∀ part buffer, store.Below part id → store.get? part = some buffer → buffer.Reached) →
      ((∃ data, (store.freeze id).2 = .ok data) ↔
        store.CoversSlots id ∧ store.LevelsColumns id)) ∧
    (∀ data, (store.freeze id).2 = .ok data →
      store.Depicts id data ∧ data.length = store.lengthOf id ∧
      ∀ part, store.Below part id → ∃ before after, store.get? part = some before ∧
        (store.freeze id).1.get? part = some after ∧ after.count = 0 ∧
          after.capacity? = before.capacity? ∧ after.children = before.children) ∧
    ∀ part, ¬store.Below part id → (store.freeze id).1.get? part = store.get? part := by
  have frozen := freezes_freezeWithin forest rises inside inside fun _ _ => rfl
  have succeeds := frozen.succeeds_iff.trans forall_ready_iff
  refine ⟨succeeds, ?_, ?_, frozen.frame⟩
  · intro reached
    have scalars : store.SealsScalars id := fun part column below found =>
      (reached part _ below found).sealable.2
    exact succeeds.trans (and_iff_right scalars)
  · intro data made
    have depicts := frozen.hands data made
    refine ⟨depicts, length_of_depicts rises depicts, fun part below => ?_⟩
    have within : part < store.buffers.size := Nat.lt_of_le_of_lt (forest.le_of_below below) inside
    have found : store.get? part = some store.buffers[part] := Array.getElem?_eq_getElem within
    have emptied := frozen.emptied data made part below
    rw [found] at emptied
    exact ⟨_, _, found, emptied, Buffer.count_reset _, Buffer.capacity?_reset _,
      Buffer.children_reset _⟩

/-- An array of tuples of one column is frozen beside a column of its own. -/
theorem freeze_exactly_array :
    let store : Store := ⟨#[.scalar (.int ⟨64, #[1, 2]⟩), .group ["a"] [0] 2,
      .slots 1 ⟨64, #[0, 2]⟩, .scalar (.int ⟨64, #[7]⟩)]⟩
    store.Forest ∧
    (∃ data, (store.freeze 2).2 = .ok data ∧ store.Depicts 2 data) ∧
      (store.freeze 2).1.get? 3 = store.get? 3 := by
  intro store
  have isPart : ∀ part id, store.IsPart part id → id = part + 1 := by
    rintro part id ⟨buffer, found, member⟩
    rcases id with _ | _ | _ | _ | id <;> simp [store, get?] at found <;> subst found <;>
      simp [Buffer.children] at member <;> simp [member]
  have forest : store.Forest := by
    refine ⟨?_, ?_, ?_, ?_⟩
    · intro part id here
      exact isPart part id here ▸ Nat.lt_succ_self part
    · intro part id other here there
      exact (isPart part id here).trans (isPart part other there).symm
    · intro id buffer found
      rcases id with _ | _ | _ | _ | id <;> simp [store, get?] at found <;> subst found <;> decide
    · intro id names parts shared found
      rcases id with _ | _ | _ | _ | id <;> simp [store, get?] at found
      obtain ⟨rfl, rfl, rfl⟩ := found
      decide
  have rises : store.Rises := by
    intro id buffer offsets found held
    rcases id with _ | _ | _ | _ | id <;> simp [store, get?] at found <;> subst found <;>
      simp [Buffer.offsets?, ScalarBuffer.offsets?] at held
    subst held
    decide
  obtain ⟨-, -, stored, frame⟩ := freeze_exactly forest rises (show 2 < store.size by decide)
  have made : (store.freeze 2).2 =
      .ok (.list #[0, 2] (.struct 2 (.cons "a" (.leaf (.int #[1, 2])) .nil))) := by
    decide
  refine ⟨forest, ⟨_, made, (stored _ made).1⟩, frame 3 fun below => ?_⟩
  exact absurd (forest.le_of_below below) (by decide)

/-- Where no array and no tuple is below, freezing still fails for what a scalar buffer stores:
bytes that are no text in a buffer of texts, or no offsets after the sizes wrapped around. -/
theorem freeze_fails_of_scalar :
    let noText := (ByteStrings.empty 64).set 0 ⟨#[255]⟩
    let noOffsets := (ByteStrings.empty 64).fill 18446744073709551615
    let store : Store := ⟨#[.scalar (.string noText.1), .scalar (.string noOffsets.1)]⟩
    noText.2 = none ∧ noOffsets.2 = none ∧ store.Forest ∧
      (∀ id entry ends, store.get? id = some (.slots entry ends) →
        decreases ends.offsets.toList = false) ∧
      (store.CoversSlots 0 ∧ store.LevelsColumns 0 ∧ (store.freeze 0).2 = .error .notText) ∧
      store.CoversSlots 1 ∧ store.LevelsColumns 1 ∧
        (store.freeze 1).2 = .error .decreasingOffsets := by
  intro noText noOffsets store
  have scalar : ∀ id buffer, store.get? id = some buffer → ∃ column, buffer = .scalar column := by
    intro id buffer found
    rcases id with _ | _ | id <;> simp [store, get?] at found <;> exact ⟨_, found.symm⟩
  have noParts : ∀ part id, ¬store.IsPart part id := by
    rintro part id ⟨buffer, found, member⟩
    obtain ⟨column, rfl⟩ := scalar id buffer found
    cases member
  have noSlots : ∀ id entry ends, store.get? id ≠ some (.slots entry ends) := by
    intro id entry ends found
    obtain ⟨_, same⟩ := scalar id _ found
    cases same
  have noGroups : ∀ id names parts shared, store.get? id ≠ some (.group names parts shared) := by
    intro id names parts shared found
    obtain ⟨_, same⟩ := scalar id _ found
    cases same
  have forest : store.Forest := by
    refine ⟨?_, ?_, ?_, ?_⟩
    · exact fun part id here => absurd here (noParts part id)
    · exact fun part id _ here => absurd here (noParts part id)
    · intro id buffer found
      obtain ⟨column, rfl⟩ := scalar id buffer found
      exact List.nodup_nil
    · exact fun id names parts shared found => absurd found (noGroups id names parts shared)
  have covers : ∀ id, store.CoversSlots id := fun _ part entry ends _ found =>
    absurd found (noSlots part entry ends)
  have levels : ∀ id, store.LevelsColumns id := fun _ part names parts shared _ found =>
    absurd found (noGroups part names parts shared)
  refine ⟨by decide +kernel, by decide +kernel, forest, ?_, ⟨covers 0, levels 0, ?_⟩, covers 1,
    levels 1, ?_⟩
  · exact fun id entry ends found => absurd found (noSlots id entry ends)
  · decide +kernel
  · decide +kernel

end Store

end Columnar
