/-!
# Operations on values

What can be done with a buffer of values, as data, and what that makes of the list of the values
there are. Buffers differ in what a write does to a value that is there: it is replaced, or it is
dropped with all after it. Of a sequence of operations, some are refused, and what the others make
is what a buffer holds in the end.
-/

namespace Columnar

/-- An operation on a buffer of values. -/
inductive Operation (α : Type) where
  | set (index : Nat) (value : α)
  | fill (count : Nat)
  | truncate (count : Nat)
  | reset
  deriving DecidableEq

section Lists

variable {α β : Type}

/-- Values and as many blanks behind them as are missing up to a number of values. -/
def padTo (blank : α) (count : Nat) (values : List α) : List α :=
  values ++ List.replicate (count - values.length) blank

/-- Values after a write that drops what is there: the values before the index, blanks where some
are missing, and the written value as the last one. -/
def cutAt (blank : α) (values : List α) (index : Nat) (value : α) : List α :=
  padTo blank index (values.take index) ++ [value]

/-- Values after a write that replaces what is there. Behind the last value it is like one that
drops nothing. -/
def replaceAt (blank : α) (values : List α) (index : Nat) (value : α) : List α :=
  if index < values.length then values.set index value else cutAt blank values index value

@[simp] theorem length_padTo (blank : α) (count : Nat) (values : List α) :
    (padTo blank count values).length = max values.length count := by
  rw [padTo, List.length_append, List.length_replicate]
  omega

theorem padTo_of_le (blank : α) {count : Nat} {values : List α} (enough : count ≤ values.length) :
    padTo blank count values = values := by
  rw [padTo, Nat.sub_eq_zero_of_le enough, List.replicate_zero, List.append_nil]

/-- One more blank is appended. -/
theorem padTo_succ (blank : α) {count : Nat} {values : List α} (short : values.length ≤ count) :
    padTo blank (count + 1) values = padTo blank count values ++ [blank] := by
  rw [padTo, padTo, Nat.succ_sub short, List.replicate_succ', List.append_assoc]

theorem map_padTo (read : α → β) (blank : α) (count : Nat) (values : List α) :
    (padTo blank count values).map read = padTo (read blank) count (values.map read) := by
  simp [padTo]

@[simp] theorem length_cutAt (blank : α) (values : List α) (index : Nat) (value : α) :
    (cutAt blank values index value).length = index + 1 := by
  rw [cutAt, List.length_append, length_padTo, List.length_take, List.length_singleton]
  omega

theorem cutAt_of_le (blank : α) {values : List α} {index : Nat} (inside : index ≤ values.length)
    (value : α) : cutAt blank values index value = values.take index ++ [value] := by
  rw [cutAt, padTo_of_le blank (by rw [List.length_take]; omega)]

theorem cutAt_of_ge (blank : α) {values : List α} {index : Nat} (beyond : values.length ≤ index)
    (value : α) : cutAt blank values index value = padTo blank index values ++ [value] := by
  rw [cutAt, List.take_of_length_le beyond]

theorem map_cutAt (read : α → β) (blank : α) (values : List α) (index : Nat) (value : α) :
    (cutAt blank values index value).map read =
      cutAt (read blank) (values.map read) index (read value) := by
  simp [cutAt, map_padTo, List.map_take]

@[simp] theorem length_replaceAt (blank : α) (values : List α) (index : Nat) (value : α) :
    (replaceAt blank values index value).length = max values.length (index + 1) := by
  rw [replaceAt]
  split
  · rw [List.length_set]
    omega
  · rw [length_cutAt]
    omega

theorem map_replaceAt (read : α → β) (blank : α) (values : List α) (index : Nat) (value : α) :
    (replaceAt blank values index value).map read =
      replaceAt (read blank) (values.map read) index (read value) := by
  rw [replaceAt, replaceAt, List.length_map]
  split
  · exact List.map_set
  · exact map_cutAt read blank values index value

/-- A write behind finished values puts the value there, whatever was being written. -/
theorem cutAt_length (blank : α) (values : List α) (last : Option α) (value : α) :
    cutAt blank (values ++ last.toList) values.length value = values ++ [value] := by
  rw [cutAt_of_le blank (by simp), List.take_left]

/-- A write behind finished values puts the value there, whatever was being written. -/
theorem replaceAt_length (blank : α) (values : List α) (last : Option α) (value : α) :
    replaceAt blank (values ++ last.toList) values.length value = values ++ [value] := by
  cases last with
  | none =>
    rw [replaceAt, if_neg (by simp)]
    exact cutAt_length blank values none value
  | some old => simp [replaceAt]

/-- What is there after padding was there before or is blank. -/
theorem mem_padTo {blank item : α} {count : Nat} {values : List α}
    (member : item ∈ padTo blank count values) : item ∈ values ∨ item = blank := by
  rcases List.mem_append.mp member with there | padded
  · exact .inl there
  · exact .inr (List.eq_of_mem_replicate padded)

/-- What is there after a write was there before, is blank, or was written. -/
theorem mem_cutAt {blank item value : α} {values : List α} {index : Nat}
    (member : item ∈ cutAt blank values index value) :
    item ∈ values ∨ item = blank ∨ item = value := by
  rcases List.mem_append.mp member with front | written
  · rcases mem_padTo front with there | padded
    · exact .inl (List.mem_of_mem_take there)
    · exact .inr (.inl padded)
  · exact .inr (.inr (List.mem_singleton.mp written))

/-- What is there after a write was there before, is blank, or was written. -/
theorem mem_replaceAt {blank item value : α} {values : List α} {index : Nat}
    (member : item ∈ replaceAt blank values index value) :
    item ∈ values ∨ item = blank ∨ item = value := by
  rw [replaceAt] at member
  split at member
  · rcases List.mem_or_eq_of_mem_set member with there | written
    · exact .inl there
    · exact .inr (.inr written)
  · exact mem_cutAt member

/-- What an operation makes of the values of a buffer with a way to write. -/
def Operation.onList (write : List α → Nat → α → List α) (blank : α) (values : List α) :
    Operation α → List α
  | .set index value => write values index value
  | .fill count => padTo blank count values
  | .truncate count => values.take count
  | .reset => []

end Lists

/-! ### Runs -/

/-- The outcome of an operation that is measured before it changes anything: what there was before,
with the fault that was found, or else what there is after it. -/
def guarded {State Fault : Type} (fault : Option Fault) (before after : State) :
    State × Option Fault :=
  match fault with
  | some fault => (before, some fault)
  | none => (after, none)

@[simp] theorem guarded_some {State Fault : Type} (fault : Fault) (before after : State) :
    guarded (some fault) before after = (before, some fault) := rfl

@[simp] theorem guarded_none {State Fault : Type} (before after : State) :
    guarded (none : Option Fault) before after = (after, none) := rfl

@[simp] theorem snd_guarded {State Fault : Type} (fault : Option Fault) (before after : State) :
    (guarded fault before after).2 = fault := by
  cases fault <;> rfl

/-- An accepted operation leads to what there is after it. -/
theorem fst_guarded_of_none {State Fault : Type} {fault : Option Fault} {before after : State}
    (accepted : (guarded fault before after).2 = none) :
    (guarded fault before after).1 = after := by
  cases fault with
  | none => rfl
  | some _ => cases accepted

/-- A refused operation leaves what there was before. -/
theorem fst_guarded_of_some {State Fault : Type} {fault : Option Fault} {before after : State}
    {reason : Fault} (refused : (guarded fault before after).2 = some reason) :
    (guarded fault before after).1 = before := by
  cases fault with
  | none => cases refused
  | some _ => rfl

section Runs

variable {State Move Fault Model : Type}

/-- The state that a sequence of moves leads to. -/
def runOf (perform : State → Move → State × Option Fault) (state : State) (moves : List Move) :
    State :=
  moves.foldl (fun state move => (perform state move).1) state

/-- The moves of a sequence that are accepted, each in the state that those before it lead to. -/
def acceptedOf (perform : State → Move → State × Option Fault) : State → List Move → List Move
  | _, [] => []
  | state, move :: rest =>
      match perform state move with
      | (next, none) => move :: acceptedOf perform next rest
      | (next, some _) => acceptedOf perform next rest

/-- What a state holds after a sequence of moves is what the accepted ones make, if an accepted move
of the sequence makes of what is held what it should, and a refused one leaves it. -/
theorem holds_runOf {perform : State → Move → State × Option Fault} (Holds : State → Model → Prop)
    (make : Model → Move → Model) {moves : List Move}
    (accepted : ∀ state model, ∀ move ∈ moves, Holds state model → (perform state move).2 = none →
      Holds (perform state move).1 (make model move))
    (refused : ∀ state model, ∀ move ∈ moves, ∀ fault, Holds state model →
      (perform state move).2 = some fault → Holds (perform state move).1 model)
    {state : State} {model : Model} (holds : Holds state model) :
    Holds (runOf perform state moves) ((acceptedOf perform state moves).foldl make model) := by
  induction moves generalizing state model with
  | nil => exact holds
  | cons move rest inductionHypothesis =>
    have kept := accepted state model move List.mem_cons_self holds
    have left := fun fault => refused state model move List.mem_cons_self fault holds
    have later : ∀ {next : State} {made : Model}, Holds next made →
        Holds (runOf perform next rest) ((acceptedOf perform next rest).foldl make made) :=
      inductionHypothesis
        (fun state model move member => accepted state model move (List.mem_cons_of_mem _ member))
        (fun state model move member => refused state model move (List.mem_cons_of_mem _ member))
    rw [acceptedOf]
    change Holds (runOf perform (perform state move).1 rest) _
    generalize perform state move = outcome at kept left ⊢
    obtain ⟨next, _ | fault⟩ := outcome
    · exact later (kept rfl)
    · exact later (left fault rfl)

end Runs

end Columnar
