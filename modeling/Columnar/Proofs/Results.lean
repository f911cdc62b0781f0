import Mathlib.Data.List.Forall2

/-!
# Steps that may fail

What is known of the steps of a computation when its result is known.
-/

namespace Columnar

/-- Steps one after the other succeed when each does. -/
theorem bind_ok_iff {ε α β : Type} {first : Except ε α} {next : α → Except ε β} {result : β} :
    first >>= next = .ok result ↔ ∃ middle, first = .ok middle ∧ next middle = .ok result := by
  constructor
  · intro done
    cases first with
    | error _ => cases done
    | ok middle => exact ⟨middle, rfl, done⟩
  · rintro ⟨middle, rfl, done⟩
    exact done

/-- A step that is followed by one that always succeeds is the one that fails. -/
theorem error_of_bind_pure {ε α β : Type} {first : Except ε α} {last : α → β} {cause : ε}
    (failed : (first >>= fun middle => pure (last middle)) = .error cause) :
    first = .error cause := by
  cases first with
  | error _ =>
    obtain rfl := Except.error.inj failed
    rfl
  | ok _ => cases failed

/-- Naming the cause of a failure otherwise makes no difference to success. -/
theorem mapError_ok_iff {ε ε' α : Type} {first : Except ε α} {name : ε → ε'} {result : α} :
    first.mapError name = .ok result ↔ first = .ok result := by
  cases first with
  | error _ => exact ⟨nofun, nofun⟩
  | ok _ => exact ⟨fun same => congrArg _ (Except.ok.inj same), fun same =>
      congrArg _ (Except.ok.inj same)⟩

/-- Making something of each member of a list succeeds when it does for each of them. -/
theorem mapM_ok_iff {ε α β : Type} {make : α → Except ε β} {list : List α} {results : List β} :
    list.mapM make = .ok results ↔
      List.Forall₂ (fun item result => make item = .ok result) list results := by
  induction list generalizing results with
  | nil =>
    rw [List.forall₂_nil_left_iff]
    exact ⟨fun made => (Except.ok.inj made).symm, fun none => none ▸ rfl⟩
  | cons item rest inductionHypothesis =>
    rw [List.mapM_cons, List.forall₂_cons_left_iff, bind_ok_iff]
    constructor
    · rintro ⟨first, here, made⟩
      obtain ⟨others, later, made⟩ := bind_ok_iff.mp made
      cases made
      exact ⟨first, others, here, inductionHypothesis.mp later, rfl⟩
    · rintro ⟨first, others, here, later, rfl⟩
      exact ⟨first, here, bind_ok_iff.mpr ⟨others, inductionHypothesis.mpr later, rfl⟩⟩

/-- Where something can be made of each member of a list, all of it is made. -/
theorem exists_mapM_of_forall {ε α β : Type} {make : α → Except ε β} {list : List α}
    (each : ∀ item ∈ list, ∃ result, make item = .ok result) :
    ∃ results, list.mapM make = .ok results := by
  induction list with
  | nil => exact ⟨[], rfl⟩
  | cons item rest inductionHypothesis =>
    obtain ⟨⟨first, here⟩, there⟩ := List.forall_mem_cons.mp each
    obtain ⟨others, later⟩ := inductionHypothesis there
    refine ⟨first :: others, ?_⟩
    rw [List.mapM_cons]
    exact bind_ok_iff.mpr ⟨first, here, bind_ok_iff.mpr ⟨others, later, rfl⟩⟩

end Columnar
