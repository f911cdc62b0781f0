import Columnar.Proofs.Draft.InPlace
import Columnar.Proofs.Draft.Phases

/-!
# Values of which nothing is written

Writing a whole value looks at the gate of a draft only where a scalar is written or an element is
saved. A value without any of these passes a closed gate; it changes nothing there either. Every
other value is refused.
-/

namespace Columnar

mutual

/-- Whether a value that a column takes has no scalar to write and no element to save: an array
without elements, or a tuple that has only such items, if it has any. -/
def ColumnType.isBare : ColumnType → Value → Bool
  | .array _, .array items => items.isEmpty
  | .tuple columns, .tuple items => columns.isBare items
  | _, _ => false

/-- Whether each of the values for the leading columns has nothing to write or to save. -/
def Schema.isBare : Schema → List Value → Bool
  | _, [] => true
  | .nil, _ :: _ => false
  | .cons _ type rest, item :: items => type.isBare item && rest.isBare items

end

mutual

/-- A column takes every value for it that has nothing to write. -/
theorem ColumnType.accepts_of_isBare : ∀ {type : ColumnType} {value : Value},
    type.isBare value = true → type.Accepts value
  | .array _, .array items, bare => by
      obtain rfl := List.isEmpty_iff.mp bare
      exact fun _ member => nomatch member
  | .tuple columns, .tuple _, bare =>
      Schema.accepts_of_isBare (show columns.isBare _ = true from bare)

/-- Columns take all values for them that have nothing to write. -/
theorem Schema.accepts_of_isBare : ∀ {schema : Schema} {items : List Value},
    schema.isBare items = true → schema.Accepts items
  | .nil, [], _ => by simp [Schema.Accepts]
  | .cons _ _ _, [], _ => by simp [Schema.Accepts]
  | .cons _ _ _, _ :: _, bare => by
      obtain ⟨first, others⟩ := Bool.and_eq_true_iff.mp bare
      exact ⟨ColumnType.accepts_of_isBare first, Schema.accepts_of_isBare others⟩

end

/-- How writing a whole value ends behind a closed gate: it passes if nothing is written, and is
stopped at the gate, or before it where it does not conform, if there is something to write. -/
inductive EndsClosed (gate : Refusal) (bare : Bool) (conforms : Prop) : Option Refusal → Prop where
  | passed (nothing : bare = true) : EndsClosed gate bare conforms none
  | stopped (something : bare = false) : EndsClosed gate bare conforms (some gate)
  | unfit (something : bare = false) (misfit : ¬conforms) (cause : Mismatch) :
      EndsClosed gate bare conforms (some (.mismatch cause))

mutual

/-- A whole value behind a closed gate passes only if nothing of it is written. -/
theorem Node.endsClosed_put (gate : Refusal) : ∀ (value : Value) (position : Nat) (node : Node),
    EndsClosed gate (node.type.isBare value) (node.type.Accepts value)
      (Node.put (some gate) value position node).2
  | .scalar _, _, .scalar _ _ => .stopped rfl
  | .array [], _, .array _ _ _ _ => .passed rfl
  | .array (item :: rest), _, .array _ _ elements entry => by
      have first := Node.endsClosed_put gate item elements entry
      simp only [Node.put, Node.putElements]
      generalize Node.put (some gate) item elements entry = outcome at first ⊢
      obtain ⟨after, refusal⟩ := outcome
      cases first with
      | passed _ => exact .stopped rfl
      | stopped _ => exact .stopped rfl
      | unfit _ misfit cause =>
        exact .unfit rfl (fun conforms => misfit (conforms item List.mem_cons_self)) cause
  | .tuple items, position, .tuple _ _ columns => by
      simp only [Node.put]
      split
      · rename_i tooMany
        have misfit : ¬columns.schema.Accepts items := fun conforms =>
          Nat.not_le_of_lt tooMany
            (Nodes.length_schema columns ▸ Schema.length_le_of_accepts conforms)
        have something : columns.schema.isBare items = false :=
          Bool.eq_false_iff.mpr fun bare => misfit (Schema.accepts_of_isBare bare)
        exact .unfit something misfit _
      · rename_i enough
        exact Nodes.endsClosed_put gate items position columns (Nat.le_of_not_lt enough)
  | .scalar _, _, .array _ _ _ _ | .scalar _, _, .tuple _ _ _
  | .array _, _, .scalar _ _ | .array _, _, .tuple _ _ _
  | .tuple _, _, .scalar _ _ | .tuple _, _, .array _ _ _ _ => .unfit rfl id _

/-- Values for the leading columns behind a closed gate pass only if nothing of any is written. -/
theorem Nodes.endsClosed_put (gate : Refusal) : ∀ (items : List Value) (position : Nat)
    (columns : Nodes), items.length ≤ columns.length →
    EndsClosed gate (columns.schema.isBare items) (columns.schema.Accepts items)
      (Nodes.put (some gate) items position columns).2
  | [], _, columns, _ => .passed (by cases columns <;> rfl)
  | item :: items, position, .cons name node rest, within => by
      have first := Node.endsClosed_put gate item position node
      have others := Nodes.endsClosed_put gate items position rest (Nat.le_of_succ_le_succ within)
      simp only [Nodes.put, Nodes.schema, Schema.isBare, Schema.Accepts]
      generalize Node.put (some gate) item position node = outcome at first ⊢
      obtain ⟨after, refusal⟩ := outcome
      cases first with
      | stopped something => exact .stopped (by rw [something, Bool.false_and])
      | unfit something misfit cause =>
        exact .unfit (by rw [something, Bool.false_and]) (fun both => misfit both.1) cause
      | passed nothing =>
        simp only [nothing, Bool.true_and]
        generalize Nodes.put (some gate) items position rest = outcome at others ⊢
        obtain ⟨later, refusal⟩ := outcome
        cases others with
        | passed bare => exact .passed bare
        | stopped something => exact .stopped something
        | unfit something misfit cause =>
          exact .unfit something (fun both => misfit both.2) cause

end

namespace Draft

variable {schema : Schema} {limits : Limits} {actions : List Action} {refusal : Refusal}

/-- A draft that is sealed, released or full is not changed by any whole value, wherever it is
written, and nothing is reported. The value is refused, with the reason why nothing can be written
or because it does not conform, unless there is nothing in it to write. -/
theorem put_closed_of_run (closed : ((ofSchema schema limits).run actions).Closed refusal)
    {steps : List Step} {place : Place} (leads : (Place.ofSchema schema).find steps = .ok place)
    (value : Value) :
    let draft := (ofSchema schema limits).run actions
    ∃ result, draft.edit steps (.put value) = (draft, ⟨result, []⟩) ∧
      (result = .ok () ↔ place.type.isBare value = true) ∧
      ∀ cause, result = .error cause → cause = refusal ∨
        ¬place.type.Accepts value ∧ ∃ mismatch, cause = .mismatch mismatch := by
  intro draft
  obtain ⟨target, found, inPlace⟩ := (inPlace_run schema limits actions).find leads
  obtain ⟨slot, answered⟩ := exists_result_of_find closed.gate? found (.put value)
  have ends : EndsClosed refusal (place.type.isBare value) (place.type.Accepts value)
      (target.editHere (some refusal) (.put value) slot).2 :=
    inPlace.type_eq ▸ Node.endsClosed_put refusal value slot target
  generalize (target.editHere (some refusal) (.put value) slot).2 = stop at answered ends
  obtain ⟨outcome, unchanged, hasRoom⟩ := edit_closed closed.gate? steps (.put value)
  have silent := edit_hasRoom (by rw [unchanged]; exact hasRoom)
  have same : draft.edited steps (.put value) = draft :=
    congrArg Prod.fst (silent.symm.trans unchanged)
  rw [answered] at silent
  refine ⟨answer stop, silent.trans (congrArg (·, _) same), ?_⟩
  cases ends with
  | passed nothing => exact ⟨⟨fun _ => nothing, fun _ => rfl⟩, nofun⟩
  | stopped something =>
    refine ⟨⟨nofun, fun bare => ?_⟩, ?_⟩
    · rw [something] at bare
      cases bare
    · rintro cause ⟨⟩
      exact .inl rfl
  | unfit something misfit mismatch =>
    refine ⟨⟨nofun, fun bare => ?_⟩, ?_⟩
    · rw [something] at bare
      cases bare
    · rintro cause ⟨⟩
      exact .inr ⟨misfit, mismatch, rfl⟩

/-- A draft for one row that is full: an element of an array of tuples that leaves out every column
passes as long as it is not saved, and is refused as a part of the array. -/
theorem put_closed_of_run_full :
    let schema : Schema := .cons "points" (.array (.tuple (.cons "x" (.scalar .integer)
      (.cons "tags" (.array (.scalar .string)) .nil)))) .nil
    let points : List Step := [.column (.name "points")]
    let full := (ofSchema schema ⟨1, 64⟩).run [.save]
    let rowLimit : Refusal := .overflow (.rowLimit 1)
    full.Closed rowLimit ∧
      full.edit (points ++ [.entry]) (.put (.tuple [])) = (full, .accept ()) ∧
      full.edit points (.put (.array [.tuple []])) = (full, .refuse rowLimit) := by
  intro schema points full rowLimit
  have closed : full.Closed rowLimit := .full rfl rfl
  have entry : (Place.ofSchema schema).find (points ++ [.entry]) =
      .ok ⟨"points", .tuple (.cons "x" (.scalar .integer)
        (.cons "tags" (.array (.scalar .string)) .nil))⟩ := rfl
  have array : (Place.ofSchema schema).find points = .ok ⟨"points", .array (.tuple
      (.cons "x" (.scalar .integer) (.cons "tags" (.array (.scalar .string)) .nil)))⟩ := rfl
  obtain ⟨passed, unchanged, passes, -⟩ := put_closed_of_run closed entry (.tuple [])
  obtain ⟨stopped, same, stops, causes⟩ := put_closed_of_run closed array (.array [.tuple []])
  refine ⟨closed, ?_, ?_⟩
  · rwa [passes.mpr rfl] at unchanged
  · cases stopped with
    | ok _ => cases stops.mp rfl
    | error cause =>
      rcases causes cause rfl with rfl | ⟨misfit, -⟩
      · exact same
      · exact absurd (by decide) misfit

/-- An array without elements and a row that leaves out every column are accepted by a draft that is
sealed, by one that is released and by one that is full. -/
theorem bare_values_pass_closed :
    let begun := ofSchema (.cons "a" (.array (.scalar .integer)) .nil) ⟨1, 64⟩
    let a : List Step := [.column (.name "a")]
    let finished := begun.run [.finish]
    let released := begun.run [.release]
    let full := begun.run [.save]
    (finished.Closed (.misuse .sealed) ∧
      finished.edit a (.put (.array [])) = (finished, .accept ()) ∧
      finished.edit [] (.put (.tuple [])) = (finished, .accept ())) ∧
    (released.Closed (.misuse .released) ∧
      released.edit a (.put (.array [])) = (released, .accept ()) ∧
      released.edit [] (.put (.tuple [])) = (released, .accept ())) ∧
    (full.Closed (.overflow (.rowLimit 1)) ∧
      full.edit a (.put (.array [])) = (full, .accept ()) ∧
      full.edit [] (.put (.tuple [])) = (full, .accept ())) :=
  ⟨⟨.sealed rfl, rfl, rfl⟩, ⟨.released rfl, rfl, rfl⟩, ⟨.full rfl rfl, rfl, rfl⟩⟩

end Draft

end Columnar
