import Columnar.Proofs.Row.Machine

/-!
# Arrays of scalars have nothing in progress

A value that the scalar entry of an array accepts is an element at once, and one that is refused
leaves nothing behind. So between operations no such entry has a value in progress, at any depth.
-/

namespace Columnar

namespace Pending

mutual

/-- Whether no scalar entry of an array has a value in progress. -/
def Settled : ColumnType → Pending → Prop
  | .scalar _, _ => True
  | .array element, pending =>
      (element.isScalar = true → pending.current.written = none) ∧ Settled element pending.current
  | .tuple columns, pending => SettledEach columns pending.columns

/-- Whether no scalar entry of an array in some columns has a value in progress. -/
def SettledEach : Schema → List Pending → Prop
  | .nil, _ => True
  | .cons _ type rest, pendings => Settled type (first pendings) ∧ SettledEach rest pendings.tail

end

/-- A scalar that nothing is written to has no value in progress. -/
theorem written_ofType {type : ColumnType} (isScalar : type.isScalar = true) :
    (ofType type).written = none := by
  cases type with
  | scalar _ => rfl
  | array _ => cases isScalar
  | tuple _ => cases isScalar

mutual

/-- Where nothing is written, nothing is in progress. -/
theorem settled_ofType : ∀ type : ColumnType, Settled type (ofType type)
  | .scalar _ => trivial
  | .array element => ⟨written_ofType, settled_ofType element⟩
  | .tuple columns => settledEach_ofSchema columns

/-- Where nothing is written to any column, nothing is in progress. -/
theorem settledEach_ofSchema : ∀ schema : Schema, SettledEach schema (ofSchema schema)
  | .nil => trivial
  | .cons _ type rest => ⟨settled_ofType type, settledEach_ofSchema rest⟩

end

/-- An array that goes on to a fresh element has nothing in progress in its entry. -/
private theorem settled_fresh (element : ColumnType) (closed : List Value) :
    Settled (.array element) (.array closed (ofType element)) :=
  settled_ofType (.array element)

/-- A scalar column that refuses a value holds what it held. -/
private theorem put_refused {value : Value} {type : ColumnType} {pending : Pending}
    (isScalar : type.isScalar = true) (refused : (put value type pending).2 = false) :
    (put value type pending).1 = pending := by
  cases type with
  | array _ => cases isScalar
  | tuple _ => cases isScalar
  | scalar type =>
    cases value with
    | scalar value =>
      simp only [put] at refused ⊢
      cases keeps : type.keep? value with
      | none => rfl
      | some kept => simp [keeps] at refused
    | array _ => rfl
    | tuple _ => rfl

/-- A scalar column that refuses an edit holds what it held. -/
private theorem edit_refused {change : Edit} {steps : List Step} {type : ColumnType}
    {pending : Pending} (isScalar : type.isScalar = true)
    (refused : (edit change steps type pending).2 = false) :
    (edit change steps type pending).1 = pending := by
  cases type with
  | array _ => cases isScalar
  | tuple _ => cases isScalar
  | scalar type =>
    cases steps with
    | nil =>
      cases change with
      | set _ => exact put_refused rfl refused
      | put _ => exact put_refused rfl refused
      | saveElement => rfl
    | cons step _ => cases step <;> rfl

mutual

/-- Writing a whole value leaves no scalar entry in progress. -/
theorem settled_put : ∀ (value : Value) (type : ColumnType) (pending : Pending),
    Settled type pending → Settled type (put value type pending).1
  | .scalar _, .scalar _, _, _ => trivial
  | .array items, .array element, pending, settled =>
      settled_putElements items element pending.closed pending.current settled
  | .tuple items, .tuple columns, pending, settled => by
      simp only [put]
      split
      · exact settled
      · exact settledEach_putEach items columns pending.columns settled
  | .scalar _, .array _, _, settled | .scalar _, .tuple _, _, settled
  | .array _, .scalar _, _, settled | .array _, .tuple _, _, settled
  | .tuple _, .scalar _, _, settled | .tuple _, .array _, _, settled => settled

/-- Writing elements leaves no scalar entry in progress, also where an element is refused. -/
theorem settled_putElements : ∀ (items : List Value) (element : ColumnType) (closed : List Value)
    (current : Pending), Settled (.array element) (.array closed current) →
    Settled (.array element)
      (.array (putElements items element closed current).1
        (putElements items element closed current).2.1)
  | [], _, _, _, settled => settled
  | item :: rest, element, closed, current, settled => by
      have written := settled_put item element current settled.2
      have refusedScalar := @put_refused item element current
      simp only [putElements]
      generalize put item element current = outcome at written refusedScalar ⊢
      obtain ⟨pending, taken⟩ := outcome
      cases taken with
      | false =>
        refine ⟨?_, written⟩
        intro isScalar
        rw [show pending = current from refusedScalar isScalar rfl]
        exact settled.1 isScalar
      | true => exact settled_putElements rest element _ _ (settled_fresh element _)

/-- Writing into the leading columns leaves no scalar entry in progress. -/
theorem settledEach_putEach : ∀ (items : List Value) (schema : Schema) (pendings : List Pending),
    SettledEach schema pendings → SettledEach schema (putEach items schema pendings).1
  | [], _, _, settled => by simpa only [putEach] using settled
  | _ :: _, .nil, _, _ => trivial
  | item :: items, .cons name type rest, pendings, settled => by
      have written := settled_put item type (first pendings) settled.1
      simp only [putEach]
      generalize put item type (first pendings) = outcome at written ⊢
      obtain ⟨pending, taken⟩ := outcome
      cases taken with
      | false => exact ⟨written, settled.2⟩
      | true => exact ⟨written, settledEach_putEach items rest pendings.tail settled.2⟩

end

private theorem settled_editHere (edit : Edit) {type : ColumnType} {pending : Pending}
    (settled : Settled type pending) : Settled type (editHere edit type pending).1 := by
  cases edit with
  | put value => exact settled_put value type pending settled
  | set value =>
    cases type with
    | scalar _ => trivial
    | array _ => exact settled
    | tuple _ => exact settled
  | saveElement =>
    cases type with
    | scalar _ => exact settled
    | tuple _ => exact settled
    | array element =>
      simp only [editHere, saveElement]
      split
      · exact settled
      · exact settled_fresh element _

private theorem settledEach_update {change : ColumnType → Pending → Pending × Bool}
    (keeps : ∀ type pending, Settled type pending → Settled type (change type pending).1) :
    ∀ (schema : Schema) (index : ColumnIndex) (pendings : List Pending),
      SettledEach schema pendings → SettledEach schema (update change schema index pendings).1
  | .nil, _, _, _ => trivial
  | .cons name type rest, .name sought, pendings, settled => by
      simp only [update]
      split
      · exact ⟨keeps type _ settled.1, settled.2⟩
      · exact ⟨settled.1, settledEach_update keeps rest (.name sought) pendings.tail settled.2⟩
  | .cons _ type rest, .position 0, pendings, settled => ⟨keeps type _ settled.1, settled.2⟩
  | .cons _ _ rest, .position (position + 1), pendings, settled =>
      ⟨settled.1, settledEach_update keeps rest (.position position) pendings.tail settled.2⟩

/-- An edit leaves no scalar entry in progress. -/
theorem settled_edit (change : Edit) (path : List Step) (type : ColumnType) (pending : Pending)
    (settled : Settled type pending) : Settled type (edit change path type pending).1 := by
  induction path generalizing type pending with
  | nil => exact settled_editHere change settled
  | cons step path inductionHypothesis =>
    cases step with
    | column index =>
      cases type with
      | tuple columns =>
        exact settledEach_update inductionHypothesis columns index pending.columns settled
      | scalar _ => exact settled
      | array _ => exact settled
    | entry =>
      cases type with
      | scalar _ => exact settled
      | tuple _ => exact settled
      | array element =>
        have below := inductionHypothesis element pending.current settled.2
        have refusedScalar := @edit_refused change path element pending.current
        simp only [edit]
        generalize edit change path element pending.current = outcome at below refusedScalar ⊢
        obtain ⟨current, accepted⟩ := outcome
        simp only [enter]
        split
        · exact settled_fresh element _
        · rename_i notClosed
          refine ⟨?_, below⟩
          intro isScalar
          have refused : accepted = false := by simpa [isScalar] using notClosed
          rw [show Pending.current (.array pending.closed current) = pending.current from
            refusedScalar isScalar refused]
          exact settled.1 isScalar

end Pending

namespace RowMachine

variable {schema : Schema} {limit : Nat} {machine : RowMachine}

/-- No operation leaves a scalar entry of an array in progress. -/
theorem settled_act (settled : machine.current.Settled (.tuple schema)) (action : Draft.Action)
    (short : Bool) :
    (machine.act schema limit action short).current.Settled (.tuple schema) := by
  have fresh := Pending.settled_ofType (.tuple schema)
  cases short with
  | true => exact fresh
  | false =>
    by_cases fewer : machine.rows.length < limit
    · cases action with
      | edit path change =>
        rw [act_edit fewer]
        exact Pending.settled_edit change path _ _ settled
      | save =>
        rw [act_save fewer]
        exact fresh
      | addRow value =>
        cases put : Pending.put value (.tuple schema) machine.current with
        | mk pending accepted =>
          cases accepted with
          | true =>
            rw [act_addRow fewer put]
            exact fresh
          | false =>
            rw [act_addRow_rejected fewer (congrArg Prod.snd put)]
            exact fresh
      | finish => exact settled
      | release => exact settled
    · rw [act_full (Nat.le_of_not_lt fewer)]
      exact settled

/-- Operations one after the other leave no scalar entry of an array in progress. -/
theorem settled_replay (settled : machine.current.Settled (.tuple schema))
    (steps : List (Draft.Action × Except Refusal Unit)) :
    (machine.replay schema limit steps).current.Settled (.tuple schema) := by
  induction steps generalizing machine with
  | nil => exact settled
  | cons step rest inductionHypothesis =>
    exact inductionHypothesis (settled_act settled step.1 (ranShort step.2))

end RowMachine

end Columnar
