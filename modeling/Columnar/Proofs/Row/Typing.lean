import Columnar.Proofs.Row.Pending

/-!
# The form of values in progress

Whatever is accepted into a slot is in the form in which its column keeps it, and stays so until
the slot is closed. A closed row is therefore always a row that the columns admit.
-/

namespace Columnar

namespace Pending

mutual

/-- Whether everything written to a slot is in the form in which the column keeps it. -/
def Typed : ColumnType → Pending → Prop
  | .scalar type, pending => ∀ value ∈ pending.written, value.type = type
  | .array element, pending =>
      (∀ item ∈ pending.closed, element.Admits item) ∧ Typed element pending.current
  | .tuple columns, pending => TypedEach columns pending.columns

/-- Whether everything written to the slots of columns is in the form in which these keep it. -/
def TypedEach : Schema → List Pending → Prop
  | .nil, _ => True
  | .cons _ type rest, pendings => Typed type (first pendings) ∧ TypedEach rest pendings.tail

end

mutual

/-- Nothing written is nothing of a wrong form. -/
theorem typed_ofType : ∀ type : ColumnType, Typed type (ofType type)
  | .scalar _ => fun _ written => nomatch written
  | .array element => ⟨fun _ member => (nomatch member), typed_ofType element⟩
  | .tuple columns => typedEach_ofSchema columns

/-- Nothing written to any column is nothing of a wrong form. -/
theorem typedEach_ofSchema : ∀ schema : Schema, TypedEach schema (ofSchema schema)
  | .nil => trivial
  | .cons _ type rest => ⟨typed_ofType type, typedEach_ofSchema rest⟩

end

mutual

/-- Closing a slot leaves a value in the kept form. -/
theorem admits_close : ∀ (type : ColumnType) (pending : Pending), Typed type pending →
    type.Admits (close type pending)
  | .scalar type, pending, typed => by
      simp only [Typed] at typed
      simp only [close, ColumnType.Admits]
      cases written : pending.written with
      | none => exact type.type_blank
      | some value => exact typed value written
  | .array _, _, typed => typed.1
  | .tuple columns, pending, typed => admits_closeEach columns pending.columns typed

/-- Closing the slots of all columns leaves values in the kept form. -/
theorem admits_closeEach : ∀ (schema : Schema) (pendings : List Pending),
    TypedEach schema pendings → schema.Admits (closeEach schema pendings)
  | .nil, _, _ => trivial
  | .cons _ type rest, pendings, typed =>
      ⟨admits_close type (first pendings) typed.1, admits_closeEach rest pendings.tail typed.2⟩

end

/-- Closing the element in progress of an array keeps the form. -/
private theorem typed_closeElement {element : ColumnType} {closed : List Value} {current : Pending}
    (admitted : ∀ item ∈ closed, element.Admits item) (typed : Typed element current) :
    Typed (.array element) (.array (closed ++ [close element current]) (ofType element)) := by
  refine ⟨?_, typed_ofType element⟩
  intro item member
  rcases List.mem_append.mp member with before | last
  · exact admitted item before
  · rw [List.mem_singleton.mp last]
    exact admits_close element current typed

mutual

/-- Writing a whole value keeps the form. -/
theorem typed_put : ∀ (value : Value) (type : ColumnType) (pending : Pending),
    Typed type pending → Typed type (put value type pending).1
  | .scalar value, .scalar type, pending, typed => by
      simp only [put]
      cases keeps : type.keep? value with
      | none => exact typed
      | some kept =>
        intro written isKept
        obtain rfl := Option.some.inj isKept
        exact ScalarType.type_of_keep? keeps
  | .array items, .array element, pending, typed =>
      typed_putElements items element pending.closed pending.current typed.1 typed.2
  | .tuple items, .tuple columns, pending, typed => by
      simp only [put]
      split
      · exact typed
      · exact typedEach_putEach items columns pending.columns typed
  | .scalar _, .array _, _, typed | .scalar _, .tuple _, _, typed
  | .array _, .scalar _, _, typed | .array _, .tuple _, _, typed
  | .tuple _, .scalar _, _, typed | .tuple _, .array _, _, typed => typed

/-- Writing elements keeps the form of those closed and of the one in progress. -/
theorem typed_putElements : ∀ (items : List Value) (element : ColumnType) (closed : List Value)
    (current : Pending), (∀ item ∈ closed, element.Admits item) → Typed element current →
    (∀ item ∈ (putElements items element closed current).1, element.Admits item) ∧
      Typed element (putElements items element closed current).2.1
  | [], _, _, _, admitted, typed => ⟨admitted, typed⟩
  | item :: rest, element, closed, current, admitted, typed => by
      have written := typed_put item element current typed
      simp only [putElements]
      generalize put item element current = outcome at written ⊢
      obtain ⟨pending, taken⟩ := outcome
      cases taken with
      | false => exact ⟨admitted, written⟩
      | true =>
        obtain ⟨admittedAfter, fresh⟩ := typed_closeElement admitted written
        exact typed_putElements rest element _ _ admittedAfter fresh

/-- Writing into the leading columns keeps the form in all of them. -/
theorem typedEach_putEach : ∀ (items : List Value) (schema : Schema) (pendings : List Pending),
    TypedEach schema pendings → TypedEach schema (putEach items schema pendings).1
  | [], _, _, typed => by simpa only [putEach] using typed
  | _ :: _, .nil, _, _ => trivial
  | item :: items, .cons name type rest, pendings, typed => by
      have written := typed_put item type (first pendings) typed.1
      simp only [putEach]
      generalize put item type (first pendings) = outcome at written ⊢
      obtain ⟨pending, taken⟩ := outcome
      cases taken with
      | false => exact ⟨written, typed.2⟩
      | true => exact ⟨written, typedEach_putEach items rest pendings.tail typed.2⟩

end

private theorem typed_editHere (edit : Edit) {type : ColumnType} {pending : Pending}
    (typed : Typed type pending) : Typed type (editHere edit type pending).1 := by
  cases edit with
  | put value => exact typed_put value type pending typed
  | set value =>
    cases type with
    | scalar type => exact typed_put (.scalar value) (.scalar type) pending typed
    | array _ => exact typed
    | tuple _ => exact typed
  | saveElement =>
    cases type with
    | scalar _ => exact typed
    | tuple _ => exact typed
    | array element =>
      simp only [editHere, saveElement]
      split
      · exact typed
      · exact typed_closeElement typed.1 typed.2

private theorem typedEach_update {change : ColumnType → Pending → Pending × Bool}
    (keeps : ∀ type pending, Typed type pending → Typed type (change type pending).1) :
    ∀ (schema : Schema) (index : ColumnIndex) (pendings : List Pending),
      TypedEach schema pendings → TypedEach schema (update change schema index pendings).1
  | .nil, _, _, _ => trivial
  | .cons name type rest, .name sought, pendings, typed => by
      simp only [update]
      split
      · exact ⟨keeps type _ typed.1, typed.2⟩
      · exact ⟨typed.1, typedEach_update keeps rest (.name sought) pendings.tail typed.2⟩
  | .cons _ type rest, .position 0, pendings, typed => ⟨keeps type _ typed.1, typed.2⟩
  | .cons _ _ rest, .position (position + 1), pendings, typed =>
      ⟨typed.1, typedEach_update keeps rest (.position position) pendings.tail typed.2⟩

/-- An edit keeps the form of everything written. -/
theorem typed_edit (change : Edit) (path : List Step) (type : ColumnType) (pending : Pending)
    (typed : Typed type pending) : Typed type (edit change path type pending).1 := by
  induction path generalizing type pending with
  | nil => exact typed_editHere change typed
  | cons step path inductionHypothesis =>
    cases step with
    | column index =>
      cases type with
      | tuple columns =>
        exact typedEach_update inductionHypothesis columns index pending.columns typed
      | scalar _ => exact typed
      | array _ => exact typed
    | entry =>
      cases type with
      | array element =>
        have below := inductionHypothesis element pending.current typed.2
        simp only [edit]
        generalize edit change path element pending.current = outcome at below ⊢
        obtain ⟨current, accepted⟩ := outcome
        simp only [enter]
        split
        · exact typed_closeElement typed.1 below
        · exact ⟨typed.1, below⟩
      | scalar _ => exact typed
      | tuple _ => exact typed

end Pending

end Columnar
