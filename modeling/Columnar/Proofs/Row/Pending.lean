import Columnar.Draft.Edit
import Columnar.Draft.Layout
import Columnar.Proofs.Conformance

/-!
# Values in progress

What was written into one slot of a column that is not closed yet, told without any buffers. A
scalar holds the last value it accepted, an array the elements closed so far and the one in
progress, and a tuple what is in progress in each of its columns. Closing turns this into a value:
whatever is missing is blank, and an element that was not closed is dropped.
-/

namespace Columnar

/-- What was written into a slot that is not closed. -/
inductive Pending where
  | scalar (value : Option Scalar)
  | array (closed : List Value) (current : Pending)
  | tuple (columns : List Pending)

namespace Pending

/-- The last value that a scalar accepted, if any. -/
def written : Pending → Option Scalar
  | .scalar value => value
  | _ => none

/-- The elements of an array that are closed. -/
def closed : Pending → List Value
  | .array closed _ => closed
  | _ => []

/-- The element of an array that is in progress. -/
def current : Pending → Pending
  | .array _ current => current
  | _ => .scalar none

/-- What is in progress in the columns of a tuple. -/
def columns : Pending → List Pending
  | .tuple columns => columns
  | _ => []

/-- What is in progress in the first of some columns. -/
def first (pendings : List Pending) : Pending :=
  pendings.headD (.scalar none)

mutual

/-- A slot that nothing was written to. -/
def ofType : ColumnType → Pending
  | .scalar _ => .scalar none
  | .array element => .array [] (ofType element)
  | .tuple columns => .tuple (ofSchema columns)

/-- Slots of columns that nothing was written to. -/
def ofSchema : Schema → List Pending
  | .nil => []
  | .cons _ type rest => ofType type :: ofSchema rest

end

mutual

/-- The value of a slot once it is closed. -/
def close : ColumnType → Pending → Value
  | .scalar type, pending => .scalar (pending.written.getD type.blank)
  | .array _, pending => .array pending.closed
  | .tuple columns, pending => .tuple (closeEach columns pending.columns)

/-- The values of the slots of columns once they are closed. -/
def closeEach : Schema → List Pending → List Value
  | .nil, _ => []
  | .cons _ type rest, pendings => close type (first pendings) :: closeEach rest pendings.tail

end

mutual

/-- Writes a whole value, up to the first part that is not accepted. Elements of arrays are closed
as they are written. -/
def put : Value → ColumnType → Pending → Pending × Bool
  | .scalar value, .scalar type, pending =>
      match type.keep? value with
      | some kept => (.scalar (some kept), true)
      | none => (pending, false)
  | .array items, .array element, pending =>
      let (closed, current, accepted) := putElements items element pending.closed pending.current
      (.array closed current, accepted)
  | .tuple items, .tuple columns, pending =>
      if columns.length < items.length then (pending, false)
      else
        let (pendings, accepted) := putEach items columns pending.columns
        (.tuple pendings, accepted)
  | _, _, pending => (pending, false)

/-- Writes values as elements of an array and closes each of them. -/
def putElements : List Value → ColumnType → List Value → Pending → List Value × Pending × Bool
  | [], _, closed, current => (closed, current, true)
  | item :: rest, element, closed, current =>
      match put item element current with
      | (current, false) => (closed, current, false)
      | (current, true) =>
          putElements rest element (closed ++ [close element current]) (ofType element)

/-- Writes values into the leading columns of a tuple, one into each. -/
def putEach : List Value → Schema → List Pending → List Pending × Bool
  | item :: items, .cons _ type rest, pendings =>
      match put item type (first pendings) with
      | (pending, false) => (pending :: pendings.tail, false)
      | (pending, true) =>
          let (below, accepted) := putEach items rest pendings.tail
          (pending :: below, accepted)
  | _, _, pendings => (pendings, true)

end

/-- Closes the element in progress of an array and begins a fresh one. The elements of an array of
scalars are closed as they are written. -/
def saveElement (element : ColumnType) (pending : Pending) : Pending :=
  if element.isScalar then pending
  else .array (pending.closed ++ [close element pending.current]) (ofType element)

/-- Does an edit in a slot of the kind that the edit is for. -/
def editHere (edit : Edit) (type : ColumnType) (pending : Pending) : Pending × Bool :=
  match edit, type with
  | .set value, .scalar type => put (.scalar value) (.scalar type) pending
  | .set _, _ => (pending, false)
  | .put value, type => put value type pending
  | .saveElement, .array element => (pending.saveElement element, true)
  | .saveElement, _ => (pending, false)

/-- Changes what is in progress in the column that an index points at, if there is one. -/
def update (change : ColumnType → Pending → Pending × Bool) :
    Schema → ColumnIndex → List Pending → List Pending × Bool
  | .nil, _, pendings => (pendings, false)
  | .cons name type rest, .name sought, pendings =>
      if name = sought then
        let (pending, accepted) := change type (first pendings)
        (pending :: pendings.tail, accepted)
      else
        let (below, accepted) := update change rest (.name sought) pendings.tail
        (first pendings :: below, accepted)
  | .cons _ type _, .position 0, pendings =>
      let (pending, accepted) := change type (first pendings)
      (pending :: pendings.tail, accepted)
  | .cons _ _ rest, .position (position + 1), pendings =>
      let (below, accepted) := update change rest (.position position) pendings.tail
      (first pendings :: below, accepted)

/-- An edit of the entry of an array. A value that a scalar entry accepts is an element at once. -/
def enter (element : ColumnType) (pending current : Pending) (accepted : Bool) : Pending :=
  if element.isScalar && accepted then
    .array (pending.closed ++ [close element current]) (ofType element)
  else .array pending.closed current

/-- Does an edit at the end of a path, and tells whether it was accepted. -/
def edit (edit : Edit) : List Step → ColumnType → Pending → Pending × Bool
  | [], type, pending => editHere edit type pending
  | .column index :: path, .tuple columns, pending =>
      let (pendings, accepted) :=
        update (fun type child => Pending.edit edit path type child) columns index pending.columns
      (.tuple pendings, accepted)
  | .entry :: path, .array element, pending =>
      let (current, accepted) := Pending.edit edit path element pending.current
      (enter element pending current accepted, accepted)
  | _, _, pending => (pending, false)

mutual

/-- Closing a slot that nothing was written to leaves a blank value. -/
theorem close_ofType : ∀ type : ColumnType, close type (ofType type) = type.blank
  | .scalar _ => rfl
  | .array _ => rfl
  | .tuple columns => congrArg Value.tuple (closeEach_ofSchema columns)

/-- Closing slots that nothing was written to leaves blank values. -/
theorem closeEach_ofSchema : ∀ schema : Schema, closeEach schema (ofSchema schema) = schema.blanks
  | .nil => rfl
  | .cons _ type rest => by
      simp only [closeEach, ofSchema, first, List.headD_cons, List.tail_cons, Schema.blanks]
      rw [close_ofType type, closeEach_ofSchema rest]

end

mutual

/-- A value that a column takes is accepted in a fresh slot, and closing the slot leaves the form
in which the column keeps it. -/
theorem put_of_accepts : ∀ (value : Value) (type : ColumnType), type.Accepts value →
    (put value type (ofType type)).2 = true ∧
      close type (put value type (ofType type)).1 = type.normalize value
  | .scalar value, .scalar type, accepted => by
      obtain ⟨kept, keeps⟩ := Option.isSome_iff_exists.mp
        ((type.keep?_isSome_iff value).mpr accepted)
      have normal := ((type.keep?_eq_some_iff value kept).mp keeps).2
      simp only [put, keeps, normal]
      exact ⟨trivial, rfl⟩
  | .array items, .array element, accepted => by
      have elements := putElements_of_accepts items element [] accepted
      simp only [put, ofType, closed, current, elements]
      exact ⟨trivial, rfl⟩
  | .tuple items, .tuple columns, accepted => by
      have enough := Nat.not_lt.mpr (Schema.length_le_of_accepts accepted)
      obtain ⟨taken, closes⟩ := putEach_of_accepts items columns accepted
      simp only [put, ofType, Pending.columns, if_neg enough, close, ColumnType.normalize]
      exact ⟨taken, congrArg Value.tuple closes⟩
  | .scalar _, .array _, accepted | .scalar _, .tuple _, accepted
  | .array _, .scalar _, accepted | .array _, .tuple _, accepted
  | .tuple _, .scalar _, accepted | .tuple _, .array _, accepted => accepted.elim

/-- Elements that an array takes are all accepted, and each is closed in its kept form. -/
theorem putElements_of_accepts : ∀ (items : List Value) (element : ColumnType)
    (closed : List Value), (∀ item ∈ items, element.Accepts item) →
    putElements items element closed (ofType element) =
      (closed ++ items.map element.normalize, ofType element, true)
  | [], _, closed, _ => by simp [putElements]
  | item :: rest, element, closed, accepted => by
      obtain ⟨taken, closes⟩ :=
        put_of_accepts item element (accepted item List.mem_cons_self)
      have below := putElements_of_accepts rest element (closed ++ [element.normalize item])
        fun next member => accepted next (List.mem_cons_of_mem _ member)
      rw [putElements]
      generalize put item element (ofType element) = outcome at taken closes ⊢
      obtain ⟨pending, accepted⟩ := outcome
      simp only at taken closes
      subst taken
      simp only [closes, below]
      simp

/-- Items that the leading columns of a tuple take are all accepted, and each is closed in its kept
form. -/
theorem putEach_of_accepts : ∀ (items : List Value) (schema : Schema), schema.Accepts items →
    (putEach items schema (ofSchema schema)).2 = true ∧
      closeEach schema (putEach items schema (ofSchema schema)).1 = schema.normalize items
  | [], schema, _ => by
      simp only [putEach]
      exact ⟨trivial, by rw [closeEach_ofSchema, Schema.normalize_nil]⟩
  | item :: items, .cons name type rest, accepted => by
      obtain ⟨taken, closes⟩ := put_of_accepts item type accepted.1
      obtain ⟨below, closesBelow⟩ := putEach_of_accepts items rest accepted.2
      simp only [putEach, ofSchema, first, List.headD_cons, List.tail_cons]
      generalize put item type (ofType type) = outcome at taken closes ⊢
      obtain ⟨pending, accepted⟩ := outcome
      simp only at taken closes
      subst taken
      refine ⟨below, ?_⟩
      simp only [closeEach, first, List.headD_cons, List.tail_cons, Schema.normalize]
      rw [closes, closesBelow]
  | _ :: _, .nil, accepted => accepted.elim

end

mutual

/-- Only a value that the column takes is accepted, whatever was written before. -/
theorem accepts_of_put : ∀ (value : Value) (type : ColumnType) (pending : Pending),
    (put value type pending).2 = true → type.Accepts value
  | .scalar value, .scalar type, pending, accepted => by
      apply (type.keep?_isSome_iff value).mp
      simp only [put] at accepted
      cases keeps : type.keep? value with
      | none => simp [keeps] at accepted
      | some kept => rfl
  | .array items, .array element, pending, accepted =>
      accepts_of_putElements items element pending.closed pending.current accepted
  | .tuple items, .tuple columns, pending, accepted => by
      simp only [put] at accepted
      split at accepted
      · simp at accepted
      · rename_i enough
        exact accepts_of_putEach items columns pending.columns (Nat.le_of_not_lt enough) accepted
  | .scalar _, .array _, _, accepted | .scalar _, .tuple _, _, accepted
  | .array _, .scalar _, _, accepted | .array _, .tuple _, _, accepted
  | .tuple _, .scalar _, _, accepted | .tuple _, .array _, _, accepted => by
      simp [put] at accepted

/-- Only elements that the array takes are accepted. -/
theorem accepts_of_putElements : ∀ (items : List Value) (element : ColumnType)
    (closed : List Value) (current : Pending),
    (putElements items element closed current).2.2 = true → ∀ item ∈ items, element.Accepts item
  | [], _, _, _, _ => fun _ member => nomatch member
  | item :: rest, element, closed, current, accepted => by
      simp only [putElements] at accepted
      have head := accepts_of_put item element current
      generalize put item element current = outcome at accepted head
      obtain ⟨pending, taken⟩ := outcome
      cases taken with
      | false => simp at accepted
      | true =>
        intro next member
        cases member with
        | head => exact head rfl
        | tail _ member => exact accepts_of_putElements rest element _ _ accepted next member

/-- Only items that the leading columns take are accepted. -/
theorem accepts_of_putEach : ∀ (items : List Value) (schema : Schema) (pendings : List Pending),
    items.length ≤ schema.length → (putEach items schema pendings).2 = true →
    schema.Accepts items
  | [], _, _, _, _ => by simp [Schema.Accepts]
  | _ :: _, .nil, _, enough, _ => by simp [Schema.length] at enough
  | item :: items, .cons name type rest, pendings, enough, accepted => by
      simp only [putEach] at accepted
      have head := accepts_of_put item type (first pendings)
      generalize put item type (first pendings) = outcome at accepted head
      obtain ⟨pending, taken⟩ := outcome
      cases taken with
      | false => simp at accepted
      | true =>
        have within : items.length ≤ rest.length := by
          simp only [List.length_cons, Schema.length] at enough
          omega
        exact ⟨head rfl, accepts_of_putEach items rest pendings.tail within accepted⟩

end

/-- A scalar column that accepts a value holds one. -/
theorem written_of_put {value : Value} {type : ColumnType} {pending : Pending}
    (isScalar : type.isScalar = true) (accepted : (put value type pending).2 = true) :
    ∃ kept, (put value type pending).1 = .scalar (some kept) := by
  cases type with
  | array _ => cases isScalar
  | tuple _ => cases isScalar
  | scalar type =>
    cases value with
    | scalar value =>
      simp only [put] at accepted ⊢
      cases keeps : type.keep? value with
      | none => simp [keeps] at accepted
      | some kept => exact ⟨kept, rfl⟩
    | array _ => simp [put] at accepted
    | tuple _ => simp [put] at accepted

/-- An edit that a scalar column accepts leaves a value there. -/
theorem written_of_edit {change : Edit} {steps : List Step} {type : ColumnType} {pending : Pending}
    (isScalar : type.isScalar = true) (accepted : (edit change steps type pending).2 = true) :
    ∃ kept, (edit change steps type pending).1 = .scalar (some kept) := by
  cases type with
  | array _ => cases isScalar
  | tuple _ => cases isScalar
  | scalar type =>
    cases steps with
    | nil =>
      cases change with
      | set _ => exact written_of_put rfl accepted
      | put _ => exact written_of_put rfl accepted
      | saveElement => simp [edit, editHere] at accepted
    | cons step _ => cases step <;> simp [edit] at accepted

/-- Writing elements only adds to those that are closed. -/
theorem putElements_closed (items : List Value) (element : ColumnType) (closed : List Value)
    (current : Pending) :
    ∃ more, (putElements items element closed current).1 = closed ++ more := by
  induction items generalizing closed current with
  | nil => exact ⟨[], (List.append_nil closed).symm⟩
  | cons item rest inductionHypothesis =>
    simp only [putElements]
    generalize put item element current = outcome
    obtain ⟨pending, accepted⟩ := outcome
    cases accepted with
    | false => exact ⟨[], (List.append_nil closed).symm⟩
    | true =>
      obtain ⟨more, below⟩ :=
        inductionHypothesis (closed ++ [close element pending]) (ofType element)
      exact ⟨close element pending :: more, by rw [below, List.append_assoc]; rfl⟩

end Pending

end Columnar
