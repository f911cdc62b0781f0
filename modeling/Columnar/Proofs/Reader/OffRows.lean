import Columnar.Proofs.Mirror
import Columnar.Proofs.Reader.Filled

/-!
# Readers off the rows

Before the first row, behind the last one and after going back, there is no current row and nothing
can be read, whatever was moved on the rows before. An operation is then refused for its path or for
the shape of the column, if these do not fit, and else because there is no row. The one exception is
the row of a schema without columns, in which there is nothing to look at.
-/

namespace Columnar

namespace Reader

/-- The column that an operation on the current row is done on, and the shape that it must have, if
it must have one. -/
def Action.target? : Action → Option (List Step × Option Kind)
  | .next => none
  | .setRow _ => none
  | .reset => none
  | .row => some ([], none)
  | .object path => some (path, none)
  | .scalar path _ => some (path, some .scalar)
  | .size path => some (path, some .array)
  | .select path _ => some (path, some .array)
  | .element path _ => some (path, some .array)
  | .selectTuple path _ => some (path ++ [.entry], some .tuple)
  | .scalarElement path _ _ => some (path ++ [.entry], some .scalar)

/-- Why an operation on a column is refused without a current row: because the path does not lead to
a column of the shape, or else because there is no row. -/
def refusalOff (reader : Reader) (path : List Step) (requested : Option Kind) : Refusal :=
  match reader.visit path requested with
  | .error refusal => refusal
  | .ok _ => .misuse .noCurrentRow

variable {reader : Reader} {path : List Step} {requested : Option Kind}

/-- Without a current row an operation is refused for a mismatch, or because there is no row. -/
theorem refusalOff_eq (reader : Reader) (path : List Step) (requested : Option Kind) :
    reader.refusalOff path requested = .misuse .noCurrentRow ∨
      ∃ mismatch, reader.refusalOff path requested = .mismatch mismatch := by
  rw [refusalOff, visit, find]
  cases Spot.find ⟨reader.root, reader.position⟩ path with
  | error mismatch => exact .inr ⟨mismatch, rfl⟩
  | ok spot =>
    cases cast : requested.forM spot.cast with
    | error mismatch =>
      refine .inr ⟨mismatch, ?_⟩
      simp only [Except.mapError, bind, Except.bind, cast]
    | ok _ =>
      refine .inl ?_
      simp only [Except.mapError, bind, Except.bind, cast]
      rfl

section Rowless

variable (rowless : reader.rowIndex? = none)

include rowless

/-- Without a current row no column is anywhere. -/
private theorem position_of_find {spot : Spot} (found : reader.find path = .ok spot) :
    spot.position = .error (.misuse .noCurrentRow) := by
  refine (find_eq_ok_iff.mp found).position_eq_error ?_
  rw [position_eq, rowless]

private theorem object_off (filled : ∀ spot, reader.find path = .ok spot → spot.view.Filled) :
    reader.object path = .error (reader.refusalOff path none) := by
  rw [object, refusalOff, visit]
  cases found : reader.find path with
  | error _ => rfl
  | ok spot =>
    change spot.view.read spot.position = _
    rw [position_of_find rowless found, (filled spot found).read_error]
    rfl

private theorem scalar_off (type? : Option ScalarType) :
    reader.scalar path type? = .error (reader.refusalOff path (some .scalar)) := by
  rw [scalar, refusalOff, visit]
  cases found : reader.find path with
  | error _ => rfl
  | ok spot =>
    have nowhere := position_of_find rowless found
    obtain ⟨view, position⟩ := spot
    cases nowhere
    cases view <;> rfl

/-- What needs the position of an array is refused for the array or for the row. -/
private theorem array_off {α : Type} {use : ArraySpot → Except Refusal α}
    (stuck : ∀ array, array.position = .error (.misuse .noCurrentRow) →
      use array = .error (.misuse .noCurrentRow)) :
    reader.findArray path >>= use = .error (reader.refusalOff path (some .array)) := by
  rw [findArray, refusalOff, visit]
  cases found : reader.find path with
  | error _ => rfl
  | ok spot =>
    have nowhere := position_of_find rowless found
    obtain ⟨view, position⟩ := spot
    cases nowhere
    cases view with
    | scalar _ _ => rfl
    | tuple _ _ => rfl
    | array own offsets selected entry => exact stuck ⟨own, offsets, selected, entry, _⟩ rfl

/-- What needs the position of an array, and an entry of a shape, is refused for either or for the
row. -/
private theorem entry_off {α β : Type} {kind : Kind} {cast : View → Except Mismatch β}
    {use : ArraySpot → β → Except Refusal α}
    (casts : ∀ spot : Spot, spot.cast kind = (cast spot.view).map fun _ => ())
    (stuck : ∀ array part, reader.findArray path = .ok array →
      array.position = .error (.misuse .noCurrentRow) →
      use array part = .error (.misuse .noCurrentRow)) :
    (do
      let array ← reader.findArray path
      let part ← (cast array.entry).mapError Refusal.mismatch
      use array part) = .error (reader.refusalOff (path ++ [.entry]) (some kind)) := by
  rw [refusalOff, visit, find_append]
  cases found : reader.find path with
  | error _ =>
    rw [findArray, found]
    rfl
  | ok spot =>
    have nowhere := position_of_find rowless found
    obtain ⟨view, position⟩ := spot
    cases nowhere
    cases view with
    | scalar _ _ =>
      rw [findArray, found]
      rfl
    | tuple _ _ =>
      rw [findArray, found]
      rfl
    | array own offsets selected entry =>
      have taken := casts ⟨entry, entryPosition offsets selected (.error (.misuse .noCurrentRow))⟩
      have here := findArray_of_find found
      rw [here]
      simp only [Spot.find, Spot.child, Option.forM, Except.mapError, bind,
        Except.bind, taken]
      cases cast entry with
      | error _ => rfl
      | ok part => exact stuck _ part here rfl

/-- Without a current row every operation on a column is refused, and changes nothing. -/
private theorem act_off
    (filled : requested = none → ∀ spot, reader.find path = .ok spot → spot.view.Filled)
    {action : Action} (target : action.target? = some (path, requested)) :
    reader.act action = (reader, .error (reader.refusalOff path requested)) := by
  cases action with
  | next => cases target
  | setRow _ => cases target
  | reset => cases target
  | row =>
    cases target
    have refused : reader.row = _ := object_off rowless (filled rfl)
    rw [act_row, refused]
    rfl
  | object path =>
    cases target
    rw [act_object, object_off rowless (filled rfl)]
    rfl
  | scalar path type? =>
    cases target
    rw [act, scalar_off rowless]
    rfl
  | size path =>
    cases target
    have refused : reader.size path = _ := array_off rowless fun array nowhere => by
      rw [ArraySpot.size, nowhere]
      rfl
    rw [act, refused]
    rfl
  | select path index =>
    cases target
    have refused : reader.select path index = _ := (select_eq reader path index).trans
      (array_off rowless fun array nowhere => by
        rw [nowhere]
        rfl)
    rw [act, refused]
    rfl
  | element path index =>
    cases target
    have refused : reader.element path index = _ := array_off rowless fun array nowhere => by
      rw [ArraySpot.readAt, nowhere]
      rfl
    rw [act_element, refused]
    rfl
  | selectTuple path index =>
    cases target
    have refused : (do
        let array ← reader.findArray path
        let _ ← array.entry.asTuple.mapError Refusal.mismatch
        reader.select path index : Except Refusal Reader) =
          .error (reader.refusalOff (path ++ [.entry]) (some .tuple)) :=
      entry_off rowless (fun _ => rfl) fun array _ found nowhere => by
        rw [select_eq, found]
        change array.position >>= _ = _
        rw [nowhere]
        rfl
    rw [act, selectTuple_eq, refused]
    rfl
  | scalarElement path index type =>
    cases target
    have refused : reader.scalarElement path index type =
        .error (reader.refusalOff (path ++ [.entry]) (some .scalar)) :=
      entry_off rowless (fun _ => rfl) fun array _ found nowhere => by
        rw [nowhere]
        rfl
    rw [act, refused]
    rfl

end Rowless

/-- Whatever was done with a reader of a sealed set before, without a current row nothing is read
and no entry is moved: every operation on a column is refused, because its path does not lead to a
column of the shape or else because there is no row. Only the row of a schema without columns is
read all the same, and nothing is said of it here. -/
theorem unread_of_run {set : SealedSet} (checked : set.schema.checkAll = .ok ())
    (bound : set.reader = .ok reader) (moves : List Action)
    (rowless : (reader.run moves).rowIndex? = none) {action : Action}
    (target : action.target? = some (path, requested))
    (occupied : set.schema = .nil → requested = none → path ≠ []) :
    let now := reader.run moves
    now.act action = (now, .error (now.refusalOff path requested)) ∧
      (now.refusalOff path requested = .misuse .noCurrentRow ∨
        ∃ mismatch, now.refusalOff path requested = .mismatch mismatch) := by
  intro now
  refine ⟨act_off rowless (fun whole spot found => ?_) target, now.refusalOff_eq path requested⟩
  exact filled_of_find checked bound moves (fun empty => occupied empty whole) found

/-- A reader that moved the entry of an array on the first row and went behind the last one: the
second element is not read, neither by its index nor at the entry, and the array is no scalar. -/
theorem unread_of_run_exhausted :
    let schema : Schema := .cons "tags" (.array (.scalar .integer)) .nil
    let tags : List Step := [.column (.name "tags")]
    let rows := [Value.tuple [.array [.scalar (.int 1), .scalar (.int 2)]]]
    let moves : List Action := [.next, .select tags 1, .next]
    let set : SealedSet := ⟨schema, some (.ofRows schema rows)⟩
    ∃ reader, set.reader = .ok reader ∧
      let now := reader.run moves
      now.rowIndex? = none ∧
      now.act (.element tags 1) = (now, .error (.misuse .noCurrentRow)) ∧
      now.act (.object (tags ++ [.entry])) = (now, .error (.misuse .noCurrentRow)) ∧
      now.act (.scalar tags none) =
        (now, .error (.mismatch (.wrongKind "tags" .scalar .array))) := by
  intro schema tags rows moves set
  have checked : schema.checkAll = .ok () := rfl
  have bound := SealedSet.reader_ofRows schema rows
  have rowless : ((onRows schema rows .beforeFirst).run moves).rowIndex? = none := by decide +kernel
  have refused : ∀ {action : Action} {path : List Step} {requested : Option Kind},
      action.target? = some (path, requested) → _ := fun target =>
    (unread_of_run checked bound moves rowless target nofun).1
  have element : Action.target? (.element tags 1) = some (tags, some .array) := rfl
  have entry : Action.target? (.object (tags ++ [.entry])) = some (tags ++ [.entry], none) := rfl
  have scalar : Action.target? (.scalar tags none) = some (tags, some .scalar) := rfl
  exact ⟨_, bound, rowless, refused element, refused entry, refused scalar⟩

/-- The row of a schema without columns is read before the first row, although there is no current
row. -/
theorem row_read_of_no_columns :
    ∃ batch reader, Schema.checkAll .nil = .ok () ∧
      ((Draft.ofSchema .nil ⟨4, 64⟩).run []).finish.2.result = .ok batch ∧
      (SealedSet.mk .nil (some batch)).reader = .ok reader ∧ reader.rowIndex? = none ∧
      (reader.act .row).2 = .ok (.value (.tuple [])) :=
  ⟨.ofRows .nil [], .onRows .nil [] .beforeFirst, rfl, rfl, rfl, rfl, rfl⟩

end Reader

end Columnar
