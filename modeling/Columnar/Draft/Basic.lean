import Columnar.Batch.Basic
import Columnar.Draft.Edit
import Columnar.Draft.Layout
import Columnar.Event

/-!
# Drafts

A batch that is being written, row by row. Values go into the row in progress; saving the row
closes it in every column. A row that does not fit is dropped as a whole, back to the last saved
row. Sealing turns the saved rows into a batch, and after that nothing can be written.
-/

namespace Columnar

/-- The phases in the life of a draft. -/
inductive Phase where
  | writing
  | sealed
  | released
  deriving DecidableEq

/-- What an operation answers, and what it reports. -/
structure Outcome (α : Type) where
  result : Except Refusal α
  events : List Event := []

namespace Outcome

/-- The outcome of a refused operation without reports. -/
def refuse {α : Type} (refusal : Refusal) : Outcome α :=
  ⟨.error refusal, []⟩

/-- The outcome of an accepted operation without reports. -/
def accept {α : Type} (value : α) : Outcome α :=
  ⟨.ok value, []⟩

end Outcome

/-- A batch being written. `row` is the row in progress, and so the number of rows saved. -/
structure Draft where
  limits : Limits
  schema : Schema
  phase : Phase
  row : Nat
  columns : Nodes
  deriving DecidableEq

namespace Draft

/-- A draft without rows. -/
def ofSchema (schema : Schema) (limits : Limits) : Draft :=
  ⟨limits, schema, .writing, 0, Nodes.ofSchema limits.bufferBytes "" schema⟩

/-- The report of a draft that begins. -/
def boundEvent (draft : Draft) : Event :=
  .bound draft.columns.length (Layout.ofSchema draft.schema).1.size draft.limits

/-- The row tuple of a draft. -/
def root (draft : Draft) : Node :=
  .tuple "" draft.row draft.columns

/-- Why nothing can be written, if nothing can: the phase is looked at before the row limit. -/
def gate? (draft : Draft) : Option Refusal :=
  match draft.phase with
  | .sealed => some (.misuse .sealed)
  | .released => some (.misuse .released)
  | .writing =>
      if draft.limits.rows ≤ draft.row then some (.overflow (.rowLimit draft.limits.rows)) else none

/-- Whether the row limit or the limit of some buffer is reached. -/
def isFull (draft : Draft) : Bool :=
  draft.limits.rows ≤ draft.row || draft.columns.anyExhausted

/-- The elements written for the current slot of every array, in schema order. -/
def elementIndices (draft : Draft) : List Nat :=
  draft.columns.elementIndices

/-- The column at the end of a path from the row. -/
def find (draft : Draft) (path : List Step) : Except Mismatch Node :=
  draft.root.find path

/-- Drops everything written since the last saved row. -/
def discardRow : Draft → Draft
  | ⟨limits, schema, phase, row, columns⟩ => ⟨limits, schema, phase, row, columns.truncate row⟩

/-- Ends an operation. A lack of room drops the row in progress; any other refusal leaves it. -/
def settle (draft : Draft) : Option Refusal → Draft × Outcome Unit
  | none => (draft, .accept ())
  | some (.overflow (.buffer column requested capacity)) =>
      let event := Event.rowOverflowed draft.row column requested capacity
      (draft.discardRow, ⟨.error (.overflow (.buffer column requested capacity)), [event]⟩)
  | some refusal => (draft, .refuse refusal)

/-- Does an edit at the end of a path from the row. -/
def edit (draft : Draft) (path : List Step) (edit : Edit) : Draft × Outcome Unit :=
  let gate := draft.gate?
  match draft with
  | ⟨limits, schema, phase, row, columns⟩ =>
      let (root, refusal) := Node.edit gate edit path row (.tuple "" row columns)
      settle ⟨limits, schema, phase, row, root.columns⟩ refusal

/-- Closes the row in progress in every column and moves on to the next. -/
def save (draft : Draft) : Draft × Outcome Unit :=
  match draft.gate? with
  | some refusal => (draft, .refuse refusal)
  | none =>
      match draft with
      | ⟨limits, schema, phase, row, columns⟩ =>
          match columns.commit row with
          | (columns, none) => (⟨limits, schema, phase, row + 1, columns⟩, .accept ())
          | (columns, some refusal) =>
              settle ⟨limits, schema, phase, row, columns⟩ (some refusal)

/-- Drops the row in progress of a draft that is still written, and reports it. -/
def discard (draft : Draft) : Draft × List Event :=
  match draft.phase with
  | .writing => (draft.discardRow, [.rowDiscarded draft.row])
  | _ => (draft, [])

/-- Writes a whole row and saves it. A row that is not accepted is dropped, with whatever was
written into it before. -/
def addRow (draft : Draft) (value : Value) : Draft × Outcome Unit :=
  match draft.edit [] (.put value) with
  | (draft, ⟨.error refusal, events⟩) =>
      let (draft, more) := draft.discard
      (draft, ⟨.error refusal, events ++ more⟩)
  | (draft, ⟨.ok (), events⟩) =>
      let (draft, outcome) := draft.save
      (draft, ⟨outcome.result, events ++ outcome.events⟩)

/-- The batch of the rows in the columns. -/
def batch? (draft : Draft) : Except AssemblyError Batch := do
  let datas ← draft.columns.datas?
  Batch.assemble? draft.schema.toArrow draft.row datas

/-- Drops the row in progress and turns the saved rows into a batch. The buffers are empty
afterwards. -/
def finish (draft : Draft) : Draft × Outcome Batch :=
  match draft.phase with
  | .sealed => (draft, .refuse (.misuse .alreadyDone))
  | .released => (draft, .refuse (.misuse .released))
  | .writing =>
      let cut := draft.discardRow
      let emptied := cut.columns.reset
      match cut.batch? with
      | .ok batch =>
          ({ cut with phase := .sealed, columns := emptied },
            ⟨.ok batch, [.batchSealed cut.row batch.columns.length]⟩)
      | .error error =>
          ({ cut with phase := .released, columns := emptied }, .refuse (.assembly error))

/-- Gives up the buffers of a draft that is still written. -/
def release (draft : Draft) : Draft × List Event :=
  match draft.phase with
  | .writing =>
      ({ draft with phase := .released, columns := draft.columns.reset }, [.released draft.row])
  | _ => (draft, [])

end Draft

end Columnar
