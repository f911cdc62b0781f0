import Columnar.Batch.Basic
import Columnar.Event
import Columnar.Reader.Basic

/-!
# Sealed sets

A batch under a schema, which may be given up. A schema fits a batch when its columns have the
shapes of the schema, position by position; the batch keeps its own names.
-/

namespace Columnar

/-- A sealed batch under a schema. The batch is gone once it was given up. -/
structure SealedSet where
  schema : Schema
  batch? : Option Batch
  deriving DecidableEq

namespace SealedSet

/-- The set of a batch whose columns follow a schema. -/
def ofBatch? (schema : Schema) (batch : Batch) : Except Refusal SealedSet := do
  let _ ← (View.ofBatch schema batch.columns).mapError Refusal.binding
  pure ⟨schema, some batch⟩

/-- The number of rows. A set that was given up has none. -/
def rowCount (set : SealedSet) : Nat :=
  match set.batch? with
  | some batch => batch.rows
  | none => 0

/-- A reader before the first row. -/
def reader (set : SealedSet) : Except Refusal Reader :=
  match set.batch? with
  | none => .error (.misuse .released)
  | some batch => do
      let root ← (View.ofBatch set.schema batch.columns).mapError Refusal.binding
      pure ⟨.ofRows batch.rows, root⟩

/-- Gives up the batch, and reports it the first time. -/
def clear (set : SealedSet) : SealedSet × List Event :=
  match set.batch? with
  | some batch => ({ set with batch? := none }, [.released batch.rows])
  | none => (set, [])

end SealedSet

namespace Batch

/-- The set of a range of rows of a batch. -/
def sliceUnder (batch : Batch) (schema : Schema) (offset length : Nat) :
    Except Refusal SealedSet :=
  match batch.slice? offset length with
  | some part => SealedSet.ofBatch? schema part
  | none => .error (.outOfBounds (offset + length) batch.rows)

/-- The set of a choice of the columns of a batch. -/
def projectUnder (batch : Batch) (schema : Schema) (positions : List Nat) :
    Except Refusal SealedSet :=
  match batch.project? positions with
  | .ok part => SealedSet.ofBatch? schema part
  | .error position => .error (.binding (.projection position batch.columns.length))

end Batch

end Columnar
