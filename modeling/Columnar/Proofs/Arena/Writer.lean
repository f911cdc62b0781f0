import Columnar.Proofs.Arena.Basic

/-!
# Writers

The same draft as a writer that has only numbered buffers, their places and the cursors. A value is
written at the number of a scalar, an element is saved at the number of an array, and a row is saved
or dropped in the buffers of the row. Each of them finds where to write through the place of the
buffer and the cursors, which all buffers share. Whole values are written in just these steps.
-/

namespace Columnar

/-- The shape of the column that a buffer belongs to. -/
def Buffer.kind : Buffer → Kind
  | .scalar _ => .scalar
  | .slots _ _ => .array
  | .group _ _ _ => .tuple

/-- The refusal of a value that the buffer of a column does not take. -/
def BufferError.refusal (path : String) (kind : Kind) : BufferError → Refusal
  | .refused error => error.refusal path
  | .noScalars _ => .mismatch (.wrongKind path .scalar kind)

namespace Arena

/-- Moves a cursor on from a position, if it is to move. -/
def goOn (arena : Arena) (moves : Bool) (cursor position : Nat) : Arena :=
  if moves then arena.setCursor (some cursor) (position + 1) else arena

/-- Writes a scalar at the cursor of a buffer. That of a scalar entry goes on to the next element.
Without a result if there is no such number. -/
def write (value : Scalar) (id : Nat) (arena : Arena) : Option (Arena × Option Refusal) := do
  let buffer ← arena.store.get? id
  let placement ← arena.placements[id]?
  let index ← arena.cursors[placement.position]?
  let (buffer, error) := buffer.set index value
  some ((arena.put id buffer).goOn (placement.appends && error.isNone) placement.position index,
    error.map (BufferError.refusal placement.path buffer.kind))

/-- Commits the element at the cursor of an array and goes on to the next. There is nothing to do
for scalar entries, which are elements when they are written, or for what is no array. -/
def saveElement (id : Nat) (arena : Arena) : Option (Arena × Option Refusal) := do
  let buffer ← arena.store.get? id
  let placement ← arena.placements[id]?
  match buffer, placement.elements? with
  | .slots entry _, some cursor => do
      let below ← arena.placements[entry]?
      if below.appends then some (arena, none)
      else
        let slot ← arena.cursors[cursor]?
        let walk ← commitWithin arena.store.size entry slot arena
        some (walk.arena.goOn walk.refusal.isNone cursor slot, walk.refusal)
  | _, _ => some (arena, none)

/-- Commits the row at the cursor of the rows in every buffer of the row and goes on to the next. -/
def saveRow (arena : Arena) : Option (Arena × Option Refusal) := do
  let row ← arena.cursors[Layout.rowCursor]?
  let walk ← walkEach (commitWithin arena.store.size · row) arena.top arena
  some (walk.arena.goOn walk.refusal.isNone Layout.rowCursor row, walk.refusal)

/-- Cuts every buffer of the row back to the saved rows. -/
def discardRow (arena : Arena) : Option Arena := do
  let row ← arena.cursors[Layout.rowCursor]?
  let walk ← walkEach (truncateWithin arena.store.size · row) arena.top arena
  some walk.arena

/-- The elements written for the current slot of an array. What is no array has none. -/
def elementIndex (id : Nat) (arena : Arena) : Option Nat := do
  let buffer ← arena.store.get? id
  let placement ← arena.placements[id]?
  match buffer, placement.elements? with
  | .slots _ ends, some cursor => do
      let elements ← arena.cursors[cursor]?
      some (elements - ends.lastOffset)
  | _, _ => some 0

end Arena

/-- A draft as an arena. -/
structure Writer where
  limits : Limits
  phase : Phase
  arena : Arena
  deriving DecidableEq

namespace Writer

/-- What is done at the number of one buffer. -/
inductive Operation where
  | write (value : Scalar)
  | saveElement
  deriving DecidableEq

/-- What an operation does to an arena. -/
def Operation.perform : Operation → Nat → Arena → Option (Arena × Option Refusal)
  | .write value, id, arena => arena.write value id
  | .saveElement, id, arena => arena.saveElement id

/-- The writer of a schema that begins. -/
def ofSchema (schema : Schema) (limits : Limits) : Writer :=
  ⟨limits, .writing, .ofSchema schema limits⟩

/-- Why nothing can be written when the cursor of the rows is at `row`, if nothing can. -/
def gate? (writer : Writer) (row : Nat) : Option Refusal :=
  match writer.phase with
  | .sealed => some (.misuse .sealed)
  | .released => some (.misuse .released)
  | .writing =>
      if writer.limits.rows ≤ row then some (.overflow (.rowLimit writer.limits.rows)) else none

/-- Ends an operation. A lack of room drops the row in progress; any other refusal leaves it. -/
def settle (writer : Writer) (row : Nat) : Option Refusal → Option (Writer × Outcome Unit)
  | none => some (writer, .accept ())
  | some (.overflow (.buffer column requested capacity)) => do
      let arena ← writer.arena.discardRow
      let event := Event.rowOverflowed row column requested capacity
      some ({ writer with arena },
        ⟨.error (.overflow (.buffer column requested capacity)), [event]⟩)
  | some refusal => some (writer, .refuse refusal)

/-- Changes the arena if something can be written. -/
def attempt (writer : Writer) (change : Arena → Option (Arena × Option Refusal)) :
    Option (Writer × Outcome Unit) := do
  let row ← writer.arena.cursors[Layout.rowCursor]?
  match writer.gate? row with
  | some refusal => some (writer, .refuse refusal)
  | none => do
      let (arena, refusal) ← change writer.arena
      { writer with arena }.settle row refusal

/-- Does something at the number of a buffer. -/
def operate (writer : Writer) (id : Nat) (operation : Operation) : Option (Writer × Outcome Unit) :=
  writer.attempt (operation.perform id)

/-- Closes the row in progress and moves on to the next. -/
def save (writer : Writer) : Option (Writer × Outcome Unit) :=
  writer.attempt Arena.saveRow

/-- Drops the row in progress of a writer that is still written. -/
def discard (writer : Writer) : Option (Writer × List Event) :=
  match writer.phase with
  | .writing => do
      let row ← writer.arena.cursors[Layout.rowCursor]?
      let arena ← writer.arena.discardRow
      some ({ writer with arena }, [.rowDiscarded row])
  | _ => some (writer, [])

/-- What is done to a writer that stays one. -/
inductive Move where
  | operate (id : Nat) (operation : Operation)
  | save
  | discard
  deriving DecidableEq

/-- The writer after a move. -/
def move (writer : Writer) : Move → Option Writer
  | .operate id operation => (writer.operate id operation).map Prod.fst
  | .save => writer.save.map Prod.fst
  | .discard => writer.discard.map Prod.fst

/-- The writer after a sequence of moves. -/
def run (writer : Writer) : List Move → Option Writer
  | [] => some writer
  | first :: rest => do
      let after ← writer.move first
      after.run rest

end Writer

end Columnar
