import Columnar.Reader.Read
import Columnar.Reader.RowCursor

/-!
# Readers

A reader walks over the rows of a sealed batch and reads values at the current row. Moving the
entry of an array changes what is read there. Whole values are collected by moving entries for a
while: the entry of an array of composites goes to each element in turn and is then put back. What
they come to is told by the look-ups `row`, `object` and `element`, which move nothing.
-/

namespace Columnar

/-- A reader on a batch. -/
structure Reader where
  cursor : RowCursor
  root : View
  deriving DecidableEq

namespace Reader

/-- The current row, as a position. -/
def position (reader : Reader) : Position :=
  match reader.cursor.current? with
  | some row => .ok row
  | none => .error (.misuse .noCurrentRow)

/-- The number of rows. -/
def rowCount (reader : Reader) : Nat :=
  reader.cursor.rows

/-- The current row, if the reader is on one. -/
def rowIndex? (reader : Reader) : Option Nat :=
  reader.cursor.current?

/-- Goes on to the next row, and tells whether there is one. -/
def next (reader : Reader) : Reader × Bool :=
  let (cursor, moved) := reader.cursor.next
  ({ reader with cursor := cursor }, moved)

/-- Jumps to a row. -/
def setRow (reader : Reader) (row : Nat) : Except Refusal Reader := do
  let cursor ← (reader.cursor.setRow row).mapError .misuse
  pure { reader with cursor := cursor }

/-- Goes back before the first row. -/
def reset (reader : Reader) : Reader :=
  { reader with cursor := reader.cursor.reset }

/-- The column at the end of a path from the row. -/
def find (reader : Reader) (path : List Step) : Except Refusal Spot :=
  (Spot.find ⟨reader.root, reader.position⟩ path).mapError .mismatch

/-- The array at the end of a path from the row. -/
def findArray (reader : Reader) (path : List Step) : Except Refusal ArraySpot := do
  let spot ← reader.find path
  spot.asArray.mapError .mismatch

/-- The current row as a tuple. -/
def row (reader : Reader) : Except Refusal Value :=
  reader.root.read reader.position

/-- The value at the end of a path. -/
def object (reader : Reader) (path : List Step) : Except Refusal Value := do
  let spot ← reader.find path
  spot.read

/-- The scalar at the end of a path, as it is or as a value of a type. -/
def scalar (reader : Reader) (path : List Step) (requested : Option ScalarType) :
    Except Refusal Scalar := do
  let spot ← reader.find path
  spot.readScalar requested

/-- The number of elements of the array at the end of a path. -/
def size (reader : Reader) (path : List Step) : Except Refusal Nat := do
  let array ← reader.findArray path
  array.size

/-- An element of the array at the end of a path, whatever its shape. -/
def element (reader : Reader) (path : List Step) (index : Nat) : Except Refusal Value := do
  let array ← reader.findArray path
  array.readAt index

/-- A scalar element of the array at the end of a path, as a value of a type. -/
def scalarElement (reader : Reader) (path : List Step) (index : Nat) (requested : ScalarType) :
    Except Refusal Scalar := do
  let array ← reader.findArray path
  array.readScalarAt index requested

/-- Moves the entry of the array at the end of a path to an element. -/
def select (reader : Reader) (path : List Step) (index : Nat) : Except Refusal Reader := do
  let root ← reader.root.select index path reader.position
  pure { reader with root := root }

/-- Puts the entry of the array at the end of a path back to where it was. -/
def restore (reader : Reader) (path : List Step) (selected : Option Selection) : Reader :=
  { reader with root := reader.root.restore selected path }

/-- Collects a value with the entry of the array at the end of a path moved to an element, and then
puts the entry back to where it was, whether or not there was a refusal. -/
def collectMoved (path : List Step) (selected : Option Selection)
    (collectEntry : Reader → Reader × Except Refusal Value) (element : Nat) (reader : Reader) :
    Reader × Except Refusal Value :=
  match reader.select path element with
  | .error refusal => (reader.restore path selected, .error refusal)
  | .ok moved =>
      let (after, value) := collectEntry moved
      (after.restore path selected, value)

/-- Collects the value of an element of the array at the end of a path. A scalar is looked up; for
an entry of another kind the entry is moved there. -/
def collectAt (path : List Step) (collectEntry : Reader → Reader × Except Refusal Value)
    (element : Nat) (reader : Reader) : Reader × Except Refusal Value :=
  match reader.findArray path with
  | .error refusal => (reader, .error refusal)
  | .ok array =>
      match array.entry with
      | .scalar _ values =>
          let looked : Except Refusal Value := do
            let index ← itemIndex array.offsets array.position element
            let value ← values.read index
            pure (.scalar value)
          (reader, looked)
      | _ => collectMoved path array.selected collectEntry element reader

/-- Collects values one after the other, up to the first refusal. -/
def collectEach (collect : Nat → Reader → Reader × Except Refusal Value) :
    List Nat → Reader → Reader × Except Refusal (List Value)
  | [], reader => (reader, .ok [])
  | index :: rest, reader =>
      match collect index reader with
      | (reader, .error refusal) => (reader, .error refusal)
      | (reader, .ok value) =>
          let (reader, values) := collectEach collect rest reader
          (reader, values.map (value :: ·))

end Reader

mutual

/-- Collects the value of the column at the end of a path, with everything below it. -/
def View.collect (path : List Step) : View → Reader → Reader × Except Refusal Value
  | .scalar _ _, reader => (reader, (reader.scalar path none).map .scalar)
  | .array _ _ _ entry, reader =>
      match reader.size path with
      | .error refusal => (reader, .error refusal)
      | .ok size =>
          let collectEntry := fun moved => View.collect (path ++ [.entry]) entry moved
          let (reader, items) :=
            Reader.collectEach (Reader.collectAt path collectEntry) (List.range size) reader
          (reader, items.map .array)
  | .tuple _ columns, reader =>
      let (reader, items) := Views.collect path 0 columns reader
      (reader, items.map .tuple)

/-- Collects the values of the columns of the tuple at the end of a path, the first of them at
`position`, up to the first refusal. -/
def Views.collect (path : List Step) (position : Nat) :
    Views → Reader → Reader × Except Refusal (List Value)
  | .nil, reader => (reader, .ok [])
  | .cons _ view rest, reader =>
      match View.collect (path ++ [.column (.position position)]) view reader with
      | (reader, .error refusal) => (reader, .error refusal)
      | (reader, .ok value) =>
          let (reader, values) := Views.collect path (position + 1) rest reader
          (reader, values.map (value :: ·))

end

namespace Reader

/-- Collects the current row as a tuple. -/
def collectRow (reader : Reader) : Reader × Except Refusal Value :=
  reader.root.collect [] reader

/-- Collects the value at the end of a path. -/
def collectObject (reader : Reader) (path : List Step) : Reader × Except Refusal Value :=
  match reader.find path with
  | .error refusal => (reader, .error refusal)
  | .ok spot => spot.view.collect path reader

/-- Collects an element of the array at the end of a path, whatever its shape. -/
def collectElement (reader : Reader) (path : List Step) (index : Nat) :
    Reader × Except Refusal Value :=
  match reader.findArray path with
  | .error refusal => (reader, .error refusal)
  | .ok array => collectAt path (array.entry.collect (path ++ [.entry])) index reader

/-- Moves the tuple entry of the array at the end of a path to an element, and collects it there. -/
def selectTuple (reader : Reader) (path : List Step) (index : Nat) :
    Reader × Except Refusal Value :=
  let selected : Except Refusal Reader := do
    let array ← reader.findArray path
    let _ ← array.entry.asTuple.mapError Refusal.mismatch
    reader.select path index
  match selected with
  | .ok moved => moved.collectObject (path ++ [.entry])
  | .error refusal => (reader, .error refusal)

/-- Collects the rows after the current one, at most `fuel` of them, behind those already collected,
which are given last first. -/
def remainingAfter : Nat → List Value → Reader → Reader × Except Refusal (List Value)
  | 0, values, reader => (reader, .ok values.reverse)
  | fuel + 1, values, reader =>
      match reader.next with
      | (reader, false) => (reader, .ok values.reverse)
      | (reader, true) =>
          match reader.collectRow with
          | (reader, .error refusal) => (reader, .error refusal)
          | (reader, .ok value) => remainingAfter fuel (value :: values) reader

/-- Walks to the end and collects every row on the way. The walk takes one step for each row that is
left and a last one that finds no more. -/
def remaining (reader : Reader) : Reader × Except Refusal (List Value) :=
  remainingAfter (reader.rowCount + 1) [] reader

end Reader

end Columnar
