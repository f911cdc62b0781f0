import Columnar.Reader.Basic

/-!
# Runs of a reader

The operations on a reader as data, with one kind of answer for all of them, and what a sequence of
them does.
-/

namespace Columnar

namespace Reader

/-- An operation on a reader. -/
inductive Action where
  | next
  | setRow (row : Nat)
  | reset
  | select (path : List Step) (index : Nat)
  | selectTuple (path : List Step) (index : Nat)
  | row
  | object (path : List Step)
  | scalar (path : List Step) (requested : Option ScalarType)
  | size (path : List Step)
  | element (path : List Step) (index : Nat)
  | scalarElement (path : List Step) (index : Nat) (requested : ScalarType)
  deriving DecidableEq

/-- The answer of an accepted operation. -/
inductive Reply where
  | done
  | found (there : Bool)
  | number (number : Nat)
  | value (value : Value)
  deriving DecidableEq

/-- Ends a move: a refused move leaves the reader where it was. -/
def settle (reader : Reader) : Except Refusal Reader → Reader × Except Refusal Reply
  | .ok moved => (moved, .ok .done)
  | .error refusal => (reader, .error refusal)

/-- Does one operation. -/
def act (reader : Reader) : Action → Reader × Except Refusal Reply
  | .next =>
      let (reader, there) := reader.next
      (reader, .ok (.found there))
  | .setRow row => reader.settle (reader.setRow row)
  | .reset => (reader.reset, .ok .done)
  | .select path index => reader.settle (reader.select path index)
  | .selectTuple path index =>
      let (reader, value) := reader.selectTuple path index
      (reader, value.map .value)
  | .row =>
      let (reader, value) := reader.collectRow
      (reader, value.map .value)
  | .object path =>
      let (reader, value) := reader.collectObject path
      (reader, value.map .value)
  | .scalar path requested =>
      (reader, (reader.scalar path requested).map fun value => .value (.scalar value))
  | .size path => (reader, (reader.size path).map .number)
  | .element path index =>
      let (reader, value) := reader.collectElement path index
      (reader, value.map .value)
  | .scalarElement path index requested =>
      (reader,
        (reader.scalarElement path index requested).map fun value => .value (.scalar value))

/-- The reader after a sequence of operations. -/
def run (reader : Reader) (actions : List Action) : Reader :=
  actions.foldl (fun reader action => (reader.act action).1) reader

/-- A sequence of operations is run part by part. -/
theorem run_append (reader : Reader) (first second : List Action) :
    reader.run (first ++ second) = (reader.run first).run second := by
  simp [run]

end Reader

end Columnar
