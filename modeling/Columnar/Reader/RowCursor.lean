import Columnar.Refusal

/-!
# Row cursors

The row that a reader is on. A cursor begins before the first row, visits the rows in order, and
stays past the last one until it is moved; it can jump to any row at any time.
-/

namespace Columnar

/-- Where a cursor stands. -/
inductive RowState where
  | beforeFirst
  | on (row : Nat)
  | exhausted
  deriving DecidableEq

/-- A cursor over a number of rows. -/
structure RowCursor where
  rows : Nat
  state : RowState
  deriving DecidableEq

namespace RowCursor

/-- A cursor before the first row. -/
def ofRows (rows : Nat) : RowCursor :=
  ⟨rows, .beforeFirst⟩

/-- The current row. -/
def current? (cursor : RowCursor) : Option Nat :=
  match cursor.state with
  | .on row => some row
  | _ => none

/-- Goes on to a row if there is one, and past the last row if not. -/
def advanceTo (cursor : RowCursor) (row : Nat) : RowCursor × Bool :=
  if row < cursor.rows then ({ cursor with state := .on row }, true)
  else ({ cursor with state := .exhausted }, false)

/-- Goes on to the next row, and tells whether there is one. -/
def next (cursor : RowCursor) : RowCursor × Bool :=
  match cursor.state with
  | .beforeFirst => cursor.advanceTo 0
  | .on row => cursor.advanceTo (row + 1)
  | .exhausted => (cursor, false)

/-- Jumps to a row. -/
def setRow (cursor : RowCursor) (row : Nat) : Except Misuse RowCursor :=
  if row < cursor.rows then .ok { cursor with state := .on row }
  else .error (.rowOutOfRange row cursor.rows)

/-- Goes back before the first row. -/
def reset (cursor : RowCursor) : RowCursor :=
  { cursor with state := .beforeFirst }

end RowCursor

end Columnar
