import Columnar.Proofs.Reader.Collecting

/-!
# What an operation moves

An operation on a reader does to its cursor what it would do to a cursor alone. The only thing that
can move besides is the entry of the array that the operation chooses an element of.
-/

namespace Columnar

namespace Reader

/-- The array that an operation chooses an element of, and the element. -/
def Action.choice? : Action → Option (List Step × Nat)
  | .select path index => some (path, index)
  | .selectTuple path index => some (path, index)
  | _ => none

end Reader

namespace RowCursor

/-- A cursor after an operation on its reader. -/
def follow (cursor : RowCursor) : Reader.Action → RowCursor
  | .next => cursor.next.1
  | .setRow row =>
      match cursor.setRow row with
      | .ok moved => moved
      | .error _ => cursor
  | .reset => cursor.reset
  | _ => cursor

/-- The row that a cursor goes on to, if it is among its rows. -/
def upcoming (cursor : RowCursor) : Nat :=
  match cursor.state with
  | .beforeFirst => 0
  | .on row => row + 1
  | .exhausted => cursor.rows

variable {cursor : RowCursor} {row : Nat}

/-- To go on is to go to the upcoming row. -/
theorem next_eq (cursor : RowCursor) : cursor.next = cursor.advanceTo cursor.upcoming := by
  obtain ⟨rows, state⟩ := cursor
  cases state with
  | beforeFirst => rfl
  | on row => rfl
  | exhausted => exact (if_neg (Nat.lt_irrefl rows)).symm

theorem advanceTo_of_lt (inside : row < cursor.rows) :
    cursor.advanceTo row = ({ cursor with state := .on row }, true) :=
  if_pos inside

theorem advanceTo_of_le (past : cursor.rows ≤ row) :
    cursor.advanceTo row = ({ cursor with state := .exhausted }, false) :=
  if_neg (Nat.not_lt.mpr past)

theorem setRow_of_lt (inside : row < cursor.rows) :
    cursor.setRow row = .ok { cursor with state := .on row } :=
  if_pos inside

theorem setRow_of_le (past : cursor.rows ≤ row) :
    cursor.setRow row = .error (.rowOutOfRange row cursor.rows) :=
  if_neg (Nat.not_lt.mpr past)

/-- Whether the current row of a cursor, if there is one, is among its rows. -/
def Within (cursor : RowCursor) : Prop :=
  ∀ row, cursor.current? = some row → row < cursor.rows

/-- An operation leaves a cursor where it is, or puts it on one of its rows, or off them. -/
theorem follow_cases (cursor : RowCursor) (action : Reader.Action) :
    cursor.follow action = cursor ∨
      (∃ row < cursor.rows, cursor.follow action = { cursor with state := .on row }) ∨
      cursor.follow action = { cursor with state := .exhausted } ∨
      cursor.follow action = { cursor with state := .beforeFirst } := by
  cases action with
  | next =>
    rw [follow, next_eq]
    rcases Nat.lt_or_ge cursor.upcoming cursor.rows with inside | past
    · rw [advanceTo_of_lt inside]
      exact .inr (.inl ⟨_, inside, rfl⟩)
    · rw [advanceTo_of_le past]
      exact .inr (.inr (.inl rfl))
  | setRow row =>
    rw [follow]
    rcases Nat.lt_or_ge row cursor.rows with inside | past
    · rw [setRow_of_lt inside]
      exact .inr (.inl ⟨_, inside, rfl⟩)
    · rw [setRow_of_le past]
      exact .inl rfl
  | reset => exact .inr (.inr (.inr rfl))
  | _ => exact .inl rfl

/-- Whatever is done with a reader, its cursor has the same rows. -/
theorem rows_follow (cursor : RowCursor) (action : Reader.Action) :
    (cursor.follow action).rows = cursor.rows := by
  rcases cursor.follow_cases action with still | ⟨row, _, on⟩ | past | before
  · rw [still]
  · rw [on]
  · rw [past]
  · rw [before]

/-- Whatever is done with a reader keeps its cursor within its rows. -/
theorem Within.follow (within : cursor.Within) (action : Reader.Action) :
    (cursor.follow action).Within := by
  rcases cursor.follow_cases action with still | ⟨row, inside, on⟩ | past | before
  · rwa [still]
  · rw [on]
    rintro current ⟨⟩
    exact inside
  · rw [past]
    rintro current ⟨⟩
  · rw [before]
    rintro current ⟨⟩

end RowCursor

namespace Reader

variable {reader moved : Reader} {path : List Step} {index : Nat}

/-- Moving an entry moves nothing but the view. -/
theorem cursor_select (selected : reader.select path index = .ok moved) :
    moved.cursor = reader.cursor := by
  obtain ⟨_, _, _, _, _, _, rfl⟩ := select_eq_ok_iff.mp selected
  rfl

/-- What an operation leaves of a reader: the view with the cursor moved, or the cursor with an
entry moved. -/
theorem act_cases (reader : Reader) (action : Action) :
    (reader.act action).1 = { reader with cursor := reader.cursor.follow action } ∨
      ∃ path index, action.choice? = some (path, index) ∧
        reader.select path index = .ok (reader.act action).1 := by
  cases reading : action.isRead with
  | true =>
    have still : reader.cursor.follow action = reader.cursor := by
      cases action <;> first | rfl | cases reading
    rw [act_of_isRead reader reading, still]
    exact .inl rfl
  | false =>
    cases action with
    | next => exact .inl rfl
    | reset => exact .inl rfl
    | setRow row =>
      refine .inl ?_
      simp only [act, Reader.setRow, RowCursor.follow]
      cases reader.cursor.setRow row <;> rfl
    | select path index =>
      simp only [act]
      cases selected : reader.select path index with
      | error _ => exact .inl rfl
      | ok _ => exact .inr ⟨path, index, rfl, selected⟩
    | selectTuple path index =>
      simp only [act]
      rw [selectTuple_eq]
      split
      · rename_i chosen
        obtain ⟨_, _, chosen⟩ := bind_ok_iff.mp chosen
        obtain ⟨_, _, chosen⟩ := bind_ok_iff.mp chosen
        exact .inr ⟨path, index, rfl, chosen⟩
      · exact .inl rfl
    | _ => cases reading

/-- The cursor goes its own way, whatever else is done. -/
theorem cursor_act (reader : Reader) (action : Action) :
    (reader.act action).1.cursor = reader.cursor.follow action := by
  rcases reader.act_cases action with moves | ⟨path, index, chosen, selected⟩
  · rw [moves]
  · rw [cursor_select selected]
    cases action <;> first | rfl | cases chosen

/-- Whatever is done with a reader, it has the same rows. -/
theorem rows_act (reader : Reader) (action : Action) :
    (reader.act action).1.cursor.rows = reader.cursor.rows := by
  rw [cursor_act, RowCursor.rows_follow]

/-! ### Runs -/

/-- What holds of a reader and is kept by every operation holds after any sequence of them. -/
theorem run_induction {holds : Reader → Prop} (start : holds reader)
    (keeps : ∀ {now : Reader} (action : Action), holds now → holds (now.act action).1)
    (actions : List Action) : holds (reader.run actions) := by
  induction actions generalizing reader with
  | nil => exact start
  | cons action rest inductionHypothesis => exact inductionHypothesis (keeps action start)

theorem rows_run (reader : Reader) (actions : List Action) :
    (reader.run actions).cursor.rows = reader.cursor.rows :=
  @run_induction reader (fun now => now.cursor.rows = reader.cursor.rows) rfl
    (fun action same => (rows_act _ action).trans same) actions

/-- The cursor of a reader stays within its rows. -/
theorem within_run (within : reader.cursor.Within) (actions : List Action) :
    (reader.run actions).cursor.Within :=
  @run_induction reader (fun now => now.cursor.Within) within
    (fun action within => cursor_act _ action ▸ within.follow action) actions

end Reader

end Columnar
