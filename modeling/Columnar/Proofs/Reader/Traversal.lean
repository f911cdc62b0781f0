import Columnar.Proofs.Reader.AtRest

/-!
# Going over the rows

From the start, or from a row that a reader jumped to, each step goes to the next row in order,
until there are no more; then there is no current row until the next jump. What else is done in
between, and the jumps that are refused, make no difference.
-/

namespace Columnar

namespace Reader

/-- Whether an operation takes a reader of a number of rows to a row out of turn, or back before the
first one. -/
def Action.jumps (rows : Nat) : Action → Bool
  | .setRow target => target < rows
  | .reset => true
  | _ => false

/-- What the steps to a next row among a sequence of operations answer, each with the row that the
reader is then on. -/
def walk (reader : Reader) : List Action → List (Except Refusal Reply × Option Nat)
  | [] => []
  | action :: rest =>
      let after := (reader.act action).1
      if action = .next then ((reader.act action).2, after.rowIndex?) :: after.walk rest
      else after.walk rest

/-- What a step to a row answers, with the row that the reader is then on. -/
def stepTo (rows row : Nat) : Except Refusal Reply × Option Nat :=
  if row < rows then (.ok (.found true), some row) else (.ok (.found false), none)

/-- Whether a reader visits its rows in turn from one of them on: until it jumps, the steps go to
that row and the rows behind it, and past the last row they find none. -/
def VisitsFrom (reader : Reader) (rows first : Nat) : Prop :=
  ∀ later : List Action, (∀ action ∈ later, action.jumps rows = false) →
    reader.walk later = (List.range' first (later.count .next)).map (stepTo rows)

variable {reader : Reader}

/-- An operation that does not jump leaves the cursor where it is, unless it goes on. -/
private theorem follow_of_stays {cursor : RowCursor} {action : Action}
    (stays : action.jumps cursor.rows = false) (other : action ≠ .next) :
    cursor.follow action = cursor := by
  cases action with
  | next => exact absurd rfl other
  | reset => cases stays
  | setRow row =>
    have past : ¬ row < cursor.rows := of_decide_eq_false stays
    simp only [RowCursor.follow, RowCursor.setRow, if_neg past]
  | _ => rfl

/-- A step goes to the upcoming row, and the one behind it is then the upcoming one. Behind the last
row it does not matter which row is said to be the upcoming one. -/
private theorem act_next {rows first : Nat} (counted : reader.cursor.rows = rows)
    (turn : min reader.cursor.upcoming rows = min first rows) :
    ((reader.act .next).2, (reader.act .next).1.rowIndex?) = stepTo rows first ∧
      min (reader.act .next).1.cursor.upcoming rows = min (first + 1) rows := by
  subst counted
  have moves : reader.next = ({ reader with cursor := (reader.cursor.advanceTo
      reader.cursor.upcoming).1 }, (reader.cursor.advanceTo reader.cursor.upcoming).2) := by
    rw [Reader.next, RowCursor.next_eq]
  simp only [act, moves, stepTo]
  by_cases inside : reader.cursor.upcoming < reader.cursor.rows
  · obtain rfl : reader.cursor.upcoming = first := by omega
    rw [RowCursor.advanceTo_of_lt inside, if_pos inside]
    exact ⟨rfl, rfl⟩
  · have past : ¬ first < reader.cursor.rows := by omega
    rw [RowCursor.advanceTo_of_le (Nat.not_lt.mp inside), if_neg past]
    refine ⟨rfl, ?_⟩
    change min reader.cursor.rows reader.cursor.rows = _
    omega

/-- A reader visits the rows from the upcoming one on. -/
private theorem visitsFrom_of_upcoming {rows first : Nat} (counted : reader.cursor.rows = rows)
    (turn : min reader.cursor.upcoming rows = min first rows) : reader.VisitsFrom rows first := by
  intro later stays
  induction later generalizing reader first with
  | nil => rfl
  | cons action rest inductionHypothesis =>
    obtain ⟨here, there⟩ := List.forall_mem_cons.mp stays
    have countedAfter := (rows_act reader action).trans counted
    by_cases onward : action = .next
    · subst onward
      obtain ⟨answers, turnAfter⟩ := act_next counted turn
      simp only [walk, if_true, answers, inductionHypothesis countedAfter turnAfter there,
        List.count_cons_self, List.range'_succ, List.map_cons]
    · have still := cursor_act reader action
      rw [follow_of_stays (counted ▸ here) onward] at still
      rw [walk, if_neg onward, List.count_cons_of_ne onward]
      exact inductionHypothesis countedAfter (still ▸ turn) there

/-- A reader that finds no next row is behind the last one. -/
private theorem exhausted_act_next (ended : (reader.act .next).2 = .ok (.found false)) :
    (reader.act .next).1.cursor.state = .exhausted := by
  rw [cursor_act, RowCursor.follow, RowCursor.next_eq]
  have none : (reader.cursor.advanceTo reader.cursor.upcoming).2 = false := by
    rw [← RowCursor.next_eq]
    exact Reply.found.inj (Except.ok.inj ended)
  rw [RowCursor.advanceTo] at none ⊢
  split at none
  · cases none
  · rename_i past
    rw [if_neg past]

/-- A reader that is behind the last row stays there until it jumps. -/
private theorem exhausted_run (exhausted : reader.cursor.state = .exhausted) {later : List Action}
    (stays : ∀ action ∈ later, action.jumps reader.cursor.rows = false) :
    (reader.run later).cursor = reader.cursor := by
  induction later generalizing reader with
  | nil => rfl
  | cons action rest inductionHypothesis =>
    obtain ⟨here, there⟩ := List.forall_mem_cons.mp stays
    have still : (reader.act action).1.cursor = reader.cursor := by
      rw [cursor_act]
      by_cases onward : action = .next
      · subst onward
        rw [RowCursor.follow, RowCursor.next, exhausted]
      · exact follow_of_stays here onward
    have last := inductionHypothesis (still ▸ exhausted) (still ▸ there)
    exact last.trans still

/-- A reader goes over the rows of a sealed set in order, whatever was done with it before. The
current row is one of the rows of the set. A jump to a row that is not there is refused and changes
nothing; from the start, or after it went back there, a reader visits all rows in turn, and after a
jump to a row those behind it. Once there are no more rows, there is no current row until the next
jump. -/
theorem traverses_of_run {set : SealedSet} (bound : set.reader = .ok reader)
    (moves : List Action) :
    let now := reader.run moves
    (∀ row, now.rowIndex? = some row → row < set.rowCount) ∧
    (∀ row, set.rowCount ≤ row →
      now.act (.setRow row) = (now, .error (.misuse (.rowOutOfRange row set.rowCount)))) ∧
    (∀ row < set.rowCount, ∃ jumped, now.act (.setRow row) = (jumped, .ok .done) ∧
      jumped.rowIndex? = some row ∧ jumped.VisitsFrom set.rowCount (row + 1)) ∧
    (reader.rowIndex? = none ∧ reader.VisitsFrom set.rowCount 0) ∧
    (∃ back, now.act .reset = (back, .ok .done) ∧
      back.rowIndex? = none ∧ back.VisitsFrom set.rowCount 0) ∧
    ((now.act .next).2 = .ok (.found false) → ∀ later : List Action,
      (∀ action ∈ later, action.jumps set.rowCount = false) →
      let after := (now.act .next).1.run later
      after.rowIndex? = none ∧ (after.act .next).2 = .ok (.found false)) := by
  intro now
  obtain ⟨_, _, _, fresh⟩ := set.of_reader bound
  have start : reader.cursor.rows = set.rowCount := by rw [fresh, RowCursor.ofRows]
  have counted : now.cursor.rows = set.rowCount := (rows_run reader moves).trans start
  have within : now.cursor.Within := by
    refine within_run ?_ moves
    rw [fresh]
    rintro row ⟨⟩
  refine ⟨fun row there => counted ▸ within row there, ?_, ?_, ⟨?_, ?_⟩, ?_, ?_⟩
  · intro row past
    simp only [act, Reader.setRow, RowCursor.setRow_of_le (counted ▸ past), counted]
    rfl
  · intro row inside
    refine ⟨{ now with cursor := { now.cursor with state := .on row } }, ?_, rfl,
      visitsFrom_of_upcoming counted rfl⟩
    simp only [act, Reader.setRow, RowCursor.setRow_of_lt (counted ▸ inside)]
    rfl
  · rw [Reader.rowIndex?, fresh]
    rfl
  · exact visitsFrom_of_upcoming start (by rw [fresh]; rfl)
  · exact ⟨now.reset, rfl, rfl, visitsFrom_of_upcoming counted rfl⟩
  · intro ended later stays after
    have exhausted := exhausted_act_next ended
    have still : after.cursor = (now.act .next).1.cursor :=
      exhausted_run exhausted (by rwa [rows_act, counted])
    rw [← still] at exhausted
    refine ⟨?_, ?_⟩
    · rw [Reader.rowIndex?, RowCursor.current?, exhausted]
    · simp only [act, Reader.next, RowCursor.next, exhausted]

/-- A reader of three rows that went behind the last one: there is no fourth row to jump to, and
from the first one the two behind it are visited, whatever is read or refused on the way. -/
theorem traverses_of_run_jumped :
    let schema : Schema := .cons "a" (.scalar .integer) .nil
    let rows := [1, 2, 3].map fun number => Value.tuple [.scalar (.int number)]
    let moves : List Action := [.next, .setRow 2, .next]
    let later : List Action := [.next, .row, .setRow 5, .next, .next]
    let set : SealedSet := ⟨schema, some (.ofRows schema rows)⟩
    ∃ reader, set.reader = .ok reader ∧
      let now := reader.run moves
      now.act (.setRow 3) = (now, .error (.misuse (.rowOutOfRange 3 3))) ∧
      ∃ jumped, now.act (.setRow 0) = (jumped, .ok .done) ∧ jumped.walk later =
        [(.ok (.found true), some 1), (.ok (.found true), some 2), (.ok (.found false), none)] := by
  intro schema rows moves later set
  have bound := SealedSet.reader_ofRows schema rows
  obtain ⟨-, refused, accepted, -⟩ := traverses_of_run bound moves
  obtain ⟨jumped, moved, -, visits⟩ := accepted 0 (by decide)
  refine ⟨_, bound, refused 3 (Nat.le_refl _), jumped, moved, ?_⟩
  rw [visits later (by decide)]
  decide

end Reader

end Columnar
