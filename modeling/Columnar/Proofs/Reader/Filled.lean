import Columnar.Proofs.Reader.AtRest
import Columnar.Proofs.Solid

/-!
# Views without empty tuples

Below the row of a checked schema every tuple has a column, and so it has in the views that are
bound. Reading a whole value then looks at some column or array for where it is, so that nothing is
read where there is nothing to point at.
-/

namespace Columnar

mutual

/-- Whether no tuple of a view is empty. -/
def View.Filled : View → Prop
  | .scalar _ _ => True
  | .array _ _ _ entry => entry.Filled
  | .tuple _ columns => columns ≠ .nil ∧ columns.Filled

/-- Whether no tuple of some views is empty. -/
def Views.Filled : Views → Prop
  | .nil => True
  | .cons _ view rest => view.Filled ∧ rest.Filled

end

mutual

/-- Where entries were moved makes no tuple empty. -/
theorem View.filled_atRest (view : View) : view.atRest.Filled ↔ view.Filled := by
  cases view with
  | scalar _ _ => exact Iff.rfl
  | array _ _ _ entry => exact View.filled_atRest entry
  | tuple _ columns =>
    rw [View.atRest, View.Filled, View.Filled, Views.filled_atRest columns]
    cases columns with
    | nil => exact Iff.rfl
    | cons _ _ _ => exact and_congr_left fun _ => ⟨nofun, nofun⟩

/-- Where entries were moved makes no tuple empty. -/
theorem Views.filled_atRest (columns : Views) : columns.atRest.Filled ↔ columns.Filled := by
  cases columns with
  | nil => exact Iff.rfl
  | cons _ view rest => exact and_congr (View.filled_atRest view) (Views.filled_atRest rest)

end

/-- Where nothing is pointed at, nothing is read, for the same reason. -/
theorem View.Filled.read_error (cause : Refusal) : ∀ {view : View}, view.Filled →
    view.read (.error cause) = .error cause
  | .scalar _ _, _ => rfl
  | .array _ _ _ _, _ => rfl
  | .tuple _ .nil, filled => absurd rfl filled.1
  | .tuple _ (.cons _ view _), ⟨_, first, _⟩ => by
      rw [View.read, Views.read, View.Filled.read_error cause first]
      rfl

/-! ### Views of batches -/

theorem Views.ne_nil_of_ofDatas {schema : Schema} {parent : String} {datas : List ColumnData}
    {views : Views} (bound : Views.ofDatas parent schema datas = .ok views)
    (counted : datas.length = schema.length) (columns : schema.isEmpty = false) :
    views ≠ .nil := by
  cases schema with
  | nil => cases columns
  | cons _ _ _ =>
    cases datas with
    | nil => cases counted
    | cons _ _ =>
      obtain ⟨_, _, bound⟩ := bind_ok_iff.mp bound
      obtain ⟨_, _, made⟩ := bind_ok_iff.mp bound
      cases made
      nofun

mutual

/-- The view of a column whose type has no empty tuples has none. -/
theorem View.filled_ofData : ∀ {type : ColumnType} {path : String} {data : ColumnData}
    {view : View}, View.ofData path type data = .ok view → type.Solid → view.Filled
  | .scalar type, _, .leaf values, _, bound, _ => by
      rw [View.ofData] at bound
      split at bound
      · cases bound
        trivial
      · cases bound
  | .scalar _, _, .list _ _, _, bound, _ => nomatch bound
  | .scalar _, _, .struct _ _, _, bound, _ => nomatch bound
  | .array _, _, .leaf _, _, bound, _ => nomatch bound
  | .array _, _, .struct _ _, _, bound, _ => nomatch bound
  | .array _, _, .list _ _, _, bound, solid => by
      obtain ⟨entry, inner, made⟩ := bind_ok_iff.mp bound
      cases made
      have filled : entry.Filled := View.filled_ofData inner solid
      exact filled
  | .tuple _, _, .leaf _, _, bound, _ => nomatch bound
  | .tuple _, _, .list _ _, _, bound, _ => nomatch bound
  | .tuple _, _, .struct _ columns, _, bound, ⟨occupied, solid⟩ => by
      obtain ⟨_, counted, bound⟩ := bind_ok_iff.mp bound
      obtain ⟨_, inner, made⟩ := bind_ok_iff.mp bound
      cases made
      rw [checkCount_eq_ok_iff, ← DataColumns.length_datas] at counted
      exact ⟨Views.ne_nil_of_ofDatas inner counted occupied, Views.filled_ofDatas inner solid⟩

/-- The views of columns whose types have no empty tuples have none. -/
theorem Views.filled_ofDatas : ∀ {schema : Schema} {parent : String} {datas : List ColumnData}
    {views : Views}, Views.ofDatas parent schema datas = .ok views → schema.Solid → views.Filled
  | .nil, _, _, _, bound, _ => by
      cases bound
      trivial
  | .cons _ _ _, _, [], _, bound, _ => by
      cases bound
      trivial
  | .cons _ _ _, _, _ :: _, _, bound, solid => by
      obtain ⟨_, inner, bound⟩ := bind_ok_iff.mp bound
      obtain ⟨_, later, made⟩ := bind_ok_iff.mp bound
      cases made
      exact ⟨View.filled_ofData inner solid.1, Views.filled_ofDatas later solid.2⟩

end

/-- The view of given values has no empty tuples, if their type has none. -/
theorem View.filled_ofValues (path : String) {type : ColumnType} (values : List Value)
    (solid : type.Solid) : (View.ofValues path type values).Filled :=
  View.filled_ofData (View.ofData_ofValues path values type.sameShape_refl) solid

/-- The view of a batch has no empty tuples under a checked schema, unless that has no columns. -/
theorem View.filled_ofBatch {schema : Schema} {columns : List ColumnData} {view : View}
    (bound : View.ofBatch schema columns = .ok view) (checked : schema.checkAll = .ok ())
    (occupied : schema.isEmpty = false) : view.Filled := by
  obtain ⟨_, counted, bound⟩ := bind_ok_iff.mp bound
  obtain ⟨_, inner, made⟩ := bind_ok_iff.mp bound
  cases made
  rw [checkCount_eq_ok_iff] at counted
  exact ⟨Views.ne_nil_of_ofDatas inner counted occupied,
    Views.filled_ofDatas inner (Schema.solid_of_checkAll checked)⟩

/-! ### Along a path -/

/-- No tuple below the end of a path is empty, as none is. -/
theorem View.Reaches.filled {view : View} {position : Position} {path : List Step} {spot : Spot}
    (reaches : view.Reaches position path spot) (filled : view.Filled) : spot.view.Filled := by
  induction reaches with
  | here _ _ => exact filled
  | column found _ inductionHypothesis =>
    exact inductionHypothesis (Views.of_get? id filled.2 found)
  | entry _ inductionHypothesis => exact inductionHypothesis filled

/-! ### Readers of sealed sets -/

/-- A column that a reader of a sealed set finds has no empty tuples in it, unless it is the row of
a schema without columns. -/
theorem Reader.filled_of_find {set : SealedSet} {reader : Reader} {path : List Step}
    {spot : Spot} (checked : set.schema.checkAll = .ok ())
    (bound : set.reader = .ok reader) (moves : List Action)
    (occupied : set.schema = .nil → path ≠ [])
    (found : (reader.run moves).find path = .ok spot) : spot.view.Filled := by
  obtain ⟨batch, _, viewed, _⟩ := set.of_reader bound
  have rest := atRest_run reader moves
  have reaches := find_eq_ok_iff.mp found
  cases empty : set.schema.isEmpty with
  | false =>
    have filled := View.filled_ofBatch viewed checked empty
    rw [← View.filled_atRest, ← rest, View.filled_atRest] at filled
    exact reaches.filled filled
  | true =>
    have hollow : set.schema = .nil := by
      cases columns : set.schema with
      | nil => rfl
      | cons _ _ _ =>
        rw [columns] at empty
        cases empty
    rw [hollow] at viewed
    obtain ⟨_, _, made⟩ := bind_ok_iff.mp viewed
    rw [← Except.ok.inj made] at rest
    generalize (reader.run moves).root = root at rest reaches
    cases reaches with
    | here _ _ => exact absurd rfl (occupied hollow)
    | @column _ columns index _ _ _ _ found _ =>
      cases columns with
      | nil => cases found
      | cons _ _ _ => cases rest
    | entry _ => cases rest

end Columnar
