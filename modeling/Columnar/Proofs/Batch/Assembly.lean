import Columnar.Batch.Assembly

/-!
# When parts make a column

Which offsets and items make a list and which columns make a struct, and what is made of them.
-/

namespace Columnar

namespace ColumnData

/-- Offsets make a list with items when they are in order and end within the items. -/
theorem ofItems?_eq_ok_iff {offsets : Array Nat} {items data : ColumnData} :
    ofItems? offsets items = .ok data ↔
      disordered offsets = false ∧ offsets.back?.getD 0 ≤ items.length ∧
        data = .list offsets items := by
  unfold ofItems?
  by_cases falling : disordered offsets
  · simp [falling]
  · by_cases past : items.length < offsets.back?.getD 0
    · simp [falling, past, Nat.not_le.mpr past]
    · simp [falling, past, Nat.not_lt.mp past, eq_comm]

/-- No column differs in length exactly if all have the expected one. -/
theorem findUnequal?_eq_none_iff {expected : Nat} {named : List (String × ColumnData)} :
    findUnequal? expected named = none ↔ ∀ column ∈ named, column.2.length = expected := by
  induction named with
  | nil => exact ⟨fun _ => nofun, fun _ => rfl⟩
  | cons column rest inductionHypothesis =>
    rw [findUnequal?, List.forall_mem_cons]
    by_cases same : column.2.length = expected
    · rw [if_pos same, inductionHypothesis]
      exact ⟨fun equal => ⟨same, equal⟩, And.right⟩
    · rw [if_neg same]
      exact ⟨nofun, fun equal => absurd equal.1 same⟩

/-- Columns make a struct under as many names when all are as long as the first one. -/
theorem ofColumns?_eq_ok_iff {names : List String} {columns : List ColumnData} {data : ColumnData}
    (named : names.length = columns.length) :
    let rows := (columns.head?.map length).getD 0
    ofColumns? names columns = .ok data ↔
      (∀ column ∈ columns, column.length = rows) ∧
        data = .struct rows (.ofList (names.zip columns)) := by
  intro rows
  have counted : (names.zip columns).length = columns.length := by
    rw [List.length_zip, named, Nat.min_self]
  have equal : (∀ column ∈ names.zip columns, column.2.length = rows) ↔
      ∀ column ∈ columns, column.length = rows := by
    conv => rhs; rw [← List.map_snd_zip (Nat.le_of_eq named.symm)]
    rw [List.forall_mem_map]
  unfold ofColumns?
  simp only [if_pos counted]
  rw [← equal, ← findUnequal?_eq_none_iff]
  cases unequal : findUnequal? rows (names.zip columns) with
  | none => exact ⟨fun made => ⟨rfl, (Except.ok.inj made).symm⟩, fun made => made.2 ▸ rfl⟩
  | some column => exact ⟨nofun, fun made => nomatch made.1⟩

end ColumnData

end Columnar
