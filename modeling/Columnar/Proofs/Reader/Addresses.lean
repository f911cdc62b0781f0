import Columnar.Proofs.Reader.AtRest

/-!
# Addresses in views

The address of a path is the path with every column told by its position, so that paths of one
address lead to the same column. Putting an entry anywhere changes nothing about the entries of
arrays at other addresses, except for the position that they are read at.
-/

namespace Columnar

namespace Views

/-- The position of the column that an index points at. -/
def resolve? : Views → ColumnIndex → Option Nat
  | .nil, _ => none
  | .cons name _ rest, .name sought =>
      if name = sought then some 0 else (rest.resolve? (.name sought)).map (· + 1)
  | .cons _ _ _, .position 0 => some 0
  | .cons _ _ rest, .position (position + 1) => (rest.resolve? (.position position)).map (· + 1)

/-- Where an index points behind a name: at the column of the name, or where another one points
among the columns behind it. -/
inductive PointsPast (name : String) (index : ColumnIndex) : Prop where
  | here (resolved : ∀ view rest, (cons name view rest).resolve? index = some 0)
      (found : ∀ view rest, (cons name view rest).get? index = some view)
      (changed : ∀ change view rest,
        (cons name view rest).modify change index = cons name (change view) rest)
  | later (inner : ColumnIndex)
      (resolved : ∀ view rest,
        (cons name view rest).resolve? index = (rest.resolve? inner).map (· + 1))
      (found : ∀ view rest, (cons name view rest).get? index = rest.get? inner)
      (changed : ∀ change view rest,
        (cons name view rest).modify change index = cons name view (rest.modify change inner))

private theorem pointsPast (name : String) : ∀ index : ColumnIndex, PointsPast name index
  | .position 0 => .here (fun _ _ => rfl) (fun _ _ => rfl) fun _ _ _ => rfl
  | .position (position + 1) =>
      .later (.position position) (fun _ _ => rfl) (fun _ _ => rfl) fun _ _ _ => rfl
  | .name sought => by
      by_cases own : name = sought
      · exact .here (fun _ _ => if_pos own) (fun _ _ => if_pos own) fun _ _ _ => if_pos own
      · exact .later (.name sought) (fun _ _ => if_neg own) (fun _ _ => if_neg own)
          fun _ _ _ => if_neg own

/-- Every column that is found has a position. -/
theorem exists_resolve? {view : View} : ∀ {columns : Views} {index : ColumnIndex},
    columns.get? index = some view → ∃ position, columns.resolve? index = some position
  | .nil, index, found => by cases index <;> cases found
  | .cons name _ rest, index, found => by
      cases pointsPast name index with
      | here resolved _ _ => exact ⟨0, resolved _ _⟩
      | later inner resolved finds _ =>
        rw [finds] at found
        obtain ⟨position, there⟩ := exists_resolve? found
        exact ⟨position + 1, by rw [resolved, there, Option.map_some]⟩

/-- An index and its position point at the same column. -/
theorem of_resolve? : ∀ {columns : Views} {index : ColumnIndex} {position : Nat},
    columns.resolve? index = some position →
    columns.get? index = columns.get? (.position position) ∧
      ∀ change, columns.modify change index = columns.modify change (.position position)
  | .nil, index, _, resolved => by cases index <;> cases resolved
  | .cons name view rest, index, position, resolved => by
      cases pointsPast name index with
      | here first found changed =>
        obtain rfl := Option.some.inj ((first view rest).symm.trans resolved)
        exact ⟨found view rest, fun change => changed change view rest⟩
      | later inner behind found changed =>
        rw [behind] at resolved
        obtain ⟨below, there, rfl⟩ := Option.map_eq_some_iff.mp resolved
        obtain ⟨finds, changes⟩ := of_resolve? there
        refine ⟨(found view rest).trans finds, fun change => ?_⟩
        rw [changed, changes]
        rfl

/-- A change of a column keeps those at other positions. -/
theorem get?_modify_other (change : View → View) : ∀ {columns : Views} {one other : ColumnIndex},
    columns.resolve? one ≠ columns.resolve? other →
    (columns.modify change one).get? other = columns.get? other
  | .nil, _, _, _ => rfl
  | .cons name view rest, one, other, differ => by
      cases pointsPast name one with
      | here first _ changed =>
        rw [changed]
        cases pointsPast name other with
        | here firstAlso _ _ => exact absurd ((first _ _).trans (firstAlso _ _).symm) differ
        | later _ _ found _ => rw [found, found]
      | later inner behind _ changed =>
        rw [changed]
        cases pointsPast name other with
        | here _ found _ => rw [found, found]
        | later innerAlso behindAlso found _ =>
          rw [found, found]
          refine get?_modify_other change fun same => differ ?_
          rw [behind, behindAlso, same]

@[simp] theorem resolve?_atRest : ∀ (columns : Views) (index : ColumnIndex),
    columns.atRest.resolve? index = columns.resolve? index
  | .nil, _ => rfl
  | .cons name view rest, index => by
      cases pointsPast name index with
      | here first _ _ => rw [atRest, first, first]
      | later inner behind _ _ => rw [atRest, behind, behind, resolve?_atRest rest inner]

end Views

namespace View

/-- The path with every column told by its position, as far as it leads. -/
def address : List Step → View → List Step
  | .column index :: rest, .tuple _ columns =>
      match columns.resolve? index, columns.get? index with
      | some position, some child => .column (.position position) :: address rest child
      | _, _ => .column index :: rest
  | .entry :: rest, .array _ _ _ entry => .entry :: address rest entry
  | path, _ => path

theorem address_column {own : String} {columns : Views} {index : ColumnIndex} {position : Nat}
    {child : View} (resolved : columns.resolve? index = some position)
    (found : columns.get? index = some child) (rest : List Step) :
    (tuple own columns).address (.column index :: rest) =
      .column (.position position) :: child.address rest := by
  simp only [address, resolved, found]

/-- Where entries were moved makes no difference to addresses. -/
theorem address_atRest : ∀ (path : List Step) (view : View),
    view.atRest.address path = view.address path
  | [], view => by cases view <;> rfl
  | .column index :: rest, .tuple _ columns => by
      simp only [atRest, address, Views.get?_atRest, Views.resolve?_atRest]
      cases columns.get? index with
      | none => cases columns.resolve? index <;> rfl
      | some child =>
        cases columns.resolve? index with
        | none => rfl
        | some _ => exact congrArg (List.cons _) (address_atRest rest child)
  | .column _ :: _, .scalar _ _ => rfl
  | .column _ :: _, .array _ _ _ _ => rfl
  | .entry :: rest, .array _ _ _ entry => congrArg (List.cons _) (address_atRest rest entry)
  | .entry :: _, .scalar _ _ => rfl
  | .entry :: _, .tuple _ _ => rfl

variable {view : View} {position : Position} {path other : List Step} {spot : Spot}

/-- Only the empty path has the empty address. -/
private theorem eq_nil_of_address (ends : view.address path = []) : path = [] := by
  cases path with
  | nil => rfl
  | cons step more =>
    cases step with
    | entry => cases view <;> cases ends
    | column index =>
      cases view with
      | scalar _ _ => cases ends
      | array _ _ _ _ => cases ends
      | tuple _ columns =>
        simp only [address] at ends
        split at ends <;> cases ends

/-- A path whose address begins with a column begins with an index of that column. -/
private theorem eq_column_of_address {own : String} {columns : Views} {position : Nat}
    {child : View} {rest : List Step} (found : columns.get? (.position position) = some child)
    (begins : (tuple own columns).address path = .column (.position position) :: rest) :
    ∃ index more, path = .column index :: more ∧ columns.get? index = some child ∧
      child.address more = rest := by
  cases path with
  | nil => cases begins
  | cons step more =>
    cases step with
    | entry => cases begins
    | column index =>
      simp only [address] at begins
      split at begins
      · rename_i chosen child' resolved foundAlso
        cases begins
        rw [(Views.of_resolve? resolved).1, found] at foundAlso
        obtain rfl := Option.some.inj foundAlso
        exact ⟨index, more, rfl, ((Views.of_resolve? resolved).1).trans found, rfl⟩
      · rename_i lost
        cases begins
        obtain ⟨chosen, resolved⟩ := Views.exists_resolve? found
        exact absurd found (lost chosen child resolved)

/-- A path whose address begins with the entry of an array begins with it. -/
private theorem eq_entry_of_address {own : String} {offsets : Array Nat}
    {selected : Option Selection} {entry : View} {rest : List Step}
    (begins : (array own offsets selected entry).address path = .entry :: rest) :
    ∃ more, path = .entry :: more ∧ entry.address more = rest := by
  cases path with
  | nil => cases begins
  | cons step more =>
    cases step with
    | column _ => cases begins
    | entry => exact ⟨more, rfl, (List.cons.inj begins).2⟩

/-- Paths of one address lead to the same column. -/
theorem Reaches.congr (reaches : view.Reaches position path spot)
    (same : view.address other = view.address path) : view.Reaches position other spot := by
  induction reaches generalizing other with
  | here view position =>
    have none : other = [] := eq_nil_of_address (same.trans (by cases view <;> rfl))
    exact none ▸ .here view position
  | @column own columns index child position rest spot found _ inductionHypothesis =>
    obtain ⟨chosen, resolved⟩ := Views.exists_resolve? found
    rw [address_column resolved found] at same
    rw [(Views.of_resolve? resolved).1] at found
    obtain ⟨index, more, rfl, foundAlso, later⟩ := eq_column_of_address found same
    exact .column foundAlso (inductionHypothesis later)
  | @entry own offsets selected entry position rest spot _ inductionHypothesis =>
    obtain ⟨more, rfl, later⟩ := eq_entry_of_address same
    exact .entry (inductionHypothesis later)

/-- A column is found at the end of a path whatever position is asked for. -/
theorem Reaches.elsewhere (reaches : view.Reaches position path spot) (there : Position) :
    ∃ below, view.Reaches there path ⟨spot.view, below⟩ := by
  induction reaches generalizing there with
  | here view position => exact ⟨there, .here view there⟩
  | column found _ inductionHypothesis =>
    obtain ⟨below, reaches⟩ := inductionHypothesis there
    exact ⟨below, .column found reaches⟩
  | entry _ inductionHypothesis =>
    obtain ⟨below, reaches⟩ := inductionHypothesis _
    exact ⟨below, .entry reaches⟩

variable {own : String} {offsets : Array Nat} {selected : Option Selection} {entry : View}

/-- Putting an entry anywhere leaves the entries of arrays at other addresses where they are. -/
theorem Reaches.restore_other (reaches : view.Reaches position path spot)
    (isArray : spot.view = .array own offsets selected entry)
    (differ : view.address other ≠ view.address path) (moved : Option Selection) :
    ∃ entry below, (view.restore moved other).Reaches position path
      ⟨.array own offsets selected entry, below⟩ := by
  induction reaches generalizing other with
  | here view position =>
    subst isArray
    cases other with
    | nil => exact absurd rfl differ
    | cons step more =>
      cases step with
      | column _ => exact ⟨entry, position, .here _ _⟩
      | entry => exact ⟨entry.restore moved more, position, .here _ _⟩
  | @column own columns index child position rest spot found further inductionHypothesis =>
    obtain ⟨view, below⟩ := spot
    subst isArray
    cases other with
    | nil => exact ⟨entry, below, .column found further⟩
    | cons step more =>
      cases step with
      | entry => exact ⟨entry, below, .column found further⟩
      | column chosen =>
        by_cases same : columns.resolve? chosen = columns.resolve? index
        · obtain ⟨place, resolved⟩ := Views.exists_resolve? found
          obtain ⟨finds, changes⟩ := Views.of_resolve? resolved
          obtain ⟨findsAlso, changesAlso⟩ := Views.of_resolve? (same.trans resolved)
          have later : child.address more ≠ child.address rest := by
            rw [address_column resolved found, address_column (same.trans resolved)
              (findsAlso.trans (finds.symm.trans found))] at differ
            exact fun alike => differ (congrArg (List.cons _) alike)
          obtain ⟨entry, below, reaches⟩ := inductionHypothesis rfl later
          refine ⟨entry, below, .column ?_ reaches⟩
          rw [changesAlso, ← changes, Views.get?_modify, found]
          rfl
        · refine ⟨entry, below, .column ?_ further⟩
          rw [Views.get?_modify_other _ same, found]
  | @entry around bounds chosen inner position rest spot further inductionHypothesis =>
    obtain ⟨view, below⟩ := spot
    subst isArray
    cases other with
    | nil =>
      -- The entry that moves is on the way, so that the array is read elsewhere.
      obtain ⟨below, reaches⟩ := further.elsewhere (entryPosition bounds moved position)
      exact ⟨entry, below, .entry reaches⟩
    | cons step more =>
      cases step with
      | column _ => exact ⟨entry, below, .entry further⟩
      | entry =>
        have later : inner.address more ≠ inner.address rest :=
          fun alike => differ (congrArg (List.cons _) alike)
        obtain ⟨entry, below, reaches⟩ := inductionHypothesis rfl later
        exact ⟨entry, below, .entry reaches⟩

end View

end Columnar
