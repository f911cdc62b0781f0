import Columnar.Proofs.Places
import Columnar.Schema.Index

/-!
# Building schemas

A list of columns makes a schema unless a column is an empty tuple or has the name of an earlier
one, and the first such column decides what is wrong. Once built, a schema finds each column by its
name and by its position, and every tuple below its columns has columns of different names.
-/

namespace Columnar

/-- Whether a column type is an empty tuple, directly or below arrays. -/
inductive ColumnType.Hollow : ColumnType → Prop where
  | tuple : Hollow (.tuple .nil)
  | array {element : ColumnType} (hollow : Hollow element) : Hollow (.array element)

theorem ColumnType.isHollow_iff : ∀ type : ColumnType, type.isHollow = true ↔ type.Hollow
  | .scalar _ => ⟨(nomatch ·), (nomatch ·)⟩
  | .array element => by
      rw [isHollow, isHollow_iff element]
      exact ⟨.array, fun | .array hollow => hollow⟩
  | .tuple .nil => ⟨fun _ => .tuple, fun _ => rfl⟩
  | .tuple (.cons _ _ _) => ⟨(nomatch ·), (nomatch ·)⟩

theorem ColumnType.isHollow_eq_false_iff (type : ColumnType) :
    type.isHollow = false ↔ ¬ type.Hollow := by
  rw [← isHollow_iff, Bool.not_eq_true]

/-- What is wrong with the column at a position of a list. That it is an empty tuple goes before
that its name is taken. -/
inductive Column.FaultAt (columns : List Column) (position : Nat) : SchemaError → Prop where
  | empty {column : Column} (here : columns[position]? = some column)
      (hollow : column.type.Hollow) : FaultAt columns position (.emptyTuple column.name)
  | repeated {column other : Column} {earlier : Nat} (here : columns[position]? = some column)
      (filled : ¬ column.type.Hollow) (before : earlier < position)
      (there : columns[earlier]? = some other) (same : other.name = column.name) :
      FaultAt columns position (.duplicateColumn column.name)

/-- One column has one fault. -/
theorem Column.FaultAt.unique {columns : List Column} {position : Nat} {one other : SchemaError}
    (fault : FaultAt columns position one) (also : FaultAt columns position other) :
    one = other := by
  cases fault with
  | empty here hollow =>
    cases also with
    | empty hereAlso _ =>
      obtain rfl := Option.some.inj (here.symm.trans hereAlso)
      rfl
    | repeated hereAlso filled _ _ _ =>
      obtain rfl := Option.some.inj (here.symm.trans hereAlso)
      exact absurd hollow filled
  | repeated here filled _ _ _ =>
    cases also with
    | empty hereAlso hollow =>
      obtain rfl := Option.some.inj (here.symm.trans hereAlso)
      exact absurd hollow filled
    | repeated hereAlso _ _ _ _ =>
      obtain rfl := Option.some.inj (here.symm.trans hereAlso)
      rfl

/-- A column has a fault when it is an empty tuple or has the name of an earlier column. -/
theorem Column.exists_faultAt_iff {columns : List Column} {position : Nat} :
    (∃ error, FaultAt columns position error) ↔
      ∃ column, columns[position]? = some column ∧
        (column.type.Hollow ∨ ∃ earlier other, earlier < position ∧
          columns[earlier]? = some other ∧ other.name = column.name) := by
  constructor
  · rintro ⟨error, fault⟩
    cases fault with
    | empty here hollow => exact ⟨_, here, .inl hollow⟩
    | repeated here _ before there same => exact ⟨_, here, .inr ⟨_, _, before, there, same⟩⟩
  · rintro ⟨column, here, hollow | ⟨earlier, other, before, there, same⟩⟩
    · exact ⟨_, .empty here hollow⟩
    · by_cases hollow : column.type.Hollow
      · exact ⟨_, .empty here hollow⟩
      · exact ⟨_, .repeated here hollow before there same⟩

/-! ### Entering columns into an index -/

/-- Whether an index has the names of given columns with their positions, and nothing else. As an
index has one position for a name, the names differ. -/
def NameIndex.Of (index : NameIndex) (columns : List Column) : Prop :=
  ∀ name position, index.lookup name = some position ↔
    ∃ column, columns[position]? = some column ∧ column.name = name

private theorem NameIndex.of_nil : NameIndex.Of [] [] := by
  intro name position
  simp

/-- A column of a new name is entered behind the others. -/
private theorem NameIndex.Of.enter {index : NameIndex} {entered : List Column}
    (known : index.Of entered) (column : Column) (fresh : index.lookup column.name = none) :
    NameIndex.Of ((column.name, entered.length) :: index) (entered ++ [column]) := by
  intro name position
  rw [List.lookup_cons]
  by_cases own : name = column.name
  · subst own
    simp only [beq_self_eq_true]
    constructor
    · rintro ⟨⟩
      exact ⟨column, List.getElem?_concat_length, rfl⟩
    · rintro ⟨other, here, same⟩
      rw [List.getElem?_append] at here
      split at here
      · have taken := (known column.name position).mpr ⟨other, here, same⟩
        cases fresh.symm.trans taken
      · rename_i past
        obtain ⟨inside, _⟩ := List.getElem?_eq_some_iff.mp here
        rw [List.length_singleton] at inside
        exact congrArg some (by omega)
  · rw [beq_eq_false_iff_ne.mpr own]
    refine (known name position).trans ⟨?_, ?_⟩
    · rintro ⟨other, here, same⟩
      have inside := (List.getElem?_eq_some_iff.mp here).1
      exact ⟨other, (List.getElem?_append_left inside).trans here, same⟩
    · rintro ⟨other, here, same⟩
      rw [List.getElem?_append] at here
      split at here
      · exact ⟨other, here, same⟩
      · obtain rfl := List.mem_singleton.mp (List.mem_of_getElem? here)
        exact absurd same.symm own

/-- What may come of entering the columns of a list from `start` on: an index of all of them, of
which none has a fault, or the fault of the first that has one. -/
inductive Schema.Entering (columns : List Column) (start : Nat) :
    Except SchemaError NameIndex → Prop where
  | entered {index : NameIndex} (all : index.Of columns)
      (sound : ∀ position, start ≤ position → ∀ cause, ¬ Column.FaultAt columns position cause) :
      Entering columns start (.ok index)
  | refused {error : SchemaError} {position : Nat} (behind : start ≤ position)
      (fault : Column.FaultAt columns position error)
      (first : ∀ earlier, start ≤ earlier → earlier < position →
        ∀ cause, ¬ Column.FaultAt columns earlier cause) :
      Entering columns start (.error error)

/-- A column without a fault can be entered before the others. -/
private theorem Schema.Entering.before {columns : List Column} {start : Nat}
    {result : Except SchemaError NameIndex} (later : Entering columns (start + 1) result)
    (sound : ∀ cause, ¬ Column.FaultAt columns start cause) : Entering columns start result := by
  cases later with
  | entered all none =>
    refine .entered all fun position behind => ?_
    rcases Nat.eq_or_lt_of_le behind with rfl | behind
    · exact sound
    · exact none position behind
  | refused behind fault first =>
    refine .refused (Nat.le_of_succ_le behind) fault fun earlier after before => ?_
    rcases Nat.eq_or_lt_of_le after with rfl | after
    · exact sound
    · exact first earlier after before

private theorem Schema.entering_indexAfter : ∀ (rest : Schema) {index : NameIndex}
    {entered : List Column}, index.Of entered →
    Entering (entered ++ rest.toList) entered.length (rest.indexAfter index entered.length)
  | .nil, index, entered, known => by
      rw [toList, List.append_nil, indexAfter]
      refine .entered known fun position past cause fault => ?_
      have none : entered[position]? = none := List.getElem?_eq_none past
      cases fault with
      | empty here _ => cases none.symm.trans here
      | repeated here _ _ _ _ => cases none.symm.trans here
  | .cons name type rest, index, entered, known => by
      have here : (entered ++ (cons name type rest).toList)[entered.length]? =
          some ⟨name, type⟩ := by simp [toList]
      have before : ∀ earlier, earlier < entered.length →
          (entered ++ (cons name type rest).toList)[earlier]? = entered[earlier]? :=
        fun _ inside => List.getElem?_append_left inside
      rw [indexAfter]
      cases hollow : type.isHollow with
      | true =>
        rw [if_pos rfl]
        exact .refused (Nat.le_refl _) (.empty here ((type.isHollow_iff).mp hollow))
          fun earlier after sooner => absurd sooner (Nat.not_lt.mpr after)
      | false =>
        have filled := (type.isHollow_eq_false_iff).mp hollow
        rw [if_neg Bool.false_ne_true]
        cases found : index.lookup name with
        | some earlier =>
          obtain ⟨other, there, same⟩ := (known name earlier).mp found
          have inside := (List.getElem?_eq_some_iff.mp there).1
          rw [Option.isSome_some, if_pos rfl]
          exact .refused (Nat.le_refl _)
            (.repeated here filled inside ((before earlier inside).trans there) same)
            fun earlier after sooner => absurd sooner (Nat.not_lt.mpr after)
        | none =>
          rw [Option.isSome_none, if_neg Bool.false_ne_true]
          have later := entering_indexAfter rest (known.enter ⟨name, type⟩ found)
          rw [List.append_assoc, List.length_append] at later
          refine Entering.before later fun cause fault => ?_
          cases fault with
          | empty hereAlso hollowAlso =>
            obtain rfl := Option.some.inj (here.symm.trans hereAlso)
            exact filled hollowAlso
          | repeated hereAlso _ sooner there same =>
            obtain rfl := Option.some.inj (here.symm.trans hereAlso)
            rw [before _ sooner] at there
            cases found.symm.trans ((known name _).mpr ⟨_, there, same⟩)

namespace IndexedSchema

/-- What may come of building a schema. -/
inductive Building (columns : List Column) : Except SchemaError IndexedSchema → Prop where
  | built {index : NameIndex} (all : index.Of columns)
      (sound : ∀ position cause, ¬ Column.FaultAt columns position cause) :
      Building columns (.ok ⟨.ofList columns, index⟩)
  | refused {error : SchemaError} {position : Nat}
      (fault : Column.FaultAt columns position error)
      (first : ∀ earlier < position, ∀ cause, ¬ Column.FaultAt columns earlier cause) :
      Building columns (.error error)

theorem building_ofColumns? (columns : List Column) : Building columns (ofColumns? columns) := by
  have entering := Schema.entering_indexAfter (.ofList columns) NameIndex.of_nil
  rw [List.nil_append, Schema.toList_ofList] at entering
  change Building columns ((Schema.ofList columns).indexAfter [] 0 >>= _)
  change Schema.Entering columns 0 ((Schema.ofList columns).indexAfter [] 0) at entering
  cases result : (Schema.ofList columns).indexAfter [] 0 with
  | ok index =>
    rw [result] at entering
    cases entering with
    | entered all sound => exact .built all fun position => sound position (Nat.zero_le _)
  | error error =>
    rw [result] at entering
    cases entering with
    | refused _ fault first =>
      exact .refused fault fun earlier sooner => first earlier (Nat.zero_le _) sooner

end IndexedSchema

/-! ### Looking columns up -/

/-- The column at a position is that of the list. -/
theorem Schema.get?_eq_getElem? : ∀ (schema : Schema) (position : Nat),
    schema.get? position = schema.toList[position]?
  | .nil, _ => rfl
  | .cons _ _ _, 0 => rfl
  | .cons _ _ rest, position + 1 => get?_eq_getElem? rest position

private theorem Schema.positionOf?_eq_some : ∀ {schema : Schema} {name : String} {position : Nat},
    schema.positionOf? name = some position →
    ∃ column, schema.toList[position]? = some column ∧ column.name = name
  | .nil, _, _, found => nomatch found
  | .cons own type _, name, position, found => by
      rw [positionOf?] at found
      split at found
      · rename_i same
        obtain rfl := Option.some.inj found
        exact ⟨⟨own, type⟩, rfl, same⟩
      · obtain ⟨later, below, rfl⟩ := Option.map_eq_some_iff.mp found
        obtain ⟨column, here, called⟩ := positionOf?_eq_some below
        exact ⟨column, here, called⟩

private theorem Schema.positionOf?_eq_none : ∀ {schema : Schema} {name : String},
    schema.positionOf? name = none → ∀ column ∈ schema.toList, column.name ≠ name
  | .nil, _, _, _, member => nomatch member
  | .cons own type rest, name, unknown, column, member => by
      rw [positionOf?] at unknown
      split at unknown
      · cases unknown
      · rename_i other
        rcases List.mem_cons.mp member with rfl | member
        · exact other
        · exact positionOf?_eq_none (Option.map_eq_none_iff.mp unknown) column member

/-- Looking a name up in the index of a schema is looking for it column by column. -/
theorem NameIndex.Of.lookup_eq {schema : Schema} {index : NameIndex}
    (all : index.Of schema.toList) (name : String) :
    index.lookup name = schema.positionOf? name := by
  cases found : schema.positionOf? name with
  | some position => exact (all name position).mpr (Schema.positionOf?_eq_some found)
  | none =>
    refine Option.eq_none_iff_forall_not_mem.mpr fun position entered => ?_
    obtain ⟨column, here, called⟩ := (all name position).mp entered
    exact Schema.positionOf?_eq_none found column (List.mem_of_getElem? here) called

namespace IndexedSchema

/-- How a schema of given columns answers to names and positions: a name stands for the position
where the column of that name is, and what is not there is missing. -/
structure Addresses (schema : IndexedSchema) (columns : List Column) : Prop where
  named : ∀ name position, schema.resolve name = .ok position ↔
    position < columns.length ∧
      ∃ column, schema.column position = .ok column ∧ column.name = name
  unnamed : ∀ name, (∀ column ∈ columns, column.name ≠ name) →
    schema.resolve name = .error (.noSuchColumn name)
  placed : ∀ position column, schema.column position = .ok column ↔
    columns[position]? = some column
  beyond : ∀ position, columns.length ≤ position →
    schema.column position = .error (.columnOutOfRange position columns.length)
  same : ∀ position column, schema.column position = .ok column →
    schema.position (.name column.name) = .ok position ∧
      schema.position (.position position) = .ok position
  missing : ∀ index : ColumnIndex, (∀ position, schema.position index ≠ .ok position) →
    schema.position index = .error (index.missing columns.length)

variable {columns : List Column} {index : NameIndex}

private theorem column_ofList (position : Nat) :
    (IndexedSchema.mk (.ofList columns) index).column position =
      match columns[position]? with
      | some column => .ok column
      | none => .error (.columnOutOfRange position columns.length) := by
  rewrite [column, Schema.column, Schema.get?_eq_getElem?, ← Schema.length_toList,
    Schema.toList_ofList]
  rfl

private theorem column_ofList_eq_ok_iff {position : Nat} {column : Column} :
    (IndexedSchema.mk (.ofList columns) index).column position = .ok column ↔
      columns[position]? = some column := by
  rw [column_ofList]
  cases columns[position]? <;> simp

private theorem resolve_eq_ok_iff {schema : IndexedSchema} {name : String} {position : Nat} :
    schema.resolve name = .ok position ↔ schema.index.lookup name = some position := by
  rw [resolve]
  cases schema.index.lookup name <;> simp

/-- A schema whose index has its columns answers to them. -/
private theorem addresses_of_index (all : index.Of columns) :
    Addresses ⟨.ofList columns, index⟩ columns where
  named name position := by
    refine resolve_eq_ok_iff.trans ((all name position).trans ⟨?_, ?_⟩)
    · rintro ⟨column, here, called⟩
      exact ⟨(List.getElem?_eq_some_iff.mp here).1, column, column_ofList_eq_ok_iff.mpr here,
        called⟩
    · rintro ⟨_, column, here, called⟩
      exact ⟨column, column_ofList_eq_ok_iff.mp here, called⟩
  unnamed name absent := by
    have unknown : index.lookup name = none := by
      refine Option.eq_none_iff_forall_not_mem.mpr fun position found => ?_
      obtain ⟨column, here, called⟩ := (all name position).mp found
      exact absent column (List.mem_of_getElem? here) called
    rw [resolve, unknown]
  placed _ _ := column_ofList_eq_ok_iff
  beyond position past := by
    rw [column_ofList, List.getElem?_eq_none past]
  same position column here := by
    constructor
    · exact resolve_eq_ok_iff.mpr
        ((all _ _).mpr ⟨column, column_ofList_eq_ok_iff.mp here, rfl⟩)
    · rw [IndexedSchema.position, here]
      rfl
  missing sought none := by
    cases sought with
    | name name =>
      cases found : index.lookup name with
      | some position => exact absurd (resolve_eq_ok_iff.mpr found) (none position)
      | none =>
        rw [IndexedSchema.position, resolve, found]
        rfl
    | position sought =>
      rw [IndexedSchema.position, column_ofList] at none ⊢
      cases found : columns[sought]? with
      | some column =>
        rw [found] at none
        exact absurd rfl (none sought)
      | none => rfl

end IndexedSchema

/-! ### Schemas below others -/

/-- Whether a column type is made of schemas that were built. -/
inductive ColumnType.Built : ColumnType → Prop where
  | scalar (type : ScalarType) : Built (.scalar type)
  | array {element : ColumnType} (made : Built element) : Built (.array element)
  | tuple {columns : List Column} {schema : IndexedSchema}
      (parts : ∀ column ∈ columns, Built column.type)
      (made : IndexedSchema.ofColumns? columns = .ok schema) : Built (.tuple schema.columns)

/-- Whether a schema was built, from columns that are made of schemas that were built. -/
def IndexedSchema.Built (schema : IndexedSchema) : Prop :=
  ∃ columns : List Column, (∀ column ∈ columns, column.type.Built) ∧
    ofColumns? columns = .ok schema

/-- Whether a schema is that of a tuple at a column type or anywhere below it. -/
inductive ColumnType.Nests : ColumnType → Schema → Prop where
  | here {columns : Schema} : Nests (.tuple columns) columns
  | element {element : ColumnType} {nested : Schema} (below : Nests element nested) :
      Nests (.array element) nested
  | column {columns nested : Schema} {column : Column} (member : column ∈ columns.toList)
      (below : Nests column.type nested) : Nests (.tuple columns) nested

namespace IndexedSchema

variable {columns : List Column} {schema : IndexedSchema}

/-- A schema that was built has the columns it was built from. -/
theorem toList_columns_of_ofColumns? (made : ofColumns? columns = .ok schema) :
    schema.columns.toList = columns := by
  have building := building_ofColumns? columns
  rw [made] at building
  cases building with
  | built _ _ => exact Schema.toList_ofList columns

/-- No column of a schema that was built is an empty tuple. -/
theorem filled_of_ofColumns? (made : ofColumns? columns = .ok schema) {column : Column}
    (member : column ∈ columns) : ¬ column.type.Hollow := by
  have building := building_ofColumns? columns
  rw [made] at building
  cases building with
  | built _ sound =>
    obtain ⟨position, here⟩ := List.mem_iff_getElem?.mp member
    exact fun hollow => sound position _ (.empty here hollow)

/-- The names of the columns of a schema that was built differ. -/
theorem nodup_of_ofColumns? (made : ofColumns? columns = .ok schema) :
    schema.columns.names.Nodup := by
  obtain ⟨index, entered, same⟩ := bind_ok_iff.mp made
  cases same
  exact Schema.names_nodup_of_check (Schema.check_eq_ok_iff.mpr ⟨index, entered⟩)

end IndexedSchema

/-! ### Name indexes

A tuple below a column has no index of its own here. The index with which it was built is a function
of its columns, and it finds what the search column by column finds, so that nothing is lost. -/

namespace IndexedSchema

/-- Schemas that were built are the same when their columns are. -/
theorem Built.eq_of_columns {one other : IndexedSchema} (built : one.Built)
    (also : other.Built) (same : one.columns = other.columns) : one = other := by
  obtain ⟨columns, _, made⟩ := built
  obtain ⟨columnsAlso, _, madeAlso⟩ := also
  have sameColumns : columns = columnsAlso := by
    rw [← toList_columns_of_ofColumns? made, ← toList_columns_of_ofColumns? madeAlso, same]
  rw [← sameColumns, made] at madeAlso
  exact Except.ok.inj madeAlso

/-- The columns of a schema that was built are entered into its index and into no other. -/
theorem Built.nameIndex?_eq {schema : IndexedSchema} (built : schema.Built) :
    schema.columns.nameIndex? = .ok schema.index := by
  obtain ⟨columns, _, made⟩ := built
  obtain ⟨index, entered, same⟩ := bind_ok_iff.mp made
  cases same
  exact entered

/-- The tuple of a schema that was built is a built column type. -/
theorem Built.tuple {schema : IndexedSchema} (built : schema.Built) :
    (ColumnType.tuple schema.columns).Built := by
  obtain ⟨columns, parts, made⟩ := built
  exact .tuple parts made

/-- A schema that was built finds what the search column by column finds. -/
theorem Built.position_eq {schema : IndexedSchema} (built : schema.Built) (sought : ColumnIndex) :
    schema.position sought = schema.columns.position sought := by
  obtain ⟨columns, _, made⟩ := built
  have building := building_ofColumns? columns
  rw [made] at building
  cases building with
  | built all _ =>
    cases sought with
    | position _ => rfl
    | name name =>
      rw [← Schema.toList_ofList columns] at all
      rewrite [position, resolve, all.lookup_eq name, Schema.position, Schema.resolve]
      rfl

end IndexedSchema

/-- The tuples at and below a built column type were built, with one name index each. -/
theorem ColumnType.Built.existsUnique_index {type : ColumnType} (built : type.Built)
    {nested : Schema} (nests : type.Nests nested) :
    ∃! index, (IndexedSchema.mk nested index).Built := by
  have indexed : ∃ index, (IndexedSchema.mk nested index).Built := by
    induction built with
    | scalar type => cases nests
    | array made inductionHypothesis =>
      cases nests with
      | element below => exact inductionHypothesis below
    | @tuple columns schema parts made inductionHypothesis =>
      cases nests with
      | here => exact ⟨schema.index, columns, parts, made⟩
      | column member below =>
        rw [IndexedSchema.toList_columns_of_ofColumns? made] at member
        exact inductionHypothesis _ member below
  obtain ⟨index, made⟩ := indexed
  refine ⟨index, made, fun other madeAlso => ?_⟩
  exact congrArg IndexedSchema.index (madeAlso.eq_of_columns made rfl)

/-- Every tuple at or below a built column type that is no empty tuple has columns, all of different
names. -/
theorem ColumnType.Built.nested {type : ColumnType} (built : type.Built) (filled : ¬ type.Hollow)
    {nested : Schema} (nests : type.Nests nested) : nested ≠ .nil ∧ nested.names.Nodup := by
  induction built with
  | scalar type => cases nests
  | array made inductionHypothesis =>
    cases nests with
    | element below => exact inductionHypothesis (fun hollow => filled (.array hollow)) below
  | tuple parts made inductionHypothesis =>
    cases nests with
    | here =>
      refine ⟨fun empty => ?_, IndexedSchema.nodup_of_ofColumns? made⟩
      rw [empty] at filled
      exact filled .tuple
    | column member below =>
      rw [IndexedSchema.toList_columns_of_ofColumns? made] at member
      exact inductionHypothesis _ member (IndexedSchema.filled_of_ofColumns? made member) below

mutual

private theorem ColumnType.built_of_checkBelow : ∀ type : ColumnType,
    type.checkBelow = .ok () → type.Built
  | .scalar type, _ => .scalar type
  | .array element, below => .array (ColumnType.built_of_checkBelow element below)
  | .tuple columns, below => by
      obtain ⟨_, deeper, here⟩ := bind_ok_iff.mp below
      obtain ⟨index, entered⟩ := Schema.check_eq_ok_iff.mp here
      have made : IndexedSchema.ofColumns? columns.toList = .ok ⟨columns, index⟩ := by
        rw [IndexedSchema.ofColumns?, Schema.ofList_toList]
        exact bind_ok_iff.mpr ⟨index, entered, rfl⟩
      exact .tuple (Schema.built_of_checkBelow columns deeper) made

private theorem Schema.built_of_checkBelow : ∀ schema : Schema, schema.checkBelow = .ok () →
    ∀ column ∈ schema.toList, column.type.Built
  | .nil, _, _, member => nomatch member
  | .cons name type rest, below, column, member => by
      obtain ⟨_, first, later⟩ := bind_ok_iff.mp below
      rcases List.mem_cons.mp member with rfl | member
      · exact ColumnType.built_of_checkBelow type first
      · exact Schema.built_of_checkBelow rest later column member

end

private theorem Schema.checkBelow_of_columns : ∀ {schema : Schema},
    (∀ column ∈ schema.toList, column.type.checkBelow = .ok ()) → schema.checkBelow = .ok ()
  | .nil, _ => rfl
  | .cons name type rest, each => by
      obtain ⟨first, later⟩ := List.forall_mem_cons.mp each
      exact bind_ok_iff.mpr ⟨(), first, checkBelow_of_columns later⟩

private theorem ColumnType.Built.checkBelow {type : ColumnType} (built : type.Built) :
    type.checkBelow = .ok () := by
  induction built with
  | scalar type => rfl
  | array made inductionHypothesis => exact inductionHypothesis
  | tuple parts made inductionHypothesis =>
    obtain ⟨index, entered, same⟩ := bind_ok_iff.mp made
    cases same
    have below := Schema.checkBelow_of_columns (by rwa [Schema.toList_ofList])
    exact bind_ok_iff.mpr ⟨(), below, Schema.check_eq_ok_iff.mpr ⟨index, entered⟩⟩

/-- The schemas that pass their checks at every depth are those that can be built. -/
theorem Schema.checkAll_eq_ok_iff {schema : Schema} :
    schema.checkAll = .ok () ↔ ∃ index, (IndexedSchema.mk schema index).Built := by
  constructor
  · intro checked
    have tuple : ColumnType.checkBelow (.tuple schema) = .ok () := checked
    obtain ⟨_, below, here⟩ := bind_ok_iff.mp tuple
    obtain ⟨index, entered⟩ := check_eq_ok_iff.mp here
    refine ⟨index, schema.toList, Schema.built_of_checkBelow schema below, ?_⟩
    rw [IndexedSchema.ofColumns?, ofList_toList]
    exact bind_ok_iff.mpr ⟨index, entered, rfl⟩
  · rintro ⟨index, columns, parts, made⟩
    exact (ColumnType.Built.tuple parts made).checkBelow

namespace IndexedSchema

/-- Columns make a schema unless one of them is an empty tuple or has the name of an earlier one,
and the first such column is what a refusal is about. The schema answers to the names and positions
of its columns and to no others. If the schemas below the columns were built too, each of them has
columns, all of different names. -/
theorem ofColumns?_exact (columns : List Column) :
    ((∃ error, ofColumns? columns = .error error) ↔
      ∃ (position : Nat) (column : Column), columns[position]? = some column ∧
        (column.type.Hollow ∨ ∃ earlier other, earlier < position ∧
          columns[earlier]? = some other ∧ other.name = column.name)) ∧
    (∀ error, ofColumns? columns = .error error ↔
      ∃ position, Column.FaultAt columns position error ∧
        ∀ earlier < position, ∀ cause, ¬ Column.FaultAt columns earlier cause) ∧
    ∀ schema, ofColumns? columns = .ok schema →
      schema.columns.toList = columns ∧ schema.Addresses columns ∧
        ((∀ column ∈ columns, column.type.Built) → ∀ column ∈ columns, ∀ nested,
          column.type.Nests nested → nested ≠ .nil ∧ nested.names.Nodup) := by
  have building := building_ofColumns? columns
  refine ⟨?_, ?_, ?_⟩
  · constructor
    · rintro ⟨error, refusal⟩
      rw [refusal] at building
      cases building with
      | refused fault _ => exact ⟨_, Column.exists_faultAt_iff.mp ⟨_, fault⟩⟩
    · rintro ⟨position, wrong⟩
      obtain ⟨cause, fault⟩ := Column.exists_faultAt_iff.mpr wrong
      cases result : ofColumns? columns with
      | error error => exact ⟨error, rfl⟩
      | ok schema =>
        rw [result] at building
        cases building with
        | built _ sound => exact absurd fault (sound position cause)
  · intro error
    constructor
    · intro refusal
      rw [refusal] at building
      cases building with
      | refused fault first => exact ⟨_, fault, first⟩
    · rintro ⟨position, fault, first⟩
      cases result : ofColumns? columns with
      | ok schema =>
        rw [result] at building
        cases building with
        | built _ sound => exact absurd fault (sound position error)
      | error reported =>
        rw [result] at building
        cases building with
        | @refused _ place faultThere firstThere =>
          -- Each of the two positions is the first one with a fault.
          have same : place = position := by
            rcases Nat.lt_trichotomy place position with sooner | same | later
            · exact absurd faultThere (first place sooner reported)
            · exact same
            · exact absurd fault (firstThere position later error)
          subst same
          rw [faultThere.unique fault]
  · intro schema made
    refine ⟨toList_columns_of_ofColumns? made, ?_, ?_⟩
    · rw [made] at building
      cases building with
      | built all _ => exact addresses_of_index all
    · intro parts column member nested nests
      exact (parts column member).nested (filled_of_ofColumns? made member) nests

/-- An order has an identifier and lines, each of them with an identifier of its own. A second
column of the name of the first is refused, as an empty tuple where it is one. -/
theorem ofColumns?_exact_of_order :
    (∃ position, Column.FaultAt [⟨"id", .scalar .long⟩, ⟨"id", .array (.tuple .nil)⟩] position
      (.emptyTuple "id")) ∧
    ∃ schema, ofColumns? [⟨"id", .scalar .long⟩,
        ⟨"lines", .array (.tuple (.cons "id" (.scalar .string) .nil))⟩] = .ok schema ∧
      schema.resolve "lines" = .ok 1 ∧
      schema.position (.position 2) = .error (.columnOutOfRange 2 2) ∧
      (Schema.cons "id" (.scalar .string) .nil).names.Nodup := by
  constructor
  · obtain ⟨position, fault, _⟩ := ((ofColumns?_exact
      [⟨"id", .scalar .long⟩, ⟨"id", .array (.tuple .nil)⟩]).2.1 (.emptyTuple "id")).mp rfl
    exact ⟨position, fault⟩
  · have made : ofColumns? [⟨"id", .scalar .string⟩] =
        .ok ⟨.cons "id" (.scalar .string) .nil, [("id", 0)]⟩ := rfl
    have line : (ColumnType.tuple (.cons "id" (.scalar .string) .nil)).Built :=
      .tuple (List.forall_mem_singleton.mpr (.scalar .string)) made
    obtain ⟨_, addresses, below⟩ := (ofColumns?_exact [⟨"id", .scalar .long⟩,
      ⟨"lines", .array (.tuple (.cons "id" (.scalar .string) .nil))⟩]).2.2 _ rfl
    refine ⟨_, rfl, (addresses.named "lines" 1).mpr ⟨by decide, _, rfl, rfl⟩,
      addresses.missing (.position 2) (fun _ found => nomatch found), ?_⟩
    refine (below ?_ _ (.tail _ (.head _)) _ (.element .here)).2
    exact List.forall_mem_cons.mpr ⟨.scalar .long, List.forall_mem_singleton.mpr (.array line)⟩

end IndexedSchema

end Columnar
