import Columnar.Proofs.Batch.Contents
import Columnar.Proofs.SameShape
import Columnar.Reader.Read

/-!
# Views of given values

`View.ofValues` is the one view of a sealed column that has given values, with no entry moved. It is
the view that a reader binds, and reading it at an index gives the value there, whatever its shape.
-/

namespace Columnar

theorem checkCount_eq_ok_iff {path : String} {expected found : Nat} :
    checkCount path expected found = .ok () ↔ found = expected := by
  unfold checkCount
  split
  · rename_i same
    exact ⟨fun _ => same, fun _ => rfl⟩
  · rename_i other
    exact ⟨nofun, fun same => absurd same other⟩

mutual

/-- The view of a column that has the values of a list. -/
def View.ofValues (path : String) : ColumnType → List Value → View
  | .scalar type, values => .scalar path (.ofScalars type (values.map (Value.leaf type)))
  | .array element, values =>
      .array path (offsetsOf (Value.sizes values)).toArray none
        (View.ofValues path element (values.flatMap Value.items))
  | .tuple columns, values => .tuple path (Views.ofRows path columns (values.map Value.items))

/-- The views of columns that have the rows of a list. -/
def Views.ofRows (parent : String) : Schema → List (List Value) → Views
  | .nil, _ => .nil
  | .cons name type rest, rows =>
      .cons name (View.ofValues (childPath parent name) type (rows.map Value.firstItem))
        (Views.ofRows parent rest (rows.map List.tail))

end

mutual

/-- A sealed column binds, under any type of its shape, to the view of its values. -/
theorem View.ofData_ofValues : ∀ (path : String) {type other : ColumnType} (values : List Value),
    type.SameShape other →
    View.ofData path other (.ofValues type values) = .ok (.ofValues path other values)
  | path, .scalar type, .scalar other, values, same => by
      obtain rfl : type = other := same
      rw [ColumnData.ofValues, View.ofData, if_pos (Leaf.type_ofScalars type _), View.ofValues]
  | path, .array element, .array other, values, same => by
      have items : View.ofData path other (.ofValues element (values.flatMap Value.items)) =
          .ok (.ofValues path other (values.flatMap Value.items)) :=
        View.ofData_ofValues path (values.flatMap Value.items) same
      rw [ColumnData.ofValues, View.ofData, items, View.ofValues]
      rfl
  | path, .tuple columns, .tuple others, values, same => by
      have counted : checkCount path others.length
          (DataColumns.ofRows columns (values.map Value.items)).count = .ok () :=
        if_pos ((DataColumns.count_ofRows columns _).trans (Schema.SameShape.length_eq same))
      have below : Views.ofDatas path others
            (DataColumns.ofRows columns (values.map Value.items)).datas =
          .ok (.ofRows path others (values.map Value.items)) :=
        Views.ofDatas_ofRows path (values.map Value.items) same
      rw [ColumnData.ofValues, View.ofData, counted, View.ofValues]
      change (do let views ← Views.ofDatas path others _; pure (View.tuple path views)) = _
      rw [below]
      rfl
  | _, .scalar _, .array _, _, same => same.elim
  | _, .scalar _, .tuple _, _, same => same.elim
  | _, .array _, .scalar _, _, same => same.elim
  | _, .array _, .tuple _, _, same => same.elim
  | _, .tuple _, .scalar _, _, same => same.elim
  | _, .tuple _, .array _, _, same => same.elim

/-- Sealed columns bind, under any schema of their shape, to the views of their rows. -/
theorem Views.ofDatas_ofRows : ∀ (parent : String) {schema other : Schema}
    (rows : List (List Value)), schema.SameShape other →
    Views.ofDatas parent other (DataColumns.ofRows schema rows).datas =
      .ok (.ofRows parent other rows)
  | _, .nil, .nil, _, _ => rfl
  | parent, .cons name type rest, .cons otherName other others, rows, same => by
      have first := View.ofData_ofValues (childPath parent otherName)
        (rows.map Value.firstItem) same.1
      have later := Views.ofDatas_ofRows parent (rows.map List.tail) same.2
      rw [DataColumns.ofRows]
      change (do
        let view ← View.ofData (childPath parent otherName) other _
        let views ← Views.ofDatas parent others (DataColumns.ofRows rest _).datas
        pure (Views.cons otherName view views)) = _
      rw [first, later]
      rfl
  | _, .nil, .cons _ _ _, _, same => same.elim
  | _, .cons _ _ _, .nil, _, same => same.elim

end

/-! ### Reading -/

private theorem mapM_range' {read : Nat → Except Refusal Value} {items : List Value} {start : Nat}
    (reads : ∀ (index : Nat) (item : Value), items[index]? = some item →
      read (start + index) = .ok item) :
    (List.range' start items.length).mapM read = .ok items := by
  induction items generalizing start with
  | nil => rfl
  | cons item rest inductionHypothesis =>
    have first : read start = .ok item := reads 0 item rfl
    have later : (List.range' (start + 1) rest.length).mapM read = .ok rest := by
      apply inductionHypothesis
      intro index next found
      have here := reads (index + 1) next found
      rwa [Nat.add_comm index 1, ← Nat.add_assoc] at here
    rw [List.length_cons, List.range'_succ, List.mapM_cons, first, later]
    rfl

/-- The elements of all values are those of the values before one, its own, and those behind. -/
theorem flatMap_items_eq {values : List Value} {index : Nat} {value : Value}
    (found : values[index]? = some value) :
    values.flatMap Value.items = (values.take index).flatMap Value.items ++
      (value.items ++ (values.drop (index + 1)).flatMap Value.items) := by
  obtain ⟨within, rfl⟩ := List.getElem?_eq_some_iff.mp found
  conv => lhs; rw [← List.take_append_drop index values]
  rw [List.flatMap_append, List.drop_eq_getElem_cons within, List.flatMap_cons]

/-- The elements of a value lie behind those of the values before it. -/
theorem getElem?_flatMap_items {values : List Value} {index element : Nat}
    {value item : Value} (found : values[index]? = some value)
    (inside : value.items[element]? = some item) :
    (values.flatMap Value.items)[((values.take index).flatMap Value.items).length + element]? =
      some item := by
  have bounded := (List.getElem?_eq_some_iff.mp inside).1
  rw [flatMap_items_eq found, List.getElem?_append_right (Nat.le_add_right _ _),
    Nat.add_sub_cancel_left, List.getElem?_append_left bounded, inside]

/-- Where the elements of a value begin and end. -/
theorem slotBounds_offsetsOf {values : List Value} {index : Nat} {value : Value}
    (found : values[index]? = some value) :
    slotBounds (offsetsOf (Value.sizes values)).toArray index =
      .ok (((values.take index).flatMap Value.items).length,
        ((values.take index).flatMap Value.items).length + value.items.length) := by
  have within := (List.getElem?_eq_some_iff.mp found).1
  have offset : ∀ position, position ≤ values.length →
      (offsetsOf (Value.sizes values))[position]? =
        some ((values.take position).flatMap Value.items).length := by
    intro position reached
    rw [getElem?_offsetsOf (by simpa using reached), Value.take_sizes, Value.sum_sizes]
  have first := offset index (Nat.le_of_lt within)
  have last := offset (index + 1) (Nat.succ_le_of_lt within)
  rw [List.take_add_one, found, Option.toList_some, List.flatMap_append, List.flatMap_singleton,
    List.length_append] at last
  unfold slotBounds
  simp only [List.getElem?_toArray, first, last]

mutual

/-- Reading a column at an index gives the value there. -/
theorem View.read_ofValues : ∀ (path : String) (type : ColumnType) (values : List Value)
    (index : Nat) (value : Value), values[index]? = some value → type.Admits value →
    (View.ofValues path type values).read (.ok index) = .ok value
  | path, .scalar type, values, index, .scalar value, found, admitted => by
      have stored : (values.map (Value.leaf type))[index]? = some value := by
        rw [List.getElem?_map, found]
        rfl
      have looked := Leaf.get?_ofScalars stored admitted
      simp only [View.ofValues, View.read, Leaf.read, bind, Except.bind, looked]
      rfl
  | path, .array element, values, index, .array items, found, admitted => by
      have bounds := slotBounds_offsetsOf found
      have reads : (List.range items.length).mapM (fun position =>
          (View.ofValues path element (values.flatMap Value.items)).read
            (.ok (((values.take index).flatMap Value.items).length + position))) =
          .ok items := by
        rw [List.range_eq_range']
        refine mapM_range' ?_
        intro position item inside
        rw [Nat.zero_add]
        exact View.read_ofValues path element (values.flatMap Value.items) _ item
          (getElem?_flatMap_items found inside)
          (admitted item (List.mem_of_getElem? inside))
      simp only [View.ofValues, View.read, bind, Except.bind, bounds, Nat.add_sub_cancel_left]
      simp only [Value.items] at reads ⊢
      rw [reads]
      rfl
  | path, .tuple columns, values, index, .tuple items, found, admitted => by
      have row : (values.map Value.items)[index]? = some items := by
        rw [List.getElem?_map, found]
        rfl
      have below := Views.read_ofRows path columns (values.map Value.items) index items row admitted
      simp only [View.ofValues, View.read, below, bind, Except.bind]
      rfl

/-- Reading columns at an index gives the row there. -/
theorem Views.read_ofRows : ∀ (parent : String) (schema : Schema) (rows : List (List Value))
    (index : Nat) (row : List Value), rows[index]? = some row → schema.Admits row →
    (Views.ofRows parent schema rows).read (.ok index) = .ok row
  | _, .nil, _, _, [], _, _ => rfl
  | parent, .cons name type rest, rows, index, item :: items, found, admitted => by
      have head : (rows.map Value.firstItem)[index]? = some item := by
        rw [List.getElem?_map, found]
        rfl
      have tail : (rows.map List.tail)[index]? = some items := by
        rw [List.getElem?_map, found]
        rfl
      have first := View.read_ofValues (childPath parent name) type _ index item head admitted.1
      have others := Views.read_ofRows parent rest _ index items tail admitted.2
      simp only [Views.ofRows, Views.read, first, others, bind, Except.bind]
      rfl

end

end Columnar
