import Columnar.Proofs.Arena.Freezing
import Columnar.Proofs.Arena.Held
import Mathlib.Data.List.Nodup

/-!
# Well-formed arenas

What is registered for a checked schema is a forest of buffers, one for each column of the schema,
with one cursor for the rows and one for the elements of each array. So whatever is stored in the
buffers and told by the cursors later, walks come to an end, and to each buffer on their way once.
-/

namespace Columnar

/-! ### The schema in the arena -/

/-- Whether a buffer is an empty one for a column type, with room for `capacity` bytes. -/
inductive Buffer.IsEmptyOf (capacity : Nat) : ColumnType → Buffer → Prop where
  | scalar (type : ScalarType) : IsEmptyOf capacity (.scalar type) (.ofType type capacity)
  | array (element : ColumnType) (entry : Nat) :
      IsEmptyOf capacity (.array element) (.ofEntry entry capacity)
  | tuple {columns : Schema} {parts : List Nat} (each : parts.length = columns.length) :
      IsEmptyOf capacity (.tuple columns) (.ofChildren columns.names parts)

namespace Arena

/-- The buffer of the column at an address. -/
def buffer? (arena : Arena) (address : List Step) : Option Buffer :=
  (arena.number? address).bind arena.store.get?

/-- The place of the buffer of the column at an address. -/
def placement? (arena : Arena) (address : List Step) : Option Placement :=
  (arena.number? address).bind fun id => arena.placements[id]?

/-- Whether an arena is laid out for a schema, its buffers empty. -/
structure LaidOut (arena : Arena) (schema : Schema) (capacity : Nat) : Prop where
  /-- There is one buffer for each column at every depth: the columns have the numbers in order. -/
  numbered : schema.addresses.map arena.number? = (List.range arena.store.size).map some
  /-- There is one place for each buffer. -/
  placed : arena.placements.size = arena.store.size
  /-- The buffer of each column is one for its type, and its place has the path of the column and
  names the parts that the buffer names. -/
  registered : ∀ address ∈ schema.addresses, ∃ place buffer placement,
    (Place.ofSchema schema).find address = .ok place ∧
      arena.buffer? address = some buffer ∧ arena.placement? address = some placement ∧
      buffer.IsEmptyOf capacity place.type ∧ placement.path = place.path ∧
      placement.children = buffer.children ∧
      -- Just the arrays keep cursors.
      placement.elements?.isSome = place.type.element?.isSome ∧
      -- Just the scalar entries of arrays take an element with every value.
      placement.appends = (address.getLast? == some .entry && place.type.isScalar)
  /-- Parts have smaller numbers, and each buffer is a part of at most one other. -/
  forest : arena.store.Forest
  /-- The buffers of the columns of the row are those that are no parts. -/
  roots : ∀ id, id < arena.store.size → (id ∈ arena.top ↔ ∀ other, ¬arena.store.IsPart id other)
  /-- They come in the order of the schema. -/
  top : (List.range schema.length).map
    (fun position => arena.number? [.column (.position position)]) = arena.top.map some
  /-- Every cursor but that of the rows is kept by one array. -/
  cursors : (arena.placements.toList.filterMap Placement.elements?).Perm
    (List.range' 1 (arena.cursors.size - 1))
  /-- A column that is in no array is written at the cursor of the rows. -/
  outside : ∀ address ∈ schema.addresses, .entry ∉ address →
    (arena.placement? address).map Placement.position = some Layout.rowCursor
  /-- A column that is in an array is written at the cursor of the innermost one. -/
  inside : ∀ outer inner, outer ++ .entry :: inner ∈ schema.addresses → .entry ∉ inner →
    ∃ cursor, (arena.placement? outer).bind Placement.elements? = some cursor ∧
      (arena.placement? (outer ++ .entry :: inner)).map Placement.position = some cursor

/-- What is found at the number of a column that an arena holds. -/
theorem Has.placement {arena : Arena} {id position : Nat} {place : Place} {appends : Bool}
    {node : Node} (has : arena.Has id place position appends node) :
    ∃ buffer placement, arena.store.get? id = some buffer ∧
      arena.placements[id]? = some placement ∧ (∀ part ∈ buffer.children, part < id) ∧
      placement.path = place.path ∧ placement.position = position ∧
      placement.children = buffer.children ∧
      placement.elements?.isSome = place.type.element?.isSome ∧
      placement.appends = (appends && place.type.isScalar) := by
  obtain ⟨path, type⟩ := place
  cases type with
  | scalar type =>
    obtain ⟨values, -, stored, placed⟩ := has.scalar
    exact ⟨_, _, stored, placed, nofun, rfl, rfl, rfl, rfl, (Bool.and_true _).symm⟩
  | array element =>
    obtain ⟨slots, elements, entry, part, cursor, -, stored, placed, before, -⟩ := has.entry
    refine ⟨_, _, stored, placed, ?_, rfl, rfl, rfl, rfl, (Bool.and_false _).symm⟩
    intro child member
    obtain rfl := List.mem_singleton.mp member
    exact before
  | tuple schema =>
    obtain ⟨count, columns, parts, -, stored, placed, before, -, -⟩ := has.columns
    exact ⟨_, _, stored, placed, before, rfl, rfl, rfl, rfl, (Bool.and_false _).symm⟩

end Arena

/-! ### The forest -/

namespace Store

variable {store : Store} {part id other : Nat}

private theorem not_isPart_of_lt
    (apart : (store.buffers.toList.map Buffer.children).Pairwise List.Disjoint) (less : id < other)
    (isPart : store.IsPart part id) : ¬store.IsPart part other := by
  rintro ⟨second, foundSecond, memberSecond⟩
  obtain ⟨first, foundFirst, memberFirst⟩ := isPart
  obtain ⟨inFirst, rfl⟩ := Array.getElem?_eq_some_iff.mp foundFirst
  obtain ⟨inSecond, rfl⟩ := Array.getElem?_eq_some_iff.mp foundSecond
  have disjoint := List.pairwise_iff_getElem.mp apart id other (by simpa using inFirst)
    (by simpa using inSecond) less
  exact disjoint (by simpa using memberFirst) (by simpa using memberSecond)

/-- If the parts that are named differ, each is named by one buffer. -/
theorem oneParent_of_nodup (nodup : (store.buffers.toList.flatMap Buffer.children).Nodup)
    (isPart : store.IsPart part id) (isOther : store.IsPart part other) : id = other := by
  have apart : (store.buffers.toList.map Buffer.children).Pairwise List.Disjoint := by
    rw [List.pairwise_map]
    exact (List.nodup_flatMap.mp nodup).2
  rcases Nat.lt_trichotomy id other with less | same | greater
  · exact absurd isOther (not_isPart_of_lt apart less isPart)
  · exact same
  · exact absurd isPart (not_isPart_of_lt apart greater isOther)

/-- What is named is a part of some buffer. -/
theorem mem_flatMap_children :
    part ∈ store.buffers.toList.flatMap Buffer.children ↔ ∃ id, store.IsPart part id := by
  rw [List.mem_flatMap]
  constructor
  · rintro ⟨buffer, member, named⟩
    obtain ⟨id, found⟩ := List.mem_iff_getElem?.mp member
    exact ⟨id, buffer, by simpa [get?] using found, named⟩
  · rintro ⟨id, buffer, found, named⟩
    have present : store.buffers.toList[id]? = some buffer := by simpa [get?] using found
    exact ⟨buffer, List.mem_of_getElem? present, named⟩

end Store

namespace Nodes

variable {schema : Schema} {columns : Nodes}

/-- Every number in the arena of columns is that of a column at an address. -/
theorem exists_address (inPlace : columns.InPlace "" schema) (row : Nat) {id : Nat}
    (within : id < (columns.arena row).store.size) :
    ∃ address ∈ schema.addresses, (columns.arena row).number? address = some id := by
  have member : some id ∈ (List.range (columns.arena row).store.size).map some :=
    List.mem_map_of_mem (List.mem_range.mpr within)
  rw [← columns.numbers_arena row, inPlace.schema_eq] at member
  exact List.mem_map.mp member

theorem nodup_children_arena (columns : Nodes) (row : Nat) :
    ((columns.arena row).store.buffers.toList.flatMap Buffer.children ++
      (columns.arena row).top).Nodup :=
  (columns.children_arena row).nodup_iff.mpr List.nodup_range

/-- The buffers of columns of a schema without empty tuples are a forest. -/
theorem forest_arena (inPlace : columns.InPlace "" schema) (solid : schema.Solid) (row : Nat) :
    (columns.arena row).store.Forest := by
  have nodup := (List.nodup_append.mp (columns.nodup_children_arena row)).1
  have held : ∀ {id buffer}, (columns.arena row).store.get? id = some buffer →
      ∃ address place cursor appends node, address ≠ [] ∧
        (Place.ofSchema schema).find address = .ok place ∧
        (columns.arena row).Has id place cursor appends node := by
    intro id buffer found
    obtain ⟨within, -⟩ := Array.getElem?_eq_some_iff.mp found
    obtain ⟨address, member, numbered⟩ := exists_address inPlace row within
    obtain ⟨other, place, cursor, node, same, leads, -, has, -⟩ := has_arena inPlace row member
    obtain rfl := Option.some.inj (numbered.symm.trans same)
    exact ⟨address, place, cursor, _, node, ((schema.mem_addresses_iff address).mp member).1, leads,
      has⟩
  refine ⟨?_, fun part id other => Store.oneParent_of_nodup nodup, ?_, ?_⟩
  · rintro part id ⟨buffer, found, named⟩
    obtain ⟨address, place, cursor, appends, node, -, -, has⟩ := held found
    obtain ⟨stored, placement, present, -, before, -⟩ := has.placement
    obtain rfl := Option.some.inj (found.symm.trans present)
    exact before part named
  · intro id buffer found
    have present : (columns.arena row).store.buffers.toList[id]? = some buffer := by
      simpa [Store.get?] using found
    exact (List.nodup_flatMap.mp nodup).1 buffer (List.mem_of_getElem? present)
  · intro id names parts shared found
    obtain ⟨address, ⟨path, type⟩, cursor, appends, node, further, leads, has⟩ := held found
    cases type with
    | scalar _ =>
      obtain ⟨_, -, stored, -⟩ := has.scalar
      cases found.symm.trans stored
    | array _ =>
      obtain ⟨_, _, _, _, _, -, stored, -⟩ := has.entry
      cases found.symm.trans stored
    | tuple inner =>
      obtain ⟨count, _, others, -, stored, -, -, each, -⟩ := has.columns
      cases found.symm.trans stored
      have filled : inner.isEmpty = false := by
        rcases Place.solid_find_ofSchema solid leads with ⟨-, none⟩ | ⟨filled, -⟩
        · exact absurd none further
        · exact filled
      refine ⟨?_, ?_⟩
      · rw [each, Schema.names, List.length_map, inner.length_toList]
      · rintro rfl
        cases inner with
        | nil => cases filled
        | cons _ _ _ => cases each

/-- The buffers of the columns of the row are just those that are no parts. -/
theorem mem_top_arena_iff (columns : Nodes) (row : Nat) {id : Nat}
    (within : id < (columns.arena row).store.size) :
    id ∈ (columns.arena row).top ↔ ∀ other, ¬(columns.arena row).store.IsPart id other := by
  have named : id ∈ (columns.arena row).store.buffers.toList.flatMap Buffer.children ++
      (columns.arena row).top :=
    (columns.children_arena row).mem_iff.mpr (List.mem_range.mpr within)
  have apart := (List.nodup_append.mp (columns.nodup_children_arena row)).2.2
  rw [← not_exists, ← Store.mem_flatMap_children]
  constructor
  · intro top part
    exact apart id part id top rfl
  · intro root
    exact (List.mem_append.mp named).resolve_left root

end Nodes

/-! ### Empty columns -/

theorem Nodes.get?_ofSchema (capacity : Nat) : ∀ (parent : String) (schema : Schema)
    (index : ColumnIndex) {child : Node},
    (Nodes.ofSchema capacity parent schema).get? index = some child →
    ∃ path type, child = .ofType capacity path type
  | _, .nil, index, _, found => by cases index <;> cases found
  | parent, .cons name type rest, .position 0, _, found =>
      ⟨childPath parent name, type, (Option.some.inj found).symm⟩
  | parent, .cons _ _ rest, .position (position + 1), _, found =>
      Nodes.get?_ofSchema capacity parent rest (.position position) found
  | parent, .cons name type rest, .name sought, _, found => by
      rw [Nodes.ofSchema, Nodes.get?] at found
      split at found
      · exact ⟨childPath parent name, type, (Option.some.inj found).symm⟩
      · exact Nodes.get?_ofSchema capacity parent rest (.name sought) found

/-- Every column below an empty column is empty. -/
theorem Node.find_ofType {capacity : Nat} {steps : List Step} {path : String} {type : ColumnType}
    {target : Node} (found : (Node.ofType capacity path type).find steps = .ok target) :
    ∃ path type, target = .ofType capacity path type := by
  induction steps generalizing path type with
  | nil => exact ⟨path, type, (Except.ok.inj found).symm⟩
  | cons step rest inductionHypothesis =>
    obtain ⟨next, first, found⟩ := bind_ok_iff.mp found
    cases type with
    | scalar _ => cases step <;> cases first
    | array element =>
      cases step with
      | column _ => cases first
      | entry =>
        obtain rfl := Except.ok.inj first
        exact inductionHypothesis found
    | tuple columns =>
      cases step with
      | entry => cases first
      | column index =>
        simp only [Node.ofType, Node.child, Node.column, Node.asTuple, bind, Except.bind] at first
        cases present : (Nodes.ofSchema capacity path columns).get? index with
        | none =>
          rw [present] at first
          cases first
        | some child =>
          rw [present] at first
          obtain rfl := Except.ok.inj first
          obtain ⟨path, type, rfl⟩ := Nodes.get?_ofSchema capacity path columns index present
          exact inductionHypothesis found

namespace Arena

/-- The buffer of an empty column is an empty one. -/
theorem Has.isEmptyOf {arena : Arena} {id position capacity : Nat} {place : Place} {appends : Bool}
    {path : String} {type : ColumnType}
    (has : arena.Has id place position appends (.ofType capacity path type)) :
    ∃ buffer, arena.store.get? id = some buffer ∧ buffer.IsEmptyOf capacity place.type := by
  have typed := has.inPlace.type_eq
  rw [Node.type_ofType] at typed
  subst typed
  obtain ⟨own, type⟩ := place
  cases type with
  | scalar type =>
    obtain ⟨values, same, stored, -⟩ := has.scalar
    cases same
    exact ⟨_, stored, .scalar type⟩
  | array element =>
    obtain ⟨slots, elements, entry, part, cursor, same, stored, -⟩ := has.entry
    cases same
    exact ⟨_, stored, .array element part⟩
  | tuple columns =>
    obtain ⟨count, others, parts, same, stored, -, -, each, -⟩ := has.columns
    cases same
    exact ⟨_, stored, .tuple each⟩

/-- Just the last step of an address tells a scalar entry. -/
private theorem appends_eq (address : List Step) (type : ColumnType) :
    ((address.getLast?.map (Step.appends type)).getD false && type.isScalar) =
      (address.getLast? == some .entry && type.isScalar) := by
  cases address.getLast? with
  | none => rfl
  | some step =>
    cases step with
    | entry => exact Bool.and_self _
    | column _ => rfl

end Arena

namespace Nodes

variable {schema : Schema} {columns : Nodes}

/-- A column in an array is written at the cursor of the innermost one. -/
theorem inside_arena (inPlace : columns.InPlace "" schema) (row : Nat) {outer inner : List Step}
    (member : outer ++ .entry :: inner ∈ schema.addresses) (innermost : .entry ∉ inner) :
    ∃ cursor, ((columns.arena row).placement? outer).bind Placement.elements? = some cursor ∧
      ((columns.arena row).placement? (outer ++ .entry :: inner)).map Placement.position =
        some cursor := by
  obtain ⟨-, direct, place, leads⟩ := (schema.mem_addresses_iff _).mp member
  rw [Place.find_append] at leads
  obtain ⟨⟨path, type⟩, ahead, behind⟩ := bind_ok_iff.mp leads
  obtain ⟨below, first, behind⟩ := bind_ok_iff.mp behind
  obtain ⟨directOuter, directInner⟩ := List.forall_mem_append.mp direct
  have array : ∃ element, type = .array element := by
    cases type with
    | array element => exact ⟨element, rfl⟩
    | scalar _ => cases first
    | tuple _ => cases first
  obtain ⟨element, rfl⟩ := array
  obtain rfl := Except.ok.inj first
  have further : outer ≠ [] := by
    rintro rfl
    cases ahead
  have outerMember := (schema.mem_addresses_iff outer).mpr ⟨further, directOuter, _, ahead⟩
  obtain ⟨id, whole, position, target, numbered, same, -, has, -⟩ :=
    has_arena inPlace row outerMember
  obtain rfl := Except.ok.inj (ahead.symm.trans same)
  obtain ⟨slots, elements, entry, part, cursor, rfl, stored, placed, -, held⟩ := has.entry
  obtain ⟨reached, there, last, followed, -, hasLast, still⟩ :=
    held.follow behind (List.forall_mem_cons.mp directInner).2
  obtain rfl := still innermost
  obtain ⟨buffer, placement, -, placedLast, -, -, at_, -⟩ := hasLast.placement
  have numberedLast : (columns.arena row).number? (outer ++ .entry :: inner) = some reached := by
    rw [Arena.number?, Store.followFrom_append further]
    rw [Arena.number?] at numbered
    simp only [numbered, Option.bind_some, Store.follow_slots stored, followed]
  refine ⟨there, ?_, ?_⟩
  · simp [Arena.placement?, numbered, placed]
  · simp [Arena.placement?, numberedLast, placedLast, at_]

end Nodes

/-- The columns of the row have their numbers in the order of their positions. -/
theorem Arena.numbers_top (arena : Arena) :
    (List.range arena.top.length).map
      (fun position => arena.number? [.column (.position position)]) = arena.top.map some := by
  refine List.ext_getElem (by simp) fun position within present => ?_
  have inside : position < arena.top.length := by simpa using present
  simp [Arena.number?, Store.followFrom, Store.follow, List.getElem?_eq_getElem inside]

/-- What is registered for a checked schema is laid out for it. -/
theorem Arena.LaidOut.ofSchema {schema : Schema} (solid : schema.Solid) (limits : Limits) :
    (Arena.ofSchema schema limits).LaidOut schema limits.bufferBytes := by
  have inPlace : (Nodes.ofSchema limits.bufferBytes "" schema).InPlace "" schema :=
    (Draft.inPlace_run schema limits []).2
  have typed := inPlace.schema_eq
  rw [Arena.ofSchema_eq, Draft.arena, Draft.ofSchema]
  generalize columnsEq : Nodes.ofSchema limits.bufferBytes "" schema = columns at inPlace typed ⊢
  have size := columns.size_arena 0
  exact {
    numbered := by rw [← typed]; exact columns.numbers_arena 0
    placed := by rw [columns.size_placements_arena, size]
    registered := by
      intro address member
      obtain ⟨id, place, cursor, target, numbered, leads, found, has, -⟩ :=
        Nodes.has_arena inPlace 0 member
      obtain ⟨buffer, placement, stored, placed, -, path, -, children, elements, appends⟩ :=
        has.placement
      have begun : Node.tuple "" 0 columns =
          .ofType limits.bufferBytes "" (.tuple schema) := by rw [Node.ofType, columnsEq]
      rw [begun] at found
      obtain ⟨own, type, rfl⟩ := Node.find_ofType found
      obtain ⟨same, present, empty⟩ := has.isEmptyOf
      obtain rfl := Option.some.inj (stored.symm.trans present)
      exact ⟨place, buffer, placement, leads, by simp [Arena.buffer?, numbered, stored],
        by simp [Arena.placement?, numbered, placed], empty, path, children, elements,
        appends.trans (Arena.appends_eq address place.type)⟩
    forest := Nodes.forest_arena inPlace solid 0
    roots := fun id within => columns.mem_top_arena_iff 0 within
    top := by
      have length : (columns.arena 0).top.length = schema.length := by
        rw [← typed]
        exact Schema.length_numbers columns.schema 0
      rw [← length]
      exact Arena.numbers_top _
    cursors := columns.cursors_arena 0
    outside := by
      intro address member none
      obtain ⟨id, place, cursor, target, numbered, -, -, has, still⟩ :=
        Nodes.has_arena inPlace 0 member
      obtain ⟨buffer, placement, -, placed, -, -, position, -⟩ := has.placement
      simp [Arena.placement?, numbered, placed, position, still none]
    inside := fun outer inner member innermost => Nodes.inside_arena inPlace 0 member innermost }

end Columnar
