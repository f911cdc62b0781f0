import Columnar.Proofs.Arena.Numbering

/-!
# Columns that an arena holds

An arena holds a column under a number, with what is declared for it: its buffer and its place are
found there, and the buffers of its parts hold the columns one step below. What is below an entry is
written at the cursor of the array, and what is below a column of a tuple at that of the tuple.
-/

namespace Columnar

namespace Arena

/-- Whether an arena holds a column under a number: what is registered for it lies in the arena, and
it is what is declared at a place. -/
structure Has (arena : Arena) (id : Nat) (place : Place) (position : Nat) (appends : Bool)
    (node : Node) : Prop where
  inPlace : node.InPlace place.path place.type
  registered : ∃ around : Around,
    arena = around.holding place.path position appends node ∧ id = around.start + node.type.inner

variable {arena : Arena} {id position : Nat} {path : String} {appends : Bool} {node : Node}

/-- A scalar has its values and no parts. -/
theorem Has.scalar {type : ScalarType}
    (has : arena.Has id ⟨path, .scalar type⟩ position appends node) :
    ∃ values, node = .scalar path values ∧ arena.store.get? id = some (.scalar values) ∧
      arena.placements[id]? = some ⟨path, position, none, appends, []⟩ := by
  obtain ⟨inPlace, around, rfl, rfl⟩ := has
  obtain ⟨values, rfl, -⟩ := inPlace.eq_scalar
  exact ⟨values, rfl, around.get?_holding .., around.placement_holding ..⟩

/-- An array has its entry as the only part. It keeps a cursor, and that is where the entry is
written. -/
theorem Has.entry {element : ColumnType}
    (has : arena.Has id ⟨path, .array element⟩ position appends node) :
    ∃ slots elements entry part cursor, node = .array path slots elements entry ∧
      arena.store.get? id = some (.slots part slots) ∧
      arena.placements[id]? = some ⟨path, position, some cursor, false, [part]⟩ ∧ part < id ∧
      arena.Has part ⟨path, element⟩ cursor element.isScalar entry := by
  obtain ⟨inPlace, around, rfl, rfl⟩ := has
  obtain ⟨slots, elements, entry, rfl, below⟩ := inPlace.eq_array
  obtain rfl := below.type_eq
  exact ⟨slots, elements, entry, around.start + entry.type.inner, around.cursor, rfl,
    around.get?_holding .., around.placement_holding .., Nat.lt_succ_self _, below, _,
    Around.holding_array path appends rfl, rfl⟩

end Arena

/-- The numbers of columns are smaller than the next number. -/
theorem Schema.lt_of_mem_numbers : ∀ (schema : Schema) (start : Nat) {id : Nat},
    id ∈ schema.numbers start → id < start + schema.size
  | .cons name type rest, start, id, member => by
      rw [Schema.size]
      rcases List.mem_cons.mp member with rfl | member
      · omega
      · have later := Schema.lt_of_mem_numbers rest _ member
        omega

/-- The columns of a tuple are held under their numbers. -/
theorem Nodes.has_holdingEach : ∀ {schema : Schema} {columns : Nodes} (around : Around)
    {parent : String} (position : Nat) {sought : Nat} {column : Column},
    columns.InPlace parent schema → schema.get? sought = some column →
    ∃ part child, (schema.numbers around.start)[sought]? = some part ∧
      columns.get? (.position sought) = some child ∧
      (around.holdingEach parent position columns).Has part
        ⟨childPath parent column.name, column.type⟩ position false child
  | .cons name type rest, .cons own node others, around, parent, position, 0, column,
      ⟨same, inNode, _⟩, found => by
      obtain rfl := same
      obtain rfl := Option.some.inj found
      obtain rfl := inNode.type_eq
      exact ⟨_, node, rfl, rfl, inNode, _, Around.holdingEach_first rfl, rfl⟩
  | .cons name type rest, .cons own node others, around, parent, position, sought + 1, column,
      ⟨_, inNode, inOthers⟩, found => by
      obtain ⟨part, child, numbered, present, has⟩ := Nodes.has_holdingEach
        (around.afterFirst parent own position node) position inOthers found
      rw [Around.start_afterFirst, inNode.type_eq] at numbered
      rw [← Around.holdingEach_rest] at has
      exact ⟨part, child, numbered, present, has⟩

namespace Arena

variable {arena : Arena} {id position : Nat} {path : String} {appends : Bool} {node : Node}

/-- A tuple has its columns as parts, and they are written where it is. -/
theorem Has.columns {schema : Schema}
    (has : arena.Has id ⟨path, .tuple schema⟩ position appends node) :
    ∃ count columns parts, node = .tuple path count columns ∧
      arena.store.get? id = some (.group schema.names parts count) ∧
      arena.placements[id]? = some ⟨path, position, none, false, parts⟩ ∧
      (∀ part ∈ parts, part < id) ∧ parts.length = schema.length ∧
      ∀ sought column, schema.get? sought = some column → ∃ part child,
        parts[sought]? = some part ∧ columns.get? (.position sought) = some child ∧
        arena.Has part ⟨childPath path column.name, column.type⟩ position false child := by
  obtain ⟨inPlace, around, rfl, rfl⟩ := has
  obtain ⟨count, columns, rfl, below⟩ := inPlace.eq_tuple
  obtain rfl := below.schema_eq
  refine ⟨count, columns, _, rfl, around.get?_holding .., around.placement_holding ..,
    fun part member => Schema.lt_of_mem_numbers _ _ member, Schema.length_numbers _ _, ?_⟩
  intro sought column found
  rw [Around.holding_tuple _ _ rfl]
  exact Nodes.has_holdingEach (around.inTuple path position count _) position below found

end Arena

/-! ### Along an address -/

/-- Whether a step names the column that it leads to. -/
def Step.isNamed : Step → Bool
  | .column (.name _) => true
  | _ => false

/-- Whether what a step leads to takes an element with every value: a scalar that is the entry of an
array. -/
def Step.appends (type : ColumnType) : Step → Bool
  | .entry => type.isScalar
  | .column _ => false

namespace Store

variable {store : Store}

theorem follow_append (first second : List Step) (id : Nat) :
    store.follow id (first ++ second) =
      (store.follow id first).bind fun part => store.follow part second := by
  induction first generalizing id with
  | nil => rfl
  | cons step rest inductionHypothesis =>
    simp only [List.cons_append, follow]
    cases store.get? id with
    | none => rfl
    | some buffer =>
      cases found : buffer.part? step with
      | none => simp [found]
      | some part => simpa [found] using inductionHypothesis part

theorem followFrom_append {first : List Step} (further : first ≠ []) (second : List Step)
    (ids : List Nat) :
    store.followFrom ids (first ++ second) =
      (store.followFrom ids first).bind fun part => store.follow part second := by
  cases first with
  | nil => exact absurd rfl further
  | cons step rest =>
    cases step with
    | entry => rfl
    | column index =>
      cases index with
      | name _ => rfl
      | position sought =>
        simp only [List.cons_append, followFrom]
        cases ids[sought]? with
        | none => rfl
        | some id => exact follow_append rest second id

end Store

namespace Schema

theorem lookup_position (schema : Schema) (sought : Nat) :
    schema.lookup (.position sought) = schema.column sought := by
  cases found : schema.get? sought with
  | none => simp [lookup, position, column, found, bind, Except.bind, Except.map]
  | some column => simp [lookup, position, Schema.column, found, bind, Except.bind, Except.map]

end Schema

namespace Place

/-- A step without a name leads into an array, or to a column of a tuple by its position. -/
theorem child_cases {place below : Place} {step : Step} (leads : place.child step = .ok below)
    (direct : step.isNamed = false) :
    (∃ path element, place = ⟨path, .array element⟩ ∧ step = .entry ∧ below = ⟨path, element⟩) ∨
    ∃ path schema sought column, place = ⟨path, .tuple schema⟩ ∧
      step = .column (.position sought) ∧ schema.get? sought = some column ∧
      below = ⟨childPath path column.name, column.type⟩ := by
  obtain ⟨path, type⟩ := place
  cases step with
  | entry =>
    cases type with
    | array element => exact .inl ⟨path, element, rfl, rfl, (Except.ok.inj leads).symm⟩
    | scalar _ => cases leads
    | tuple _ => cases leads
  | column index =>
    cases index with
    | name _ => cases direct
    | position sought =>
      cases type with
      | scalar _ => cases leads
      | array _ => cases leads
      | tuple schema =>
        rw [child, Schema.lookup_position, Schema.column] at leads
        cases found : schema.get? sought with
        | none =>
          rw [found] at leads
          cases leads
        | some column =>
          rw [found] at leads
          exact .inr ⟨path, schema, sought, column, rfl, rfl, found, (Except.ok.inj leads).symm⟩

/-- Whether a place lies at the end of an address without names. -/
def Lies (place : Place) (address : List Step) : Prop :=
  (∀ step ∈ address, step.isNamed = false) ∧ ∃ below, place.find address = .ok below

theorem lies_nil (place : Place) : place.Lies [] :=
  ⟨nofun, place, rfl⟩

theorem lies_entry {path : String} {element : ColumnType} {rest : List Step} :
    (Place.mk path (.array element)).Lies (.entry :: rest) ↔ (Place.mk path element).Lies rest := by
  rw [Lies, Lies, List.forall_mem_cons]
  exact and_congr_left' (and_iff_right rfl)

theorem lies_column {path : String} {schema : Schema} {sought : Nat} {rest : List Step} :
    (Place.mk path (.tuple schema)).Lies (.column (.position sought) :: rest) ↔
      ∃ column, schema.get? sought = some column ∧
        (Place.mk (childPath path column.name) column.type).Lies rest := by
  rw [Lies, List.forall_mem_cons, find, child, Schema.lookup_position, Schema.column]
  cases found : schema.get? sought with
  | none => simp [Except.map, bind, Except.bind]
  | some column =>
    simp [Lies, Except.map, bind, Except.bind, Step.isNamed]

/-- A step that is not of its kind leads nowhere. -/
theorem not_lies {place : Place} {step : Step} {rest : List Step} {mismatch : Mismatch}
    (refused : place.child step = .error mismatch) : ¬place.Lies (step :: rest) := by
  rintro ⟨-, below, leads⟩
  rw [find, refused] at leads
  cases leads

end Place

mutual

/-- The addresses of a column are those that lead to a place. -/
theorem ColumnType.mem_addresses_iff : ∀ (type : ColumnType) (path : String) (address : List Step),
    address ∈ type.addresses ↔ (Place.mk path type).Lies address
  | .scalar _, _, [] => iff_of_true List.mem_cons_self (Place.lies_nil _)
  | .scalar _, _, step :: rest =>
      iff_of_false (by simp [ColumnType.addresses]) (by cases step <;> exact Place.not_lies rfl)
  | .array _, _, [] => iff_of_true (by simp [ColumnType.addresses]) (Place.lies_nil _)
  | .array element, path, .entry :: rest => by
      rw [Place.lies_entry, ← ColumnType.mem_addresses_iff element path rest]
      simp [ColumnType.addresses]
  | .array _, _, .column _ :: rest =>
      iff_of_false (by simp [ColumnType.addresses]) (Place.not_lies rfl)
  | .tuple _, _, [] => iff_of_true (by simp [ColumnType.addresses]) (Place.lies_nil _)
  | .tuple columns, path, step :: rest => by
      have below := Schema.mem_addressesFrom_iff columns path 0 (step :: rest)
      have inside : step :: rest ∈ (ColumnType.tuple columns).addresses ↔
          step :: rest ∈ columns.addressesFrom 0 := by
        simp [ColumnType.addresses]
      rw [inside, below]
      cases step with
      | entry => exact iff_of_false (by simp) (Place.not_lies rfl)
      | column index =>
        cases index with
        | name _ =>
          exact iff_of_false (by simp) fun ⟨direct, _⟩ => nomatch direct _ List.mem_cons_self
        | position sought =>
          rw [Place.lies_column]
          simp

/-- The addresses of columns, the first of which has a given position, are those that lead to a
place from a tuple that has them behind other columns. -/
theorem Schema.mem_addressesFrom_iff : ∀ (schema : Schema) (path : String) (first : Nat)
    (address : List Step),
    address ∈ schema.addressesFrom first ↔ ∃ sought column rest,
      address = .column (.position (first + sought)) :: rest ∧ schema.get? sought = some column ∧
        (Place.mk (childPath path column.name) column.type).Lies rest
  | .nil, path, first, address => ⟨nofun, nofun⟩
  | .cons name type others, path, first, address => by
      have here := ColumnType.mem_addresses_iff type (childPath path name)
      have later := Schema.mem_addressesFrom_iff others path (first + 1) address
      rw [Schema.addressesFrom, List.mem_append, List.mem_map, later]
      constructor
      · rintro (⟨rest, member, rfl⟩ | ⟨sought, column, rest, rfl, found, lies⟩)
        · exact ⟨0, ⟨name, type⟩, rest, rfl, rfl, (here rest).mp member⟩
        · exact ⟨sought + 1, column, rest, by rw [Nat.add_assoc, Nat.add_comm 1], found, lies⟩
      · rintro ⟨sought, column, rest, rfl, found, lies⟩
        cases sought with
        | zero =>
          obtain rfl := Option.some.inj found
          exact .inl ⟨rest, (here rest).mpr lies, rfl⟩
        | succ sought =>
          exact .inr ⟨sought, column, rest, by rw [Nat.add_assoc, Nat.add_comm 1], found, lies⟩

end

/-- The addresses in a schema are those that lead to a place below the row. -/
theorem Schema.mem_addresses_iff (schema : Schema) (address : List Step) :
    address ∈ schema.addresses ↔ address ≠ [] ∧ (Place.ofSchema schema).Lies address := by
  rw [Place.ofSchema, ← ColumnType.mem_addresses_iff, ColumnType.addresses, List.mem_append,
    List.mem_singleton]
  constructor
  · intro member
    refine ⟨?_, .inl member⟩
    rintro rfl
    exact Schema.nil_notMem_addressesFrom schema 0 member
  · rintro ⟨further, member | none⟩
    · exact member
    · exact absurd none further

/-- A path through a column of a tuple goes on in it. -/
theorem Node.find_column {path : String} {count : Nat} {columns : Nodes} {index : ColumnIndex}
    {child : Node} (present : columns.get? index = some child) (rest : List Step) :
    (Node.tuple path count columns).find (.column index :: rest) = child.find rest := by
  simp only [find, Node.child, column, asTuple, bind, Except.bind, present, pure, Except.pure]

namespace Arena

variable {arena : Arena} {id position : Nat} {appends : Bool} {node : Node} {place below : Place}

/-- Only the last step of an address tells what takes elements. -/
private theorem getLast?_appends {middle : Place} (step : Step) {rest : List Step}
    (leads : middle.find rest = .ok below) (appends : Bool) :
    (rest.getLast?.map (Step.appends below.type)).getD (step.appends middle.type) =
      (((step :: rest).getLast?).map (Step.appends below.type)).getD appends := by
  rw [List.getLast?_cons]
  cases rest with
  | nil =>
    cases leads
    rfl
  | cons next rest => simp [List.getLast?_cons]

/-- An arena holds a column at the end of every address that leads to a place. It is written where
the address begins unless there is an array on the way, and it takes elements if it is a scalar
entry. -/
theorem Has.follow (has : arena.Has id place position appends node) {address : List Step}
    (leads : place.find address = .ok below) (direct : ∀ step ∈ address, step.isNamed = false) :
    ∃ part cursor target, arena.store.follow id address = some part ∧
      node.find address = .ok target ∧
      arena.Has part below cursor ((address.getLast?.map (Step.appends below.type)).getD appends)
        target ∧
      (.entry ∉ address → cursor = position) := by
  induction address generalizing id place position appends node with
  | nil =>
    cases leads
    exact ⟨id, position, node, rfl, rfl, has, fun _ => rfl⟩
  | cons step rest inductionHypothesis =>
    obtain ⟨middle, first, leads⟩ := bind_ok_iff.mp leads
    obtain ⟨direct, later⟩ := List.forall_mem_cons.mp direct
    have last := getLast?_appends step leads appends
    rcases Place.child_cases first direct with
      ⟨path, element, rfl, rfl, rfl⟩ | ⟨path, schema, sought, column, rfl, rfl, found, rfl⟩
    · obtain ⟨slots, elements, entry, part, cursor, rfl, stored, -, -, below⟩ := has.entry
      obtain ⟨reached, there, target, followed, present, held, still⟩ :=
        inductionHypothesis below leads later
      refine ⟨reached, there, target, ?_, present, last ▸ held,
        fun none => absurd List.mem_cons_self none⟩
      rw [Store.follow_slots stored, followed]
    · obtain ⟨count, columns, parts, rfl, stored, -, -, -, below⟩ := has.columns
      obtain ⟨part, child, numbered, present, below⟩ := below sought column found
      obtain ⟨reached, there, target, followed, further, held, still⟩ :=
        inductionHypothesis below leads later
      refine ⟨reached, there, target, ?_, ?_, last ▸ held,
        fun none => still fun member => none (.tail _ member)⟩
      · rw [Store.follow_group stored (by simp), Store.followFrom, numbered]
        exact followed
      · rw [Node.find_column present]
        exact further

end Arena

/-- The arena of columns holds a column at every address in the schema. -/
theorem Nodes.has_arena {schema : Schema} {columns : Nodes} (inPlace : columns.InPlace "" schema)
    (row : Nat) {address : List Step} (member : address ∈ schema.addresses) :
    ∃ id place cursor target, (columns.arena row).number? address = some id ∧
      (Place.ofSchema schema).find address = .ok place ∧
      (Node.tuple "" row columns).find address = .ok target ∧
      (columns.arena row).Has id place cursor
        ((address.getLast?.map (Step.appends place.type)).getD false) target ∧
      (.entry ∉ address → cursor = Layout.rowCursor) := by
  obtain ⟨further, direct, place, leads⟩ := (schema.mem_addresses_iff address).mp member
  cases address with
  | nil => exact absurd rfl further
  | cons step rest =>
    obtain ⟨middle, first, onward⟩ := bind_ok_iff.mp leads
    obtain ⟨direct, later⟩ := List.forall_mem_cons.mp direct
    have last := Arena.getLast?_appends step onward false
    rcases Place.child_cases first direct with
      ⟨path, element, array, -, -⟩ | ⟨path, inner, sought, column, tuple, rfl, found, rfl⟩
    · cases array
    · cases tuple
      obtain rfl := inPlace.schema_eq
      obtain ⟨part, child, numbered, present, has⟩ := Nodes.has_holdingEach
        (Around.row columns.schema row) Layout.rowCursor inPlace found
      obtain ⟨id, cursor, target, followed, further, held, still⟩ := has.follow onward later
      refine ⟨id, place, cursor, target, ?_, leads, ?_, last ▸ held,
        fun none => still fun member => none (.tail _ member)⟩
      · have top : (columns.arena row).top[sought]? = some part := numbered
        rw [Arena.number?, Store.followFrom, top]
        exact followed
      · rw [Node.find_column present]
        exact further

end Columnar
