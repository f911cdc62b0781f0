import Columnar.Proofs.Arena.Walks

/-!
# Freezing in an arena

Freezing walks from a buffer to all below it, the whole before its parts. It comes to an end, gives
the data of the column, and leaves it empty.
-/

namespace Columnar

mutual

@[simp] theorem Node.type_reset : ∀ node : Node, node.reset.type = node.type
  | .scalar _ values => by cases values <;> rfl
  | .array _ _ _ entry => congrArg ColumnType.array (Node.type_reset entry)
  | .tuple _ _ columns => congrArg ColumnType.tuple (Nodes.schema_reset columns)

@[simp] theorem Nodes.schema_reset : ∀ columns : Nodes, columns.reset.schema = columns.schema
  | .nil => rfl
  | .cons name node rest => by
      rw [Nodes.reset, Nodes.schema, Node.type_reset node, Nodes.schema_reset rest, Nodes.schema]

end

theorem Nodes.names_schema : ∀ columns : Nodes, columns.schema.names = columns.names
  | .nil => rfl
  | .cons name _ rest => congrArg (name :: ·) (Nodes.names_schema rest)

namespace Store

variable {store after : Store} {id depth : Nat} {buffer : Buffer} {visited : List Nat}

/-- A buffer is frozen with the data of its parts. -/
theorem freezeVisiting_ok {parts : List ColumnData} (found : store.get? id = some buffer)
    (frozen : freezeEachVisiting (freezeVisiting depth) store buffer.children =
      ((after, .ok parts), visited)) {still : Buffer} (kept : after.get? id = some still) :
    freezeVisiting (depth + 1) store id =
      ((after.replace id (still.freeze parts).1, (still.freeze parts).2), id :: visited) := by
  simp only [freezeVisiting, found, frozen, freezeOne, kept]

/-- A buffer is not frozen if one of its parts is not. -/
theorem freezeVisiting_error {error : AssemblyError} (found : store.get? id = some buffer)
    (failed : freezeEachVisiting (freezeVisiting depth) store buffer.children =
      ((after, .error error), visited)) :
    freezeVisiting (depth + 1) store id = ((after, .error error), id :: visited) := by
  simp only [freezeVisiting, found, failed]

/-- Freezing one after the other fails as the first does. -/
theorem freezeEachVisiting_error
    {freeze : Store → Nat → (Store × Except AssemblyError ColumnData) × List Nat} {rest : List Nat}
    {error : AssemblyError} (failed : freeze store id = ((after, .error error), visited)) :
    freezeEachVisiting freeze store (id :: rest) = ((after, .error error), visited) := by
  simp only [freezeEachVisiting, failed]

/-- Freezing one after the other goes on behind the first. -/
theorem freezeEachVisiting_ok
    {freeze : Store → Nat → (Store × Except AssemblyError ColumnData) × List Nat}
    (rest : List Nat) {data : ColumnData}
    (frozen : freeze store id = ((after, .ok data), visited)) {last : Store}
    {result : Except AssemblyError (List ColumnData)} {others : List Nat}
    (later : freezeEachVisiting freeze after rest = ((last, result), others)) :
    freezeEachVisiting freeze store (id :: rest) =
      ((last, result.map (data :: ·)), visited ++ others) := by
  cases result <;> simp only [freezeEachVisiting, frozen, later, Except.map]

end Store

/-- Where freezing ends if it may go deep enough: in a store, with data or an error, after it came
to some numbers. With data, it came to all of them, and the store is what it should be. -/
structure Freezes {Data : Type} (freeze : Nat → (Store × Except AssemblyError Data) × List Nat)
    (enough : Nat → Prop) (all : List Nat) (emptied : Store) (result : Except AssemblyError Data)
    (after : Store) (visited : List Nat) : Prop where
  comes : ComesTo all visited (∃ data, result = .ok data)
  empties : ∀ data, result = .ok data → after = emptied
  ends : ∀ depth, enough depth → freeze depth = ((after, result), visited)

/-- Freezing puts an emptied buffer in the place of that of a column. -/
theorem Around.replace_holding (around : Around) (path : String) (position : Nat) (appends : Bool)
    (node other : Node) (type : other.type = node.type)
    (inner : other.innerBuffers around.start = node.innerBuffers around.start)
    (counts : other.counts = node.counts) :
    (around.holding path position appends node).store.replace (around.start + node.type.inner)
        (other.buffer around.start) =
      (around.holding path position appends other).store :=
  congrArg Arena.store (around.put_holding path position appends node other type inner counts)

mutual

/-- Freezing in the arena gives the data of the column, and leaves it empty. -/
theorem Node.freezeVisiting_holding : ∀ (node : Node) (around : Around) (path : String)
    (position : Nat) (appends : Bool), ∃ after visited,
    Freezes (fun depth => Store.freezeVisiting depth
        (around.holding path position appends node).store (around.start + node.type.inner))
      (node.type.inner < ·) (node.type.visits around.start)
      (around.holding path position appends node.reset).store node.data? after visited
  | .scalar own values, around, path, position, appends => by
      have emptied := around.replace_holding path position appends (.scalar own values)
        (.scalar own values.reset) (Node.type_reset (.scalar own values)) rfl rfl
      refine ⟨_, [around.start], .all _ _, fun _ _ => rfl, fun depth deeper => ?_⟩
      obtain ⟨depth, rfl⟩ := Nat.exists_eq_succ_of_ne_zero (Nat.ne_zero_of_lt deeper)
      have found := around.get?_holding path position appends (.scalar own values)
      refine (Store.freezeVisiting_ok found rfl found).trans ?_
      exact congrArg (fun store => ((store, _), _)) emptied
  | .array own slots elements entry, around, path, position, appends => by
      obtain ⟨after, visited, comes, empties, ends⟩ := Node.freezeVisiting_holding entry
        (around.inArray path position slots elements entry.type) path around.cursor
        entry.type.isScalar
      have emptied := around.replace_holding path position appends
        (.array own slots elements entry.reset)
        (.array own slots.reset elements entry.reset) rfl rfl rfl
      rw [← Around.holding_array own appends entry.type_reset]
        at empties
      rw [← Around.holding_array own appends rfl] at ends
      have found := around.get?_holding path position appends (.array own slots elements entry)
      cases result : entry.data? with
      | error error =>
        have data : (Node.array own slots elements entry).data? = .error error := by
          rw [Node.data?, result]
          rfl
        rw [result] at comes ends
        rw [data]
        refine ⟨after, _, comes.visiting _, nofun, fun depth deeper => ?_⟩
        obtain ⟨depth, rfl⟩ := Nat.exists_eq_succ_of_ne_zero (Nat.ne_zero_of_lt deeper)
        exact Store.freezeVisiting_error found
          (Store.freezeEachVisiting_error (ends depth (Nat.lt_of_succ_lt_succ deeper)))
      | ok items =>
        have data : (Node.array own slots elements entry).data? =
            ColumnData.ofItems? slots.offsets items := by
          rw [Node.data?, result]
          rfl
        have kept := around.get?_holding path position appends
          (.array own slots elements entry.reset)
        simp only [Node.type, Node.type_reset, Node.buffer] at emptied kept
        obtain rfl := empties items result
        obtain rfl := comes.toAll ⟨items, result⟩
        rw [result] at ends
        rw [data]
        refine ⟨_, _, (ComesTo.all _ _).visiting _, fun _ _ => emptied, fun depth deeper => ?_⟩
        obtain ⟨depth, rfl⟩ := Nat.exists_eq_succ_of_ne_zero (Nat.ne_zero_of_lt deeper)
        have parts := Store.freezeEachVisiting_ok []
          (ends depth (Nat.lt_of_succ_lt_succ deeper)) rfl
        rw [List.append_nil] at parts
        exact Store.freezeVisiting_ok found parts kept
  | .tuple own shared columns, around, path, position, appends => by
      obtain ⟨after, visited, comes, empties, ends⟩ := Nodes.freezeEach_holding columns
        (around.inTuple path position shared columns.schema) path position
      have emptied := around.replace_holding path position appends
        (.tuple own shared columns.reset)
        (.tuple own 0 columns.reset) rfl rfl rfl
      rw [← Around.holding_tuple own appends columns.schema_reset]
        at empties
      rw [← Around.holding_tuple own appends rfl] at ends
      have found := around.get?_holding path position appends (.tuple own shared columns)
      cases result : columns.datas? with
      | error error =>
        have data : (Node.tuple own shared columns).data? = .error error := by
          rw [Node.data?, result]
          rfl
        rw [result] at comes ends
        rw [data]
        refine ⟨after, _, ComesTo.visiting ⟨comes.inOrder, nofun⟩ _, nofun, fun depth deeper => ?_⟩
        obtain ⟨depth, rfl⟩ := Nat.exists_eq_succ_of_ne_zero (Nat.ne_zero_of_lt deeper)
        exact Store.freezeVisiting_error found (ends depth (Nat.le_of_lt_succ deeper))
      | ok datas =>
        have data : (Node.tuple own shared columns).data? =
            ColumnData.ofColumns? columns.schema.names datas := by
          rw [Node.data?, result, Nodes.names_schema]
          rfl
        have kept := around.get?_holding path position appends (.tuple own shared columns.reset)
        simp only [Node.type, Nodes.schema_reset, Node.buffer] at emptied kept
        obtain rfl := empties datas result
        obtain rfl := comes.toAll ⟨datas, result⟩
        rw [result] at ends
        rw [data]
        refine ⟨_, _, (ComesTo.all _ _).visiting _, fun _ _ => emptied, fun depth deeper => ?_⟩
        obtain ⟨depth, rfl⟩ := Nat.exists_eq_succ_of_ne_zero (Nat.ne_zero_of_lt deeper)
        exact Store.freezeVisiting_ok found (ends depth (Nat.le_of_lt_succ deeper)) kept

/-- Freezing in the arena gives the data of the columns, and leaves them empty. -/
theorem Nodes.freezeEach_holding : ∀ (columns : Nodes) (around : Around) (parent : String)
    (position : Nat), ∃ after visited,
    Freezes (fun depth => Store.freezeEachVisiting (Store.freezeVisiting depth)
        (around.holdingEach parent position columns).store (columns.schema.numbers around.start))
      (columns.schema.size ≤ ·) (columns.schema.visits around.start)
      (around.holdingEach parent position columns.reset).store columns.datas? after visited
  | .nil, _, _, _ => ⟨_, [], .all _ _, fun _ _ => rfl, fun _ _ => rfl⟩
  | .cons name node rest, around, parent, position => by
      obtain ⟨after, visited, comes, empties, ends⟩ := Node.freezeVisiting_holding node
        (around.beforeRest parent position node.type rest) (childPath parent name) position false
      obtain ⟨last, others, comesLater, emptiesLater, endsLater⟩ := Nodes.freezeEach_holding rest
        (around.afterFirst parent name position node.reset) parent position
      rw [← Around.holdingEach_first node.type_reset] at empties
      rw [← Around.holdingEach_first rfl] at ends
      rw [Around.start_afterFirst, Node.type_reset] at comesLater endsLater
      rw [← Around.holdingEach_rest] at emptiesLater
      cases result : node.data? with
      | error error =>
        have datas : (Nodes.cons name node rest).datas? = .error error := by
          rw [Nodes.datas?, result]
          rfl
        rw [result] at comes ends
        rw [datas]
        refine ⟨after, visited, comes.stopped _ (by simp), nofun, fun depth deeper => ?_⟩
        have enough : node.type.inner + 1 + rest.schema.size ≤ depth := deeper
        exact Store.freezeEachVisiting_error (ends depth (by omega))
      | ok data =>
        have datas : (Nodes.cons name node rest).datas? = rest.datas?.map (data :: ·) := by
          rw [Nodes.datas?, result]
          rfl
        have later : ∀ all, (Nodes.cons name node rest).datas? = .ok all →
            ∃ behind, rest.datas? = .ok behind := by
          intro all done
          obtain ⟨_, _, done⟩ := bind_ok_iff.mp done
          obtain ⟨behind, others, _⟩ := bind_ok_iff.mp done
          exact ⟨behind, others⟩
        obtain rfl := empties data result
        obtain rfl := comes.toAll ⟨data, result⟩
        rw [result] at ends
        have goesOn := comesLater.append (node.type.visits around.start)
        refine ⟨last, _, ⟨goesOn.inOrder, ?_⟩, ?_, fun depth deeper => ?_⟩
        · rintro ⟨all, done⟩
          exact goesOn.toAll (later all done)
        · intro all done
          obtain ⟨behind, others⟩ := later all done
          exact emptiesLater behind others
        · have enough : node.type.inner + 1 + rest.schema.size ≤ depth := deeper
          rw [datas]
          have behind := endsLater depth (by omega)
          rw [← Around.holdingEach_rest] at behind
          exact Store.freezeEachVisiting_ok _ (ends depth (by omega)) behind

end

/-! ### The numbers come to are only told -/

namespace Store

/-- Freezing one after the other does the same whether or not the numbers are told. -/
theorem fst_freezeEachVisiting
    {freeze : Store → Nat → Store × Except AssemblyError ColumnData}
    {visiting : Store → Nat → (Store × Except AssemblyError ColumnData) × List Nat}
    (same : ∀ store id, (visiting store id).1 = freeze store id) (store : Store) (ids : List Nat) :
    (freezeEachVisiting visiting store ids).1 = freezeEach freeze store ids := by
  induction ids generalizing store with
  | nil => rfl
  | cons id rest inductionHypothesis =>
    have first := same store id
    rw [freezeEachVisiting, freezeEach, ← first]
    generalize visiting store id = outcome
    obtain ⟨⟨after, error | data⟩, visited⟩ := outcome
    · rfl
    · have others := inductionHypothesis after
      simp only [← others]
      generalize freezeEachVisiting visiting after rest = outcome
      obtain ⟨⟨last, error | datas⟩, others⟩ := outcome <;> rfl

/-- Freezing does the same whether or not the numbers that it comes to are told. -/
theorem fst_freezeVisiting (depth : Nat) (store : Store) (id : Nat) :
    (freezeVisiting depth store id).1 = store.freezeWithin depth id := by
  induction depth generalizing store id with
  | zero => rfl
  | succ depth inductionHypothesis =>
    rw [freezeVisiting, freezeWithin]
    cases store.get? id with
    | none => rfl
    | some buffer =>
      have below := fst_freezeEachVisiting inductionHypothesis store buffer.children
      simp only [← below]
      generalize freezeEachVisiting (freezeVisiting depth) store buffer.children = outcome
      obtain ⟨⟨after, error | parts⟩, visited⟩ := outcome <;> rfl

end Store

/-! ### Columns always name parts that are there -/

/-- Whether an error is that of a number that no buffer has. -/
def AssemblyError.isUnresolved : AssemblyError → Bool
  | .unresolved _ => true
  | _ => false

private theorem resolved_bind {α β : Type} {first : Except AssemblyError α}
    {next : α → Except AssemblyError β}
    (resolved : ∀ error, first = .error error → error.isUnresolved = false)
    (onward : ∀ middle error, next middle = .error error → error.isUnresolved = false)
    (error : AssemblyError) (failed : first >>= next = .error error) :
    error.isUnresolved = false := by
  cases first with
  | error cause =>
    obtain rfl := Except.error.inj failed
    exact resolved _ rfl
  | ok middle => exact onward middle error failed

private theorem resolved_ofItems? (offsets : Array Nat) (items : ColumnData) (error : AssemblyError)
    (failed : ColumnData.ofItems? offsets items = .error error) : error.isUnresolved = false := by
  unfold ColumnData.ofItems? at failed
  dsimp only at failed
  split at failed
  · obtain rfl := Except.error.inj failed
    rfl
  · split at failed
    · obtain rfl := Except.error.inj failed
      rfl
    · cases failed

private theorem resolved_ofColumns? (names : List String) (columns : List ColumnData)
    (error : AssemblyError) (failed : ColumnData.ofColumns? names columns = .error error) :
    error.isUnresolved = false := by
  unfold ColumnData.ofColumns? at failed
  dsimp only at failed
  split at failed
  · split at failed
    · obtain rfl := Except.error.inj failed
      rfl
    · cases failed
  · obtain rfl := Except.error.inj failed
    rfl

private theorem resolved_map {α β : Type} {result : Except AssemblyError α} (make : α → β)
    (resolved : ∀ error, result = .error error → error.isUnresolved = false)
    (error : AssemblyError) (failed : result.map make = .error error) :
    error.isUnresolved = false := by
  cases result with
  | error cause =>
    obtain rfl := Except.error.inj failed
    exact resolved _ rfl
  | ok _ => cases failed

private theorem resolved_toBytes? (strings : ByteStrings) (error : AssemblyError)
    (failed : strings.toBytes? = .error error) : error.isUnresolved = false := by
  unfold ByteStrings.toBytes? at failed
  split at failed
  · obtain rfl := Except.error.inj failed
    rfl
  · split at failed
    · obtain rfl := Except.error.inj failed
      rfl
    · cases failed

private theorem resolved_toTexts? (strings : ByteStrings) (error : AssemblyError)
    (failed : strings.toTexts? = .error error) : error.isUnresolved = false := by
  unfold ByteStrings.toTexts? at failed
  split at failed
  · obtain rfl := Except.error.inj failed
    rfl
  split at failed
  · obtain rfl := Except.error.inj failed
    rfl
  split at failed
  · obtain rfl := Except.error.inj failed
    split <;> rfl
  split at failed
  · cases failed
  · obtain rfl := Except.error.inj failed
    rfl

private theorem resolved_toLeaf? (values : ScalarBuffer) (error : AssemblyError)
    (failed : values.toLeaf?.map ColumnData.leaf = .error error) : error.isUnresolved = false := by
  refine resolved_map ColumnData.leaf ?_ error failed
  cases values with
  | string strings => exact resolved_map Leaf.string (resolved_toTexts? strings)
  | bytes strings => exact resolved_map Leaf.bytes (resolved_toBytes? strings)
  | _ => exact nofun

mutual

/-- A column that does not give its data fails for what is stored in it. -/
theorem Node.resolved_data? : ∀ (node : Node) (error : AssemblyError),
    node.data? = .error error → error.isUnresolved = false
  | .scalar _ values => resolved_toLeaf? values
  | .array _ slots _ entry =>
      resolved_bind (Node.resolved_data? entry) fun items => resolved_ofItems? slots.offsets items
  | .tuple _ _ columns =>
      resolved_bind (Nodes.resolved_datas? columns) fun datas =>
        resolved_ofColumns? columns.names datas

/-- Columns that do not give their data fail for what is stored in them. -/
theorem Nodes.resolved_datas? : ∀ (columns : Nodes) (error : AssemblyError),
    columns.datas? = .error error → error.isUnresolved = false
  | .nil => nofun
  | .cons _ node rest =>
      resolved_bind (Node.resolved_data? node) fun _ =>
        resolved_bind (Nodes.resolved_datas? rest) nofun

end

end Columnar
