import Columnar.Proofs.Draft.Lifetime

/-!
# Resource bounds

No buffer of a draft ever has more bytes than it may, however its values were written, replaced,
padded and cut; only the one offset that every buffer of offsets begins with is not measured. And
every offset is one that a signed 32-bit integer can tell, so it is read back as it was stored.
-/

namespace Columnar

/-- What an offset is read back as: it is stored as a signed 32-bit integer, and read as an index of
64 bits. -/
def readBack (offset : Nat) : Nat :=
  (Int32.ofNat offset).toInt64.toUInt64.toNat

/-- Whether an offset is stored as it is: what is stored is not negative, and is read back
unchanged. -/
def StoredExactly (offset : Nat) : Prop :=
  0 ≤ Int32.ofNat offset ∧ readBack offset = offset

theorem storedExactly_of_le {offset : Nat} (small : offset ≤ maxOffset) : StoredExactly offset := by
  unfold maxOffset at small
  constructor
  · rw [Int32.le_iff_toInt_le, Int32.toInt_ofNat_of_lt (by omega)]
    exact Int.natCast_nonneg offset
  · have within : (offset : Int) ≤ Int32.maxValue.toInt := by
      rw [Int32.toInt_maxValue]
      omega
    rw [readBack, Int32.toInt64_ofNat' within, Int64.toUInt64_ofNat', UInt64.toNat_ofNat_of_lt']
    unfold UInt64.size
    omega

/-! ### Buffers -/

/-- The offsets stored in the buffer of a scalar column. -/
def ScalarBuffer.offsets : ScalarBuffer → List Nat
  | .string strings | .bytes strings => strings.offsets.toList
  | _ => []

private theorem bytes_offsets {limit : Nat} {sizes : List Nat}
    (fits : sizes = [] ∨ offsetsFit limit sizes.length sizes.sum) :
    (sizes.length + 1) * offsetBytes ≤ max limit 4 ∧
      ∀ offset ∈ offsetsOf sizes, StoredExactly offset := by
  have measured : (sizes.length + 1) * offsetBytes ≤ max limit 4 ∧ sizes.sum ≤ maxOffset := by
    rcases fits with rfl | ⟨offsets, small⟩
    · exact ⟨Nat.le_max_right _ _, Nat.zero_le _⟩
    · exact ⟨Nat.le_trans offsets (Nat.le_max_left _ _), small⟩
  refine ⟨measured.1, ?_⟩
  intro offset member
  exact storedExactly_of_le (Nat.le_trans (le_sum_of_mem_offsetsOf member) measured.2)

private theorem bytes_strings {limit capacity : Nat} {values : List ByteArray}
    (fits : values = [] ∨ stringsFit limit values) :
    (ByteStrings.ofList capacity values).bytes ≤ max limit 4 ∧
      ∀ offset ∈ (ByteStrings.ofList capacity values).offsets.toList, StoredExactly offset := by
  have data : (values.map ByteArray.size).sum ≤ max limit 4 := by
    rcases fits with rfl | ⟨_, data⟩
    · exact Nat.zero_le _
    · exact Nat.le_trans data (Nat.le_max_left _ _)
  have offsets : values.map ByteArray.size = [] ∨
      offsetsFit limit (values.map ByteArray.size).length (values.map ByteArray.size).sum := by
    rcases fits with rfl | ⟨offsets, _⟩
    · exact .inl rfl
    · rw [List.length_map]
      exact .inr offsets
  obtain ⟨bytes, stored⟩ := bytes_offsets offsets
  refine ⟨?_, stored⟩
  simp only [ByteStrings.bytes, ByteStrings.ofList, size_joined, List.size_toArray,
    length_offsetsOf]
  exact Nat.max_le.mpr ⟨data, bytes⟩

private theorem bytes_scalars {limit capacity : Nat} {type : ScalarType} {values : List Scalar}
    (fits : values = [] ∨ type.Fits limit values) :
    (ScalarBuffer.ofScalars type capacity values).usedBytes ≤ max limit 4 ∧
      ∀ offset ∈ (ScalarBuffer.ofScalars type capacity values).offsets, StoredExactly offset := by
  have strings : ∀ read : Scalar → ByteArray,
      values = [] ∨ stringsFit limit (values.map read) →
        values.map read = [] ∨ stringsFit limit (values.map read) :=
    fun read => Or.imp_left List.map_eq_nil_iff.mpr
  cases type with
  | string => exact bytes_strings (strings _ fits)
  | bytes => exact bytes_strings (strings _ fits)
  | _ =>
    constructor
    · simp only [ScalarBuffer.ofScalars, ScalarBuffer.usedBytes, Cells.bytes, Cells.count_ofList,
        List.length_map, Cell.bytesFor]
      rcases fits with rfl | fits
      · exact Nat.zero_le _
      · exact Nat.le_trans fits (Nat.le_max_left _ _)
    · rintro offset ⟨⟩

/-- Whether the last offset of a buffer is the size of its data, if it has offsets. -/
def ScalarBuffer.EndsExactly : ScalarBuffer → Prop
  | .string strings | .bytes strings => strings.lastOffset = strings.data.size
  | _ => True

private theorem endsExactly_ofList (capacity : Nat) (values : List ByteArray) :
    (ByteStrings.ofList capacity values).lastOffset =
      (ByteStrings.ofList capacity values).data.size := by
  rw [ByteStrings.lastOffset_ofList]
  simp [ByteStrings.ofList]

private theorem endsExactly_ofScalars (type : ScalarType) (capacity : Nat) (values : List Scalar) :
    (ScalarBuffer.ofScalars type capacity values).EndsExactly := by
  cases type with
  | string => exact endsExactly_ofList capacity _
  | bytes => exact endsExactly_ofList capacity _
  | _ => trivial

/-! ### Columns -/

namespace Node

/-- The bytes in use by the buffer of a column itself. -/
def bytes : Node → Nat
  | .scalar _ values => values.usedBytes
  | .array _ slots _ _ => slots.bytes
  | .tuple _ _ _ => 0

/-- The offsets stored in the buffer of a column itself. -/
def offsets : Node → List Nat
  | .scalar _ values => values.offsets
  | .array _ slots _ _ => slots.offsets.toList
  | .tuple _ _ _ => []

/-- Whether the last offset of a column tells what is stored: the size of its data, or no more
elements than there are. -/
def EndsWithin : Node → Prop
  | .scalar _ values => values.EndsExactly
  | .array _ slots elements _ => slots.lastOffset ≤ elements
  | .tuple _ _ _ => True

/-- Whether the buffer of a column keeps to its limit, and its offsets are stored as they are. -/
structure Bounded (limit : Nat) (node : Node) : Prop where
  bytes : node.bytes ≤ max limit 4
  stored : ∀ offset ∈ node.offsets, StoredExactly offset
  within : node.EndsWithin

private theorem bounded_scalar {limit capacity : Nat} (path : String) {type : ScalarType}
    {values : List Scalar} (fits : values = [] ∨ type.Fits limit values) :
    (Node.scalar path (.ofScalars type capacity values)).Bounded limit := by
  obtain ⟨bytes, stored⟩ := bytes_scalars fits
  exact ⟨bytes, stored, endsExactly_ofScalars type capacity values⟩

private theorem bounded_array {limit capacity elements : Nat} (path : String) (entry : Node)
    {sizes : List Nat} (fits : sizes = [] ∨ offsetsFit limit sizes.length sizes.sum)
    (within : sizes.sum ≤ elements) :
    (Node.array path (.ofSizes capacity sizes) elements entry).Bounded limit := by
  obtain ⟨bytes, stored⟩ := bytes_offsets fits
  refine ⟨?_, stored, ?_⟩
  · simpa only [Node.bytes, Slots.bytes, Slots.ofSizes, List.size_toArray, length_offsetsOf]
      using bytes
  · rw [EndsWithin, Slots.lastOffset_ofSizes]
    exact within

private theorem bounded_tuple (limit : Nat) (path : String) (count : Nat) (columns : Nodes) :
    (Node.tuple path count columns).Bounded limit :=
  ⟨Nat.zero_le _, fun _ member => (nomatch member), trivial⟩

/-- A column that holds values, with room for them, keeps to its limit. -/
theorem Holds.bounded {capacity slot : Nat} {node : Node} (holds : node.Holds capacity slot) :
    node.Bounded capacity := by
  obtain ⟨path, type, saved, pending, rfl, -, room, -⟩ := holds
  cases type with
  | scalar type => exact bounded_scalar path room
  | tuple columns => exact bounded_tuple ..
  | array element =>
    refine bounded_array path _ ?_ ?_
    · rw [Value.length_sizes, Value.sum_sizes]
      exact room.1.imp_left fun none => congrArg Value.sizes none
    · rw [Value.sum_sizes, List.length_append]
      exact Nat.le_add_right _ _

/-- Whether the buffers of a column, and of all columns below it, have been emptied. -/
def IsEmptied : Node → Prop
  | .scalar _ values => ∃ before : ScalarBuffer, values = before.reset
  | .array _ slots _ entry =>
      (∃ before : Slots, slots = before.reset) ∧ ∃ before : Node, entry = before.reset
  | .tuple _ _ columns => ∃ before : Nodes, columns = before.reset

private theorem isEmptied_reset (node : Node) : node.reset.IsEmptied := by
  cases node with
  | scalar _ values => exact ⟨values, rfl⟩
  | array _ slots _ entry => exact ⟨⟨slots, rfl⟩, entry, rfl⟩
  | tuple _ _ columns => exact ⟨columns, rfl⟩

theorem get?_reset : ∀ (columns : Nodes) (index : ColumnIndex),
    columns.reset.get? index = (columns.get? index).map reset
  | .nil, index => by cases index <;> rfl
  | .cons name node rest, .name sought => by
      by_cases here : name = sought
      · simp only [Nodes.reset, Nodes.get?, if_pos here, Option.map_some]
      · simp only [Nodes.reset, Nodes.get?, if_neg here]
        exact get?_reset rest (.name sought)
  | .cons _ _ _, .position 0 => rfl
  | .cons _ _ rest, .position (position + 1) => get?_reset rest (.position position)

/-- Every path from an emptied column leads to emptied ones. -/
private theorem IsEmptied.leads {node target : Node} {steps address : List Step}
    {position slot : Nat} (emptied : node.IsEmptied)
    (leads : node.Leads steps position address slot target) : target.IsEmptied := by
  induction leads with
  | here node position => exact emptied
  | column resolved found below inductionHypothesis =>
    obtain ⟨before, rfl⟩ := emptied
    rw [get?_reset] at found
    obtain ⟨child, -, rfl⟩ := Option.map_eq_some_iff.mp found
    exact inductionHypothesis child.isEmptied_reset
  | entry position below inductionHypothesis =>
    obtain ⟨-, before, rfl⟩ := emptied
    exact inductionHypothesis before.isEmptied_reset

/-- An emptied column keeps to any limit. -/
private theorem IsEmptied.bounded {node : Node} (emptied : node.IsEmptied) (limit : Nat) :
    node.Bounded limit := by
  cases node with
  | scalar path values =>
    obtain ⟨before, rfl⟩ := emptied
    rw [ScalarBuffer.reset_eq]
    exact bounded_scalar path (.inl rfl)
  | array path slots elements entry =>
    obtain ⟨⟨before, rfl⟩, -⟩ := emptied
    exact bounded_array path entry (.inl rfl) (Nat.zero_le _)
  | tuple path count columns => exact bounded_tuple ..

end Node

namespace Draft

/-- Every column of a draft that can be reached keeps to the limit. -/
theorem Reached.bounded {schema : Schema} {limits : Limits} {draft : Draft}
    (reached : Reached schema limits draft) {steps address : List Step} {slot : Nat} {target : Node}
    (leads : draft.root.Leads steps draft.row address slot target) :
    target.Bounded limits.bufferBytes := by
  cases reached with
  | written sound settled => exact ((holds_root sound settled).leads leads).bounded
  | ended columns _ emptied =>
    have emptied : draft.root.IsEmptied := ⟨columns, emptied⟩
    exact (emptied.leads leads).bounded limits.bufferBytes

/-- After any operations, the number of rows is within its limit and goes up by one with each row
that is saved, never otherwise and never down. The buffer of every column, at every depth, is within
its limit but for the first offset, and every offset is stored as it is and tells what is there. -/
theorem bounds_of_run (schema : Schema) (limits : Limits) (actions : List Action) :
    let draft := (ofSchema schema limits).run actions
    draft.row ≤ limits.rows ∧
      (∀ action, (draft.act action).1.row =
        if action.savesRow && (draft.act action).2.result.isOk then draft.row + 1 else draft.row) ∧
      (∀ more, draft.row ≤ (draft.run more).row) ∧
      ∀ steps target, draft.find steps = .ok target → target.Bounded limits.bufferBytes := by
  intro draft
  refine ⟨row_run_le actions (Nat.zero_le _), fun action => (counts_act draft action).row,
    row_le_run draft, ?_⟩
  intro steps target found
  obtain ⟨address, slot, leads⟩ := Node.leads_of_find draft.row found
  exact (reached_run schema limits actions).bounded leads

/-- A row with one text fills both buffers of offsets, and the row after it is refused and dropped
without a trace. -/
theorem bounds_of_run_full :
    let schema : Schema := .cons "names" (.array (.scalar .string)) .nil
    let name : List Step := [.column (.position 0), .entry]
    let actions : List Action :=
      [.edit name (.set (.string "abc")), .save, .edit name (.set (.string "de"))]
    let texts : Node := .scalar "names" (.string ⟨8, #[0, 3], "abc".toUTF8⟩)
    let draft : Draft := ⟨⟨2, 8⟩, schema, .writing, 1,
      .cons "names" (.array "names" ⟨8, #[0, 1]⟩ 1 texts) .nil⟩
    (ofSchema schema ⟨2, 8⟩).run actions = draft ∧
      draft.find name = .ok texts ∧ texts.offsets = [0, 3] ∧ texts.Bounded 8 ∧
      (draft.act .save).1.row = 1 := by
  intro schema name actions texts draft
  have reached : (ofSchema schema ⟨2, 8⟩).run actions = draft := by decide +kernel
  have found : draft.find name = .ok texts := rfl
  have bounds := bounds_of_run schema ⟨2, 8⟩ actions
  rw [reached] at bounds
  obtain ⟨_, counted, _, bounded⟩ := bounds
  refine ⟨reached, found, rfl, bounded name texts found, ?_⟩
  rw [counted .save]
  decide +kernel

end Draft

end Columnar
