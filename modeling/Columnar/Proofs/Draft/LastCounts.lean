import Columnar.Proofs.Draft.Bounds
import Columnar.Proofs.Draft.InPlace
import Columnar.Proofs.Draft.Phases

/-!
# What arrays count in the end

A draft that is over has no slots any more, and its arrays go on counting from where the first slot
began. So an array of a sealed draft counts its elements in all saved rows, and one of a released
draft, with these, the elements that were written after them.
-/

namespace Columnar

namespace Value

/-- The values at an address below each of some values, in order: of an array all its elements, of a
tuple the item of one column. -/
def along : List Step → List Value → List Value
  | [], values => values
  | .entry :: rest, values => along rest (values.flatMap items)
  | .column (.position position) :: rest, values =>
      along rest (values.map fun value => firstItem (value.items.drop position))
  | .column (.name _) :: rest, _ => along rest []

theorem along_append (first second : List Step) (values : List Value) :
    along (first ++ second) values = along second (along first values) := by
  induction first generalizing values with
  | nil => rfl
  | cons step rest inductionHypothesis =>
    cases step with
    | entry => exact inductionHypothesis _
    | column index => cases index <;> exact inductionHypothesis _

end Value

/-! ### Paths in columns that hold values -/

/-- Each of some columns that hold rows holds the items of one position. -/
theorem Nodes.get?_saved {capacity : Nat} : ∀ (parent : String) (schema : Schema)
    (rows : List (List Value)) (position : Nat) {child : Node},
    (Nodes.saved capacity parent schema rows).get? (.position position) = some child →
    ∃ path type, child = .saved capacity path type
      (rows.map fun row => Value.firstItem (row.drop position))
  | _, .nil, _, _, _, found => nomatch found
  | parent, .cons name type rest, rows, 0, _, found => by
      rw [Nodes.saved_cons] at found
      exact ⟨_, type, (Option.some.inj found).symm⟩
  | parent, .cons name type rest, rows, position + 1, child, found => by
      rw [Nodes.saved_cons] at found
      obtain ⟨path, type, same⟩ := Nodes.get?_saved parent rest (rows.map List.tail) position found
      refine ⟨path, type, ?_⟩
      simpa only [List.map_map, Function.comp_def, List.drop_tail] using same

namespace Node

/-- A path in a column that holds values leads to a column that holds the values along the path. -/
theorem Leads.saved {capacity : Nat} {path : String} {type : ColumnType} {values : List Value}
    {steps address : List Step} {position slot : Nat} {target : Node}
    (leads : (Node.saved capacity path type values).Leads steps position address slot target) :
    ∃ path type, target = .saved capacity path type (Value.along address values) := by
  generalize whole : Node.saved capacity path type values = node at leads
  induction leads generalizing path type values with
  | here node position => exact ⟨path, type, whole.symm⟩
  | column resolved found below inductionHypothesis =>
    cases type with
    | scalar _ => cases whole
    | array _ => cases whole
    | tuple schema =>
      rw [Node.saved_tuple] at whole
      obtain ⟨-, -, rfl⟩ := Node.tuple.inj whole
      rw [Nodes.get?_of_resolve? _ resolved] at found
      obtain ⟨inner, element, rfl⟩ := Nodes.get?_saved _ schema _ _ found
      obtain ⟨last, innermost, same⟩ := inductionHypothesis rfl
      refine ⟨last, innermost, ?_⟩
      rw [same, List.map_map]
      rfl
  | entry position below inductionHypothesis =>
    cases type with
    | scalar _ => cases whole
    | tuple _ => cases whole
    | array element =>
      rw [Node.saved_array] at whole
      obtain ⟨-, -, -, rfl⟩ := Node.array.inj whole
      exact inductionHypothesis rfl

/-! ### Paths in emptied columns -/

private theorem resolve?_reset : ∀ (columns : Nodes) (index : ColumnIndex),
    columns.reset.resolve? index = columns.resolve? index
  | .nil, index => by cases index <;> rfl
  | .cons name _ rest, .name sought => by
      simp only [Nodes.reset, Nodes.resolve?, resolve?_reset rest (.name sought)]
  | .cons _ _ _, .position 0 => rfl
  | .cons _ _ rest, .position (position + 1) =>
      congrArg (Option.map (· + 1)) (resolve?_reset rest (.position position))

/-- A path in an emptied column leads where it led before, to what was there, emptied. -/
theorem Leads.of_reset {node target : Node} {steps address : List Step} {position slot : Nat}
    (leads : node.reset.Leads steps position address slot target) :
    ∃ before, node.Leads steps position address slot before ∧ target = before.reset := by
  generalize emptied : node.reset = after at leads
  induction leads generalizing node with
  | here after position => exact ⟨node, .here node position, emptied.symm⟩
  | column resolved found below inductionHypothesis =>
    cases node with
    | scalar _ _ => cases emptied
    | array _ _ _ _ => cases emptied
    | tuple path count columns =>
      obtain ⟨-, -, rfl⟩ := Node.tuple.inj emptied
      rw [resolve?_reset] at resolved
      rw [get?_reset] at found
      obtain ⟨child, here, same⟩ := Option.map_eq_some_iff.mp found
      obtain ⟨before, leads, reached⟩ := inductionHypothesis same
      exact ⟨before, .column resolved here leads, reached⟩
  | entry position below inductionHypothesis =>
    cases node with
    | scalar _ _ => cases emptied
    | tuple _ _ _ => cases emptied
    | array path slots elements entry =>
      obtain ⟨-, -, rfl, rfl⟩ := Node.array.inj emptied
      obtain ⟨before, leads, reached⟩ := inductionHypothesis rfl
      exact ⟨before, .entry position leads, reached⟩

/-- An array in emptied columns is an array that was there before, and counts from the first of its
elements on. -/
theorem Leads.array_of_reset (node : Node) {steps address : List Step} {position slot : Nat}
    {path : String} {slots : Slots} {elements : Nat} {entry : Node}
    (leads : node.reset.Leads steps position address slot (.array path slots elements entry)) :
    (Node.array path slots elements entry).elementIndex = elements ∧
      ∃ before inner,
        node.Leads steps position address slot (.array path before elements inner) := by
  obtain ⟨target, there, emptied⟩ := Leads.of_reset leads
  cases target with
  | scalar _ _ => cases emptied
  | tuple _ _ _ => cases emptied
  | array _ before _ inner =>
    cases emptied
    exact ⟨rfl, before, inner, there⟩

/-- The count that columns share plays no part in what a path below them leads to. -/
theorem Leads.array_of_tuple {columns : Nodes} {path inner : String} {count : Nat}
    {steps address : List Step} {position slot elements : Nat} {slots : Slots} {entry : Node}
    (leads : (Node.tuple path count columns).Leads steps position address slot
      (.array inner slots elements entry)) (other : Nat) :
    (Node.tuple path other columns).Leads steps position address slot
      (.array inner slots elements entry) := by
  cases leads with
  | column resolved found below => exact .column resolved found below

/-- The elements of an array in columns of saved values are those along the path to its entry. -/
theorem Leads.elements_of_saved {capacity : Nat} {path inner : String} {type : ColumnType}
    {values : List Value} {steps address : List Step} {position slot elements : Nat} {slots : Slots}
    {entry : Node}
    (leads : (Node.saved capacity path type values).Leads steps position address slot
      (.array inner slots elements entry)) :
    elements = (Value.along (address ++ [.entry]) values).length := by
  obtain ⟨_, reached, same⟩ := Leads.saved leads
  cases reached with
  | scalar _ => cases same
  | tuple _ => cases same
  | array element =>
    rw [Node.saved_array] at same
    obtain ⟨-, -, counted, -⟩ := Node.array.inj same
    rw [counted, Value.along_append]
    rfl

end Node

namespace Draft

variable {schema : Schema} {limits : Limits} {draft : Draft}

/-- Sealing leaves the columns of the saved rows, emptied. -/
private theorem columns_of_finish (machine : RowMachine) :
    (machine.draft schema limits).finish.1.columns =
      (Nodes.saved limits.bufferBytes "" schema (machine.rows.map Value.items)).reset := by
  have writing : (machine.draft schema limits).phase = .writing := rfl
  simp only [finish, writing, discardRow_draft]
  split <;> rfl

/-- What an array counts after sealing: its elements in all saved rows. -/
private theorem elementIndex_of_finish (machine : RowMachine) {steps address : List Step}
    {position slot elements : Nat} {path : String} {slots : Slots} {entry : Node}
    (leads : (machine.draft schema limits).finish.1.root.Leads steps position address slot
      (.array path slots elements entry)) :
    (Node.array path slots elements entry).elementIndex =
      (Value.along (address ++ [.entry]) machine.rows).length := by
  rw [root, columns_of_finish] at leads
  have emptied : (Node.saved limits.bufferBytes "" (.tuple schema) machine.rows).reset.Leads steps
      position address slot (.array path slots elements entry) := leads.array_of_tuple 0
  obtain ⟨counted, before, inner, there⟩ := Node.Leads.array_of_reset _ emptied
  rw [counted, there.elements_of_saved]

/-- An array of a draft that was given up was there before, with as many elements, and counts them
all. -/
private theorem Reached.array_of_release (reached : Reached schema limits draft)
    {steps address : List Step} {slot elements : Nat} {path : String} {slots : Slots} {entry : Node}
    (leads : draft.release.1.root.Leads steps draft.row address slot
      (.array path slots elements entry)) :
    (Node.array path slots elements entry).elementIndex = elements ∧
      ∃ before inner, draft.root.Leads steps draft.row address slot
        (.array path before elements inner) := by
  cases reached with
  | written _ _ =>
    have emptied := leads.array_of_tuple 0
    exact Node.Leads.array_of_reset (Draft.root _) emptied
  | ended columns ended emptied =>
    have same : draft.release.1 = draft := act_ended ended .release
    rw [same] at leads
    have nothing := leads.array_of_tuple 0
    rw [emptied] at nothing
    exact ⟨(Node.Leads.array_of_reset (.tuple "" 0 columns) nothing).1, slots, entry, leads⟩

/-- What arrays count once a draft of a checked schema is over, whatever is done to it later. After
a seal every array, at every depth, counts its elements in all saved rows, which are those that a
reader of the batch reads. After giving up, an array counts the elements of the slots that it had
closed, and with them those of the slot in progress. -/
theorem elementIndex_of_ended (checked : schema.checkAll = .ok ()) (limits : Limits)
    (actions : List Action) :
    let draft := (ofSchema schema limits).run actions
    (∀ batch, draft.finish.2.result = .ok batch →
      ∃ reader rows, (SealedSet.mk schema (some batch)).reader = .ok reader ∧
        reader.remaining.2 = .ok rows ∧
        ∀ more steps position address slot path slots elements entry,
          (draft.finish.1.run more).root.Leads steps position address slot
            (.array path slots elements entry) →
          (Node.array path slots elements entry).elementIndex =
            (Value.along (address ++ [.entry]) rows).length) ∧
      ∀ more steps path slots elements entry,
        (draft.release.1.run more).find steps = .ok (.array path slots elements entry) →
        ∃ before inner, draft.find steps = .ok (.array path before elements inner) ∧
          (Node.array path slots elements entry).elementIndex =
            before.lastOffset + (Node.array path before elements inner).elementIndex := by
  intro draft
  have reached : Reached schema limits draft := reached_run schema limits actions
  constructor
  · intro batch finished
    have writing : draft.phase = .writing := (phase_of_finish finished).1
    obtain ⟨follows, _⟩ := run_ofSchema schema limits (isWrite_of_run writing)
    have same : draft = (RowMachine.ofRun schema limits actions).draft schema limits := follows
    obtain ⟨rfl, admitted⟩ := ofRows_of_finish checked limits finished
    refine ⟨_, _, SealedSet.reader_ofRows schema _, Reader.remaining_onRows admitted, ?_⟩
    intro more steps position address slot path slots elements entry leads
    rw [run_ended (finish_ended draft), same] at leads
    exact elementIndex_of_finish _ leads
  · intro more steps path slots elements entry found
    rw [run_ended (release_ended draft)] at found
    obtain ⟨address, slot, leads⟩ := Node.leads_of_find draft.row found
    obtain ⟨counted, before, inner, there⟩ := reached.array_of_release leads
    have within : before.lastOffset ≤ elements := (reached.bounded there).within
    refine ⟨before, inner, there.find, ?_⟩
    rw [counted]
    exact (Nat.add_sub_cancel' within).symm

/-- One saved row with three numbers in two inner arrays, and a fourth number that is not saved. -/
theorem elementIndex_of_ended_nested :
    let schema : Schema := .cons "a" (.array (.array (.scalar .integer))) .nil
    let a : List Step := [.column (.position 0)]
    let row : Value :=
      .tuple [.array [.array [.scalar (.int 1), .scalar (.int 2)], .array [.scalar (.int 3)]]]
    let draft := (ofSchema schema ⟨4, 64⟩).run
      [.addRow row, .edit (a ++ [.entry, .entry]) (.set (.int 4))]
    let empty : Node := .scalar "a" (.int ⟨64, #[]⟩)
    let inner (elements : Nat) : Node := .array "a" ⟨64, #[0]⟩ elements empty
    schema.checkAll = .ok () ∧
      draft.finish.1.columns = .cons "a" (.array "a" ⟨64, #[0]⟩ 2 (inner 3)) .nil ∧
      draft.release.1.columns = .cons "a" (.array "a" ⟨64, #[0]⟩ 2 (inner 4)) .nil ∧
      (∃ batch reader rows, draft.finish.2.result = .ok batch ∧
        (SealedSet.mk schema (some batch)).reader = .ok reader ∧ reader.remaining.2 = .ok rows ∧
        2 = (Value.along (a ++ [.entry]) rows).length ∧
        3 = (Value.along (a ++ [.entry, .entry]) rows).length) ∧
      ∃ before entry, draft.find (a ++ [.entry]) = .ok (.array "a" before 4 entry) ∧
        4 = before.lastOffset + (Node.array "a" before 4 entry).elementIndex := by
  intro schema a row draft empty inner
  have checked : schema.checkAll = .ok () := rfl
  have finished : draft.finish.1 = ⟨⟨4, 64⟩, schema, .sealed, 1,
      .cons "a" (.array "a" ⟨64, #[0]⟩ 2 (inner 3)) .nil⟩ := by
    decide +kernel
  have released : draft.release.1 = ⟨⟨4, 64⟩, schema, .released, 1,
      .cons "a" (.array "a" ⟨64, #[0]⟩ 2 (inner 4)) .nil⟩ := by
    decide +kernel
  have accepted : draft.finish.2.result.isOk = true := by decide +kernel
  have written : (ofSchema schema ⟨4, 64⟩).run
      [.addRow row, .edit (a ++ [.entry, .entry]) (.set (.int 4))] = draft := rfl
  obtain ⟨afterSeal, afterRelease⟩ := elementIndex_of_ended checked ⟨4, 64⟩
    [.addRow row, .edit (a ++ [.entry, .entry]) (.set (.int 4))]
  rw [written] at afterSeal afterRelease
  refine ⟨checked, congrArg Draft.columns finished, congrArg Draft.columns released, ?_, ?_⟩
  · cases result : draft.finish.2.result with
    | error _ =>
      rw [result] at accepted
      cases accepted
    | ok batch =>
      obtain ⟨reader, rows, binds, reads, counts⟩ := afterSeal batch result
      have outer : draft.finish.1.root.Leads a 1 a 1 (.array "a" ⟨64, #[0]⟩ 2 (inner 3)) := by
        rw [finished]
        exact .column rfl rfl (.here _ _)
      have deeper : draft.finish.1.root.Leads (a ++ [.entry]) 1 (a ++ [.entry]) 2 (inner 3) := by
        rw [finished]
        exact .column rfl rfl (.entry _ (.here _ _))
      exact ⟨batch, reader, rows, rfl, binds, reads, counts [] _ _ _ _ _ _ _ _ outer,
        counts [] _ _ _ _ _ _ _ _ deeper⟩
  · refine afterRelease [] (a ++ [.entry]) "a" ⟨64, #[0]⟩ 4 empty ?_
    change draft.release.1.find (a ++ [.entry]) = _
    rw [released]
    rfl

/-- An array with two saved elements counts them in the end, though nothing is written for any slot
any more. -/
theorem elementIndices_of_ended_ne_zero :
    let schema : Schema := .cons "a" (.array (.scalar .integer)) .nil
    let draft := (ofSchema schema ⟨4, 64⟩).run
      [.addRow (.tuple [.array [.scalar (.int 1), .scalar (.int 2)]])]
    schema.checkAll = .ok () ∧ draft.elementIndices = [0] ∧
      draft.finish.2.result.isOk = true ∧ draft.finish.1.elementIndices = [2] ∧
      draft.release.1.elementIndices = [2] := by
  decide +kernel

end Draft

end Columnar
