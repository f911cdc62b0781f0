import Columnar.Proofs.Draft.Paths
import Columnar.Proofs.Draft.Simulation
import Columnar.Proofs.Row.Settled

/-!
# The columns of a draft that is written

Every column at every depth of a draft that is written holds the values of the slots before its
own, and possibly one that is in progress there. What is to be said of each column of a draft is
said once of a column that holds given values.
-/

namespace Columnar

/-- Whether a column holds the values of the slots before a given one, with room for them, and has
no scalar entry of an array in progress. -/
def Node.Holds (capacity slot : Nat) (node : Node) : Prop :=
  ∃ path type saved pending, node = .holding capacity path type saved pending ∧
    slot = saved.length ∧ type.Room capacity saved pending ∧ pending.Settled type

/-- Each of some columns that hold rows holds the values of as many slots as there are rows. -/
theorem Nodes.holds_of_get? {capacity : Nat} : ∀ (parent : String) (schema : Schema)
    (rows : List (List Value)) (pendings : List Pending) (index : ColumnIndex) {child : Node},
    schema.Room capacity rows pendings → Pending.SettledEach schema pendings →
    (Nodes.holding capacity parent schema rows pendings).get? index = some child →
    child.Holds capacity rows.length
  | _, .nil, _, _, index, _, _, _, found => by cases index <;> cases found
  | parent, .cons name type rest, rows, pendings, index, child, room, settled, found => by
      have first : some (Node.holding capacity (childPath parent name) type
          (rows.map Value.firstItem) (Pending.first pendings)) = some child →
          child.Holds capacity rows.length := by
        intro same
        obtain rfl := Option.some.inj same
        exact ⟨_, type, _, _, rfl, (List.length_map _).symm, room.1, settled.1⟩
      have later : ∀ index, (Nodes.holding capacity parent rest (rows.map List.tail)
          pendings.tail).get? index = some child → child.Holds capacity rows.length := by
        intro index found
        have below := Nodes.holds_of_get? parent rest _ _ index room.2 settled.2 found
        rwa [List.length_map] at below
      cases index with
      | name sought =>
        by_cases here : name = sought
        · simp only [Nodes.holding, Nodes.get?, if_pos here] at found
          exact first found
        · simp only [Nodes.holding, Nodes.get?, if_neg here] at found
          exact later _ found
      | position position =>
        cases position with
        | zero => exact first found
        | succ position => exact later _ found

/-- A path from a column that holds values leads to columns that hold values. -/
theorem Node.Holds.leads {capacity : Nat} {node target : Node} {steps address : List Step}
    {position slot : Nat} (holds : node.Holds capacity position)
    (leads : node.Leads steps position address slot target) : target.Holds capacity slot := by
  induction leads with
  | here node position => exact holds
  | column resolved found below inductionHypothesis =>
    obtain ⟨path, type, saved, pending, same, rfl, room, settled⟩ := holds
    cases type with
    | scalar _ => cases same
    | array _ => cases same
    | tuple schema =>
      simp only [Node.holding, Node.tuple.injEq] at same
      obtain ⟨rfl, rfl, rfl⟩ := same
      have holdsChild := Nodes.holds_of_get? _ schema _ _ _ room settled found
      rw [List.length_map] at holdsChild
      exact inductionHypothesis holdsChild
  | entry position below inductionHypothesis =>
    obtain ⟨path, type, saved, pending, same, rfl, room, settled⟩ := holds
    cases type with
    | scalar _ => cases same
    | tuple _ => cases same
    | array element =>
      simp only [Node.holding, Node.array.injEq] at same
      obtain ⟨rfl, rfl, rfl, rfl⟩ := same
      exact inductionHypothesis ⟨_, element, _, _, rfl, rfl, room.2, settled.2⟩

/-- A scalar column has one value for each slot before its own, and at most one more. -/
theorem Node.Holds.scalar {capacity slot : Nat} {path : String} {values : ScalarBuffer}
    (holds : (Node.scalar path values).Holds capacity slot) :
    ∃ type saved last, slot = saved.length ∧
      values = .ofScalars type capacity (saved ++ Option.toList last) := by
  obtain ⟨other, type, saved, pending, same, rfl, _, _⟩ := holds
  cases type with
  | array _ => cases same
  | tuple _ => cases same
  | scalar type =>
    obtain ⟨_, held⟩ := Node.scalar.inj same
    exact ⟨type, _, pending.written, (List.length_map _).symm, held⟩

namespace Draft

variable {schema : Schema} {limits : Limits} {machine : RowMachine}

/-- The row tuple of a draft that follows a machine holds the rows of the machine. -/
theorem holds_root (sound : Sound schema limits machine)
    (settled : machine.current.Settled (.tuple schema)) :
    (machine.draft schema limits).root.Holds limits.bufferBytes machine.rows.length :=
  ⟨"", .tuple schema, machine.rows, machine.current, rfl, rfl, sound.room, settled⟩

/-- Every column of a draft that only was written since it began holds the values of the slots
before its own. -/
theorem holds_of_leads (schema : Schema) (limits : Limits) {actions : List Action}
    (writes : ∀ action ∈ actions, action.isWrite = true) {steps address : List Step} {slot : Nat}
    {target : Node} :
    let draft := (ofSchema schema limits).run actions
    draft.root.Leads steps draft.row address slot target →
      target.Holds limits.bufferBytes slot := by
  intro draft leads
  obtain ⟨follows, sound⟩ := run_ofSchema schema limits writes
  have same : draft = (RowMachine.ofRun schema limits actions).draft schema limits := follows
  rw [same] at leads
  have settled : (RowMachine.ofRun schema limits actions).current.Settled (.tuple schema) :=
    RowMachine.settled_replay (Pending.settled_ofType (.tuple schema)) _
  exact (holds_root sound settled).leads leads

end Draft

end Columnar
