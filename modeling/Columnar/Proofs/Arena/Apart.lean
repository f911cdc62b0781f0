import Columnar.Proofs.Arena.Frames

/-!
# Operations apart from each other

Operations at the numbers of columns of which neither is below the other do not meet, although they
find their buffers in one store and may be written at one cursor: each reaches no further than what
is below its number. So they can be done in any order, unless a buffer runs short.
-/

namespace Columnar

/-- One step leads to a part that the buffer names. -/
theorem Buffer.mem_children_of_part? {buffer : Buffer} {step : Step} {part : Nat}
    (named : buffer.part? step = some part) : part ∈ buffer.children := by
  cases buffer with
  | scalar _ => cases named
  | slots entry _ =>
    cases step with
    | entry => exact List.mem_singleton.mpr (Option.some.inj named).symm
    | column _ => cases named
  | group _ parts _ =>
    cases step with
    | entry => cases named
    | column index =>
      cases index with
      | name _ => cases named
      | position _ => exact List.mem_of_getElem? named

/-- What an address leads to is below the buffer where it begins. -/
theorem Store.below_of_follow {store : Store} {id part : Nat} {address : List Step}
    (followed : store.follow id address = some part) : store.Below part id := by
  induction address generalizing id with
  | nil =>
    obtain rfl := Option.some.inj followed
    exact store.below_refl id
  | cons step rest inductionHypothesis =>
    obtain ⟨buffer, found, followed⟩ := Option.bind_eq_some_iff.mp followed
    obtain ⟨child, named, followed⟩ := Option.bind_eq_some_iff.mp followed
    exact (inductionHypothesis followed).tail ⟨buffer, found, Buffer.mem_children_of_part? named⟩

namespace Draft

variable {draft : Draft} {schema : Schema}

variable {address other : List Step} {id otherId : Nat} {type otherType : ColumnType}

/-- A column whose address goes on from that of another is below it. -/
theorem Addressed.below (addressed : Addressed schema draft.arena address id type)
    (addressedAlso : Addressed schema draft.arena other otherId otherType)
    (inPlace : draft.columns.InPlace "" schema) (within : address <+: other) :
    draft.arena.store.Below otherId id := by
  obtain ⟨rest, rfl⟩ := within
  obtain ⟨further, -⟩ := addressed.leads inPlace
  have numbered := addressedAlso.numbered
  rw [Arena.number?, Store.followFrom_append further] at numbered
  obtain ⟨start, begun, followed⟩ := Option.bind_eq_some_iff.mp numbered
  obtain rfl := Option.some.inj (begun.symm.trans addressed.numbered)
  exact Store.below_of_follow followed

/-! ### In any order -/

/-- Behind an open gate an operation is an edit, or there is nothing to do. -/
theorem operate_open (free : draft.gate? = none) (address : List Step) (type : ColumnType)
    (operation : Writer.Operation) :
    draft.operate address type operation =
      if operation.fits type then draft.edit address operation.edit else (draft, .accept ()) := by
  rw [operate, free]

/-- An operation for which no buffer ran short leaves the gate as it is. -/
theorem gate?_operate {operation : Writer.Operation}
    (hasRoom : ranShort (draft.operate address type operation).2.result = false) :
    (draft.operate address type operation).1.gate? = draft.gate? := by
  cases gate : draft.gate? with
  | some refusal => simp only [operate, gate]
  | none =>
    rw [operate_open gate] at hasRoom ⊢
    split at hasRoom
    · rename_i fits
      rw [if_pos fits, edit_hasRoom hasRoom, ← gate]
      rfl
    · rename_i idle
      rw [if_neg idle, gate]

/-- Operations at addresses of which neither goes on from the other, with room for both, give the
same draft and the same answers in either order. -/
theorem operate_comm (inPlace : draft.columns.InPlace "" schema)
    (addressed : Addressed schema draft.arena address id type)
    (addressedAlso : Addressed schema draft.arena other otherId otherType)
    (outside : ¬address <+: other) (apart : ¬other <+: address)
    (operation otherOperation : Writer.Operation)
    (hasRoom : ranShort (draft.operate address type operation).2.result = false)
    (hasRoomAlso : ranShort ((draft.operate address type operation).1.operate other otherType
      otherOperation).2.result = false) :
    (draft.operate other otherType otherOperation).2 =
        ((draft.operate address type operation).1.operate other otherType otherOperation).2 ∧
      (draft.operate other otherType otherOperation).1.operate address type operation =
        (((draft.operate address type operation).1.operate other otherType otherOperation).1,
          (draft.operate address type operation).2) := by
  have kept := gate?_operate hasRoom
  cases gate : draft.gate? with
  | some refusal => simp only [operate, gate, and_self]
  | none =>
    rw [gate] at kept
    by_cases fits : operation.fits type = true
    · have first : draft.operate address type operation = draft.edit address operation.edit := by
        rw [operate_open gate, if_pos fits]
      rw [first] at hasRoom hasRoomAlso kept ⊢
      by_cases fitsAlso : otherOperation.fits otherType = true
      · obtain ⟨-, slot, target, leads, -⟩ := addressed.leads inPlace
        obtain ⟨-, otherSlot, before, elsewhere, -⟩ := addressedAlso.leads inPlace
        have second : draft.operate other otherType otherOperation =
            draft.edit other otherOperation.edit := by
          rw [operate_open gate, if_pos fitsAlso]
        rw [operate_open kept, if_pos fitsAlso] at hasRoomAlso ⊢
        obtain ⟨-, -, swapped⟩ :=
          edit_independent leads elsewhere outside operation.edit hasRoom
        obtain ⟨answered, same⟩ := swapped apart otherOperation.edit hasRoomAlso
        have keptAlso : (draft.operate other otherType otherOperation).1.gate? = none := by
          rw [← answered, ← second] at hasRoomAlso
          exact (gate?_operate hasRoomAlso).trans gate
        rw [operate_open keptAlso, if_pos fits, second]
        exact ⟨answered, same⟩
      · rw [operate_open kept, if_neg fitsAlso]
        simp only [operate, gate, if_neg fitsAlso, if_pos fits, and_self]
    · have first : draft.operate address type operation = (draft, .accept ()) := by
        rw [operate_open gate, if_neg fits]
      rw [first] at hasRoomAlso ⊢
      have keptAlso := (gate?_operate hasRoomAlso).trans gate
      rw [operate_open keptAlso, if_neg fits]
      exact ⟨rfl, rfl⟩

/-- An operation leads to another draft that operations lead to. -/
theorem operate_eq_run (draft : Draft) (address : List Step) (type : ColumnType)
    (operation : Writer.Operation) :
    ∃ actions, (draft.operate address type operation).1 = draft.run actions := by
  cases gate : draft.gate? with
  | some refusal =>
    simp only [operate, gate]
    exact ⟨[], rfl⟩
  | none =>
    rw [operate_open gate]
    split
    · exact ⟨[.edit address operation.edit], rfl⟩
    · exact ⟨[], rfl⟩

/-- After any operations, another one leaves the columns in their places. -/
theorem inPlace_operate (schema : Schema) (limits : Limits) (actions : List Action)
    (address : List Step) (type : ColumnType) (operation : Writer.Operation) :
    (((ofSchema schema limits).run actions).operate address type
      operation).1.columns.InPlace "" schema := by
  obtain ⟨more, ran⟩ :=
    operate_eq_run ((ofSchema schema limits).run actions) address type operation
  rw [ran, ← run_append]
  exact (inPlace_run schema limits (actions ++ more)).2

end Draft

namespace Writer

/-- Operations at the numbers of two columns of a writer, after any moves. Where no buffer runs
short, each reaches no further than what is below its number, but that the array whose scalar entry
accepts a value gains an element; and saving an element leaves the slots and the cursor of every
array around. If neither number is below the other and no buffer runs short in one order, then the
operations give the same answers and the same writer in the other order. -/
theorem operate_independent_of_run (schema : Schema) (limits : Limits) {moves : List Move}
    {writer : Writer} (reached : (ofSchema schema limits).run moves = some writer) {id : Nat}
    (within : id < writer.arena.store.size) (operation : Operation) :
    writer.phase = .writing ∧
    ∃ after outcome, writer.operate id operation = some (after, outcome) ∧
      (ranShort outcome.result = false →
        writer.Reaches after id (writer.gained id operation outcome.result.isOk) ∧
        (operation = .saveElement → ∀ outer, writer.arena.store.Below id outer → outer ≠ id →
          after.arena.store.get? outer = writer.arena.store.get? outer ∧
          ∀ placement cursor, writer.arena.placements[outer]? = some placement →
            placement.elements? = some cursor →
            after.arena.cursors[cursor]? = writer.arena.cursors[cursor]?) ∧
        (∀ other otherOperation, other < writer.arena.store.size →
          ¬writer.arena.store.Below other id → ¬writer.arena.store.Below id other →
          ∃ last otherOutcome, after.operate other otherOperation = some (last, otherOutcome) ∧
            (ranShort otherOutcome.result = false →
              ∃ early, writer.operate other otherOperation = some (early, otherOutcome) ∧
                early.operate id operation = some (last, outcome)))) := by
  obtain ⟨actions, rfl, writing⟩ := Draft.exists_actions schema limits reached
  have inPlace := (Draft.inPlace_run schema limits actions).2
  obtain ⟨address, type, addressed⟩ := Draft.exists_addressed inPlace within
  refine ⟨writing, _, _, addressed.operate_eq inPlace operation, fun hasRoom => ?_⟩
  have reaches := addressed.reaches inPlace operation hasRoom
  refine ⟨reaches, ?_, ?_⟩
  · rintro rfl outer around differs
    have apart : ¬((Draft.ofSchema schema limits).run actions).arena.store.Below outer id :=
      fun below => differs (Nat.le_antisymm (Draft.le_of_below inPlace below)
        (Draft.le_of_below inPlace around))
    refine ⟨reaches.buffers outer apart, fun placement cursor placed keeps => ?_⟩
    rw [reaches.cursors outer placement cursor apart placed keeps]
    simp [gained]
  · intro other otherOperation withinAlso outside apart
    obtain ⟨place, otherType, addressedAlso⟩ := Draft.exists_addressed inPlace withinAlso
    have inPlaceAfter := Draft.inPlace_operate schema limits actions address type operation
    have inPlaceEarly := Draft.inPlace_operate schema limits actions place otherType otherOperation
    refine ⟨_, _, (addressedAlso.of_inPlace inPlace inPlaceAfter).operate_eq inPlaceAfter
      otherOperation, fun hasRoomAlso => ?_⟩
    obtain ⟨answered, same⟩ := Draft.operate_comm inPlace addressed addressedAlso
      (fun within => outside (addressed.below addressedAlso inPlace within))
      (fun within => apart (addressedAlso.below addressed inPlace within))
      operation otherOperation hasRoom hasRoomAlso
    have first := addressedAlso.operate_eq inPlace otherOperation
    have second := (addressed.of_inPlace inPlace inPlaceEarly).operate_eq inPlaceEarly operation
    rw [answered] at first
    rw [same] at second
    exact ⟨_, first, second⟩

/-- The end of a point of a group, and the number of the group, which is written at the cursor of
the groups. -/
theorem operate_independent_of_run_group :
    let schema : Schema :=
      .cons "groups" (.array (.tuple (.cons "number" (.scalar .integer)
        (.cons "points" (.array (.tuple (.cons "x" (.scalar .integer) .nil))) .nil)))) .nil
    let begun := ofSchema schema ⟨4, 16⟩
    ∃ writer after last early first second,
      begun.run [.operate 0 (.write (.int 1)), .operate 5 .saveElement,
        .operate 1 (.write (.int 7))] = some writer ∧
      writer.operate 3 .saveElement = some (after, first) ∧
      after.operate 0 (.write (.int 2)) = some (last, second) ∧
      writer.operate 0 (.write (.int 2)) = some (early, second) ∧
      early.operate 3 .saveElement = some (last, first) ∧
      writer.arena.cursors = #[0, 1, 0] ∧ after.arena.cursors = #[0, 1, 1] := by
  intro schema begun
  let moves : List Move :=
    [.operate 0 (.write (.int 1)), .operate 5 .saveElement, .operate 1 (.write (.int 7))]
  let writer := (begun.run moves).getD begun
  have reached : begun.run moves = some writer := by decide +kernel
  have number : writer.arena.store.get? 0 = some (.scalar (.int ⟨16, #[1]⟩)) := by decide +kernel
  have x : writer.arena.store.get? 1 = some (.scalar (.int ⟨16, #[7]⟩)) := by decide +kernel
  have point : writer.arena.store.get? 2 = some (.group ["x"] [1] 0) := by decide +kernel
  have points : writer.arena.store.get? 3 = some (.slots 2 ⟨16, #[0, 0]⟩) := by decide +kernel
  have outside : ¬writer.arena.store.Below 0 3 := by
    simp [Store.below_iff_of_get? points, Store.below_iff_of_get? point, Store.below_iff_of_get? x,
      Buffer.children]
  have apart : ¬writer.arena.store.Below 3 0 := by
    simp [Store.below_iff_of_get? number, Buffer.children]
  obtain ⟨-, after, first, saved, further⟩ :=
    operate_independent_of_run schema ⟨4, 16⟩ reached (by decide +kernel : 3 < _) .saveElement
  have closed : (writer.operate 3 .saveElement).map (fun outcome =>
      (ranShort outcome.2.result, outcome.1.arena.cursors)) = some (false, #[0, 1, 1]) := by
    decide +kernel
  rw [saved] at closed
  obtain ⟨hasRoom, counted⟩ := Prod.mk.inj (Option.some.inj closed)
  obtain ⟨-, -, swapped⟩ := further hasRoom
  obtain ⟨last, second, written, swaps⟩ :=
    swapped 0 (.write (.int 2)) (by decide +kernel : 0 < _) outside apart
  have closedAlso : ((writer.operate 3 .saveElement).bind fun outcome =>
      outcome.1.operate 0 (.write (.int 2))).map (fun outcome => ranShort outcome.2.result) =
        some false := by
    decide +kernel
  rw [saved, Option.bind_some, written] at closedAlso
  obtain ⟨early, before, same⟩ := swaps (Option.some.inj closedAlso)
  exact ⟨writer, after, last, early, first, second, reached, saved, written, before, same,
    by decide +kernel, counted⟩

end Writer

end Columnar
