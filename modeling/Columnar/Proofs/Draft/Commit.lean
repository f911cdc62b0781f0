import Columnar.Proofs.Draft.Fits

/-!
# Committing values in progress

Closing the slot after the saved values either moves the value in progress to the saved ones, or
meets a lack of room on the way. A commit that stops in the middle leaves columns of different
lengths behind, but each of them keeps the values that were saved before.
-/

namespace Columnar

variable {capacity : Nat} {path parent : String}

/-- What a commit of a value in the slot after the saved ones leads to. -/
inductive Node.Commits (capacity : Nat) (path : String) (type : ColumnType) (saved : List Value)
    (value : Value) : Node × Option Refusal → Prop where
  | closed (room : type.Room capacity (saved ++ [value]) (.ofType type)) :
      Commits capacity path type saved value (.saved capacity path type (saved ++ [value]), none)
  | short {node : Node} {shortage : Shortage} {column : String}
      (genuine : shortage.Genuine capacity) (unfit : ¬type.Fits capacity (saved ++ [value]))
      (keeps : node.Keeps capacity path type saved) :
      Commits capacity path type saved value (node, some (shortage.refusal column))

/-- What a commit of a row in the slot after the saved ones leads to. -/
inductive Nodes.Commits (capacity : Nat) (parent : String) (schema : Schema)
    (rows : List (List Value)) (row : List Value) : Nodes × Option Refusal → Prop where
  | closed (room : schema.Room capacity (rows ++ [row]) (Pending.ofSchema schema)) :
      Commits capacity parent schema rows row (.saved capacity parent schema (rows ++ [row]), none)
  | short {columns : Nodes} {shortage : Shortage} {column : String}
      (genuine : shortage.Genuine capacity) (unfit : ¬schema.Fits capacity (rows ++ [row]))
      (keeps : columns.Keeps capacity parent schema rows) :
      Commits capacity parent schema rows row (columns, some (shortage.refusal column))

private theorem commits_scalar_closed {type : ScalarType} {saved : List Value} {value : Scalar}
    (fits : type.Fits capacity (saved.map (Value.leaf type) ++ [value])) :
    Node.Commits capacity path (.scalar type) saved (.scalar value)
      (.scalar path (.ofScalars type capacity (saved.map (Value.leaf type) ++ [value])), none) := by
  have room : (ColumnType.scalar type).Room capacity (saved ++ [.scalar value])
      (.ofType (.scalar type)) := by
    refine Or.inr ?_
    rw [Pending.ofType, Pending.written, Option.toList_none, List.append_nil, map_leaf_append]
    exact fits
  have closed : Node.Commits capacity path (.scalar type) saved (.scalar value) _ := .closed room
  rw [Node.saved_scalar, map_leaf_append] at closed
  exact closed

private theorem commits_scalar {type : ScalarType} {saved : List Value} {pending : Pending}
    (room : (ColumnType.scalar type).Room capacity saved pending) :
    Node.Commits capacity path (.scalar type) saved (pending.close (.scalar type))
      ((Node.holding capacity path (.scalar type) saved pending).commit saved.length) := by
  simp only [ColumnType.Room] at room
  simp only [Node.holding, Node.commit, Pending.close]
  generalize pending.written = written at room ⊢
  cases written with
  | some value =>
    have filled := ScalarBuffer.fill_ofScalars_length type capacity
      (saved.map (Value.leaf type) ++ [value])
    rw [List.length_append, List.length_map, List.length_singleton] at filled
    have fits : type.Fits capacity (saved.map (Value.leaf type) ++ [value]) := by
      rcases room with empty | fits
      · simp at empty
      · exact fits
    simp only [Option.toList_some, Option.getD_some, filled]
    exact commits_scalar_closed fits
  | none =>
    simp only [Option.toList_none, List.append_nil] at room ⊢
    have filled := ScalarBuffer.fill_ofScalars_succ type capacity (saved.map (Value.leaf type))
    have measured := ScalarType.measures_pad room
    rw [List.length_map] at filled measured
    rw [filled]
    cases found : type.padShortage? capacity (saved.length + 1) with
    | some shortage =>
      have unfit := measured.not_fits found
      rw [← map_leaf_append] at unfit
      have keeps := Node.keeps_saved capacity path (.scalar type) saved
      rw [Node.saved_scalar] at keeps
      exact .short (measured.genuine shortage found) unfit keeps
    | none => exact commits_scalar_closed (measured.none_iff.mp found)

private theorem commits_array {element : ColumnType} {saved : List Value} {pending : Pending}
    (room : (ColumnType.array element).Room capacity saved pending) :
    Node.Commits capacity path (.array element) saved (pending.close (.array element))
      ((Node.holding capacity path (.array element) saved pending).commit saved.length) := by
  have items : (saved ++ [Value.array pending.closed]).flatMap Value.items =
      saved.flatMap Value.items ++ pending.closed := by
    rw [List.flatMap_append, List.flatMap_singleton]
    rfl
  have sizes : Value.sizes (saved ++ [.array pending.closed]) =
      Value.sizes saved ++ [pending.closed.length] := List.map_append
  -- The element in progress is cut off the entry before the slot is committed.
  have cut := Node.keeps_holding capacity path element
    (saved.flatMap Value.items ++ pending.closed) pending.current _ (Nat.le_refl _)
  rw [List.take_length] at cut
  have committed := Slots.commit_ofSizes capacity (Value.sizes saved)
    pending.closed.length
  rw [Value.length_sizes, Value.sum_sizes, ← List.length_append, ← sizes] at committed
  have measured := Slots.measures_commit capacity (Value.sizes (saved ++ [.array pending.closed]))
  rw [Value.length_sizes, Value.sum_sizes, items] at measured
  simp only [Node.holding, Node.commit, Pending.close, cut, committed]
  cases found : Slots.commitShortage? capacity (Value.sizes (saved ++ [.array pending.closed])) with
  | some shortage =>
    have unfit : ¬(ColumnType.array element).Fits capacity (saved ++ [.array pending.closed]) := by
      intro fits
      rw [ColumnType.Fits, items] at fits
      exact measured.not_fits found fits.1
    exact .short (measured.genuine shortage found) unfit
      (Node.keeps_array (Node.keeps_saved capacity path element _))
  | none =>
    have roomAfter : (ColumnType.array element).Room capacity (saved ++ [.array pending.closed])
        (.ofType (.array element)) := by
      have below := ColumnType.room_discard room.2
      refine ⟨Or.inr ?_, ?_⟩
      · rw [items]
        exact measured.none_iff.mp found
      · rw [items, Pending.ofType, Pending.closed, Pending.current, List.append_nil]
        exact below
    have closed : Node.Commits capacity path (.array element) saved (.array pending.closed) _ :=
      .closed roomAfter
    rw [Node.saved_array, items] at closed
    exact closed

private theorem commits_tuple {columns : Schema} {saved : List Value} {pending : Pending}
    (below : Nodes.Commits capacity path columns (saved.map Value.items)
      (Pending.closeEach columns pending.columns)
      ((Nodes.holding capacity path columns (saved.map Value.items) pending.columns).commit
        saved.length)) :
    Node.Commits capacity path (.tuple columns) saved (pending.close (.tuple columns))
      ((Node.holding capacity path (.tuple columns) saved pending).commit saved.length) := by
  have rows := map_items_append columns saved pending
  simp only [Node.holding, Node.commit]
  generalize (Nodes.holding capacity path columns (saved.map Value.items)
    pending.columns).commit saved.length = outcome at below ⊢
  cases below with
  | closed roomColumns =>
    have counted : max saved.length (saved.length + 1) = saved.length + 1 := by omega
    have roomAfter : (ColumnType.tuple columns).Room capacity
        (saved ++ [pending.close (.tuple columns)]) (.ofType (.tuple columns)) := by
      rw [ColumnType.Room, rows]
      exact roomColumns
    have closed : Node.Commits capacity path (.tuple columns) saved _ _ := .closed roomAfter
    rw [Node.saved_tuple, rows, List.length_append, List.length_singleton] at closed
    simp only [counted]
    exact closed
  | short genuine unfit keeps =>
    rw [← rows] at unfit
    exact .short genuine unfit (Node.keeps_tuple keeps)

private theorem commits_cons {name : String} {type : ColumnType} {rest : Schema}
    {rows : List (List Value)} {pendings : List Pending}
    (head : Node.Commits capacity (childPath parent name) type (rows.map Value.firstItem)
      ((Pending.first pendings).close type)
      ((Node.holding capacity (childPath parent name) type (rows.map Value.firstItem)
        (Pending.first pendings)).commit rows.length))
    (others : Nodes.Commits capacity parent rest (rows.map List.tail)
      (Pending.closeEach rest pendings.tail)
      ((Nodes.holding capacity parent rest (rows.map List.tail) pendings.tail).commit
        rows.length)) :
    Nodes.Commits capacity parent (.cons name type rest) rows
      (Pending.closeEach (.cons name type rest) pendings)
      ((Nodes.holding capacity parent (.cons name type rest) rows pendings).commit
        rows.length) := by
  have firsts : (rows ++ [Pending.closeEach (.cons name type rest) pendings]).map
      Value.firstItem =
        rows.map Value.firstItem ++ [(Pending.first pendings).close type] := List.map_append
  have tails : (rows ++ [Pending.closeEach (.cons name type rest) pendings]).map List.tail =
      rows.map List.tail ++ [Pending.closeEach rest pendings.tail] := List.map_append
  simp only [Nodes.holding, Nodes.commit]
  generalize (Node.holding capacity (childPath parent name) type (rows.map Value.firstItem)
    (Pending.first pendings)).commit rows.length = outcome at head ⊢
  cases head with
  | short genuine unfit keeps =>
    refine .short genuine ?_
      (Nodes.keeps_cons keeps (Nodes.keeps_holding capacity parent rest _ _))
    intro fits
    rw [Schema.Fits, firsts] at fits
    exact unfit fits.1
  | closed roomHead =>
    simp only
    generalize (Nodes.holding capacity parent rest (rows.map List.tail)
      pendings.tail).commit rows.length = outcome at others ⊢
    cases others with
    | short genuine unfit keeps =>
      -- The first column already has one value more than the others keep.
      refine .short genuine ?_
        (Nodes.keeps_cons (Node.keeps_holding capacity _ type _ _).ofAppend keeps)
      intro fits
      rw [Schema.Fits, tails] at fits
      exact unfit fits.2
    | closed roomOthers =>
      have roomAfter : (Schema.cons name type rest).Room capacity
          (rows ++ [Pending.closeEach (.cons name type rest) pendings])
          (Pending.ofSchema (.cons name type rest)) := by
        rw [Schema.Room, firsts, tails]
        exact ⟨roomHead, roomOthers⟩
      have closed : Nodes.Commits capacity parent (.cons name type rest) rows _ _ :=
        .closed roomAfter
      rw [Nodes.saved_cons, firsts, tails] at closed
      exact closed

mutual

/-- Committing the slot after the saved values closes what is in progress there. -/
theorem Node.commits_holding (capacity : Nat) : ∀ (path : String) (type : ColumnType)
    (saved : List Value) (pending : Pending), type.Room capacity saved pending →
    Node.Commits capacity path type saved (pending.close type)
      ((Node.holding capacity path type saved pending).commit saved.length)
  | _, .scalar _, _, _, room => commits_scalar room
  | _, .array _, _, _, room => commits_array room
  | path, .tuple columns, saved, pending, room => by
      have below := Nodes.commits_holding capacity path columns (saved.map Value.items)
        pending.columns room
      rw [List.length_map] at below
      exact commits_tuple below

/-- Committing the slot after the saved rows closes the row in progress, column by column. -/
theorem Nodes.commits_holding (capacity : Nat) : ∀ (parent : String) (schema : Schema)
    (rows : List (List Value)) (pendings : List Pending), schema.Room capacity rows pendings →
    Nodes.Commits capacity parent schema rows (Pending.closeEach schema pendings)
      ((Nodes.holding capacity parent schema rows pendings).commit rows.length)
  | _, .nil, _, _, _ => .closed trivial
  | parent, .cons name type rest, rows, pendings, room => by
      have head := Node.commits_holding capacity (childPath parent name) type
        (rows.map Value.firstItem) (Pending.first pendings) room.1
      have others := Nodes.commits_holding capacity parent rest (rows.map List.tail) pendings.tail
        room.2
      rw [List.length_map] at head others
      exact commits_cons head others

end

end Columnar
