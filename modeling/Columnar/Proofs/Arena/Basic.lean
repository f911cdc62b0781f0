import Columnar.Buffer.Store
import Columnar.Draft.Basic

/-!
# Arenas

The columns of a draft as numbered buffers. Each buffer has a place, which tells the cursor that it
is written at, and arrays keep the number of their elements in a cursor of their own. Operations
start at the number of a buffer and walk from there to its parts.
-/

namespace Columnar

/-- Numbered buffers and their places, the cursors, and the buffers of the columns of the row. -/
structure Arena where
  store : Store
  placements : Array Placement
  cursors : Array Nat
  top : List Nat
  deriving DecidableEq

namespace Arena

/-- No buffers, and the cursor of the rows before the first row. -/
def empty : Arena :=
  ⟨.empty, #[], #[0], []⟩

/-- The places, and the number of cursors. -/
def layout (arena : Arena) : Layout :=
  ⟨arena.placements, arena.cursors.size⟩

/-- Gives a buffer and its place the next number. -/
def register (arena : Arena) (buffer : Buffer) (placement : Placement) : Arena × Nat :=
  let (store, id) := arena.store.push buffer
  ({ arena with store, placements := arena.placements.push placement }, id)

/-- Gives a cursor the next number. -/
def addCursor (arena : Arena) : Arena × Nat :=
  ({ arena with cursors := arena.cursors.push 0 }, arena.cursors.size)

/-- Puts another buffer in the place of one. -/
def put (arena : Arena) (id : Nat) (buffer : Buffer) : Arena :=
  { arena with store := arena.store.replace id buffer }

/-- Sets the cursor that an array keeps, if there is one. -/
def setCursor (arena : Arena) (cursor? : Option Nat) (elements : Nat) : Arena :=
  match cursor? with
  | some cursor => { arena with cursors := arena.cursors.setIfInBounds cursor elements }
  | none => arena

end Arena

/-! ### Registering a schema -/

mutual

/-- Registers the empty buffers of a column that is written at a cursor, the parts before the whole,
and tells the number of its own. -/
def ColumnType.register (capacity : Nat) (path : String) (position : Nat) (appends : Bool) :
    ColumnType → Arena → Arena × Nat
  | .scalar type, arena =>
      arena.register (.ofType type capacity) ⟨path, position, none, appends, []⟩
  | .array element, arena =>
      let (arena, cursor) := arena.addCursor
      let (arena, entry) := element.register capacity path cursor element.isScalar arena
      arena.register (.ofEntry entry capacity) ⟨path, position, some cursor, false, [entry]⟩
  | .tuple columns, arena =>
      let (arena, children) := columns.register capacity path position arena
      arena.register (.ofChildren columns.names children) ⟨path, position, none, false, children⟩

/-- Registers the empty buffers of columns below a path, and tells the numbers of their own. -/
def Schema.register (capacity : Nat) (parent : String) (position : Nat) :
    Schema → Arena → Arena × List Nat
  | .nil, arena => (arena, [])
  | .cons name type rest, arena =>
      let (arena, id) := type.register capacity (childPath parent name) position false arena
      let (arena, ids) := rest.register capacity parent position arena
      (arena, id :: ids)

end

/-- The arena of a draft of a schema that begins. -/
def Arena.ofSchema (schema : Schema) (limits : Limits) : Arena :=
  let (arena, top) := schema.register limits.bufferBytes "" Layout.rowCursor .empty
  { arena with top }

/-! ### Walks -/

/-- Where a walk over buffers ended: the arena then, the numbers that it came to, in order, and the
refusal that stopped it, if one did. -/
structure Walk where
  arena : Arena
  visited : List Nat
  refusal : Option Refusal
  deriving DecidableEq

/-- Ends a slot of an array at an element. -/
def Buffer.closeSlot (slot last : Nat) : Buffer → Buffer × Option Shortage
  | .slots entry ends =>
      let (ends, shortage) := ends.commit slot last
      (.slots entry ends, shortage)
  | buffer => (buffer, none)

namespace Walk

/-- The walk that came to a buffer first. -/
def visiting (id : Nat) (walk : Walk) : Walk :=
  { walk with visited := id :: walk.visited }

/-- Changes a buffer at the end of a walk that was not refused. A lack of room is a refusal. -/
def close (walk : Walk) (id : Nat) (change : Buffer → Buffer × Option Shortage) : Option Walk :=
  match walk.refusal with
  | some _ => some walk
  | none => do
      let buffer ← walk.arena.store.get? id
      let placement ← walk.arena.placements[id]?
      let (buffer, shortage) := change buffer
      some { walk with
        arena := walk.arena.put id buffer
        refusal := shortage.map fun cause => cause.refusal placement.path }

end Walk

namespace Arena

/-- Walks from buffers one after the other, up to the first walk that is refused. -/
def walkEach (walk : Nat → Arena → Option Walk) : List Nat → Arena → Option Walk
  | [], arena => some ⟨arena, [], none⟩
  | id :: rest, arena => do
      let first ← walk id arena
      match first.refusal with
      | some _ => some first
      | none => do
          let others ← walkEach walk rest first.arena
          some { others with visited := first.visited ++ others.visited }

/-- Goes back to the first `count` values or slots of a buffer and of all below it, which reach at
most `depth` levels. The cursor of an array goes back to the end of its last slot. Without a result
if there are more levels, or a number that no buffer has. -/
def truncateWithin : Nat → Nat → Nat → Arena → Option Walk
  | 0, _, _, _ => none
  | depth + 1, id, count, arena => do
      let buffer ← arena.store.get? id
      let placement ← arena.placements[id]?
      let cut := buffer.truncate count
      let arena := arena.put id cut
      let (arena, below) :=
        match cut with
        | .slots _ ends => (arena.setCursor placement.elements? ends.lastOffset, ends.lastOffset)
        | _ => (arena, count)
      let parts ← walkEach (truncateWithin depth · below) cut.children arena
      some (parts.visiting id)

/-- Closes a slot of a buffer and of all below it, which reach at most `depth` levels. An array ends
the slot at its cursor, after cutting what is below its entry to as many values; a tuple closes the
slot in its columns first. -/
def commitWithin : Nat → Nat → Nat → Arena → Option Walk
  | 0, _, _, _ => none
  | depth + 1, id, slot, arena => do
      match ← arena.store.get? id with
      | .slots entry ends => do
          let placement ← arena.placements[id]?
          let last ←
            match placement.elements? with
            | some cursor => arena.cursors[cursor]?
            | none => some ends.lastOffset
          let below ← truncateWithin depth entry last arena
          let closed ← below.close id (Buffer.closeSlot slot last)
          some (closed.visiting id)
      | buffer => do
          let below ← walkEach (commitWithin depth · slot) buffer.children arena
          let closed ← below.close id (Buffer.fill · (slot + 1))
          some (closed.visiting id)

end Arena

namespace Store

/-- Freezes buffers one after the other with `freeze`, up to the first that fails, and tells all
numbers that were come to. -/
def freezeEachVisiting
    (freeze : Store → Nat → (Store × Except AssemblyError ColumnData) × List Nat) :
    Store → List Nat → (Store × Except AssemblyError (List ColumnData)) × List Nat
  | store, [] => ((store, .ok []), [])
  | store, id :: rest =>
      match freeze store id with
      | ((store, .error error), visited) => ((store, .error error), visited)
      | ((store, .ok data), visited) =>
          match freezeEachVisiting freeze store rest with
          | ((store, .error error), others) => ((store, .error error), visited ++ others)
          | ((store, .ok datas), others) => ((store, .ok (data :: datas)), visited ++ others)

/-- Freezes a buffer whose parts reach at most `depth` levels, and tells the numbers that were come
to. -/
def freezeVisiting : Nat → Store → Nat → (Store × Except AssemblyError ColumnData) × List Nat
  | 0, store, id => ((store, .error (.unresolved id)), [])
  | depth + 1, store, id =>
      match store.get? id with
      | none => ((store, .error (.unresolved id)), [])
      | some buffer =>
          match freezeEachVisiting (freezeVisiting depth) store buffer.children with
          | ((store, .error error), visited) => ((store, .error error), id :: visited)
          | ((store, .ok parts), visited) => (store.freezeOne id parts, id :: visited)

end Store

end Columnar
