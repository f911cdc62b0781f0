import Columnar.Buffer.Basic

/-!
# Stores

Numbered buffers. Numbers are handed out in order and never reused, so the parts of a column are
found by the numbers its buffer names. Freezing a buffer freezes its parts first and leaves all of
them empty.
-/

namespace Columnar

/-- Buffers, numbered from zero. -/
structure Store where
  buffers : Array Buffer
  deriving DecidableEq

namespace Store

/-- A store without buffers. -/
def empty : Store :=
  ⟨#[]⟩

/-- The number of buffers. -/
def size (store : Store) : Nat :=
  store.buffers.size

/-- The buffer of a number. -/
def get? (store : Store) (id : Nat) : Option Buffer :=
  store.buffers[id]?

/-- Adds a buffer, and tells its number. -/
def push (store : Store) (buffer : Buffer) : Store × Nat :=
  (⟨store.buffers.push buffer⟩, store.size)

/-- Puts another buffer in the place of one. -/
def replace (store : Store) (id : Nat) (buffer : Buffer) : Store :=
  ⟨store.buffers.setIfInBounds id buffer⟩

/-- Whether some buffer has reached its limit. -/
def anyExhausted (store : Store) : Bool :=
  store.buffers.any Buffer.isExhausted

/-- Empties every buffer. -/
def reset (store : Store) : Store :=
  ⟨store.buffers.map Buffer.reset⟩

/-- Freezes buffers one after the other with `freeze`, up to the first that fails. -/
def freezeEach (freeze : Store → Nat → Store × Except AssemblyError ColumnData) :
    Store → List Nat → Store × Except AssemblyError (List ColumnData)
  | store, [] => (store, .ok [])
  | store, id :: rest =>
      match freeze store id with
      | (store, .error error) => (store, .error error)
      | (store, .ok data) =>
          match freezeEach freeze store rest with
          | (store, .error error) => (store, .error error)
          | (store, .ok datas) => (store, .ok (data :: datas))

/-- Freezes one buffer with the data of its parts. -/
def freezeOne (store : Store) (id : Nat) (parts : List ColumnData) :
    Store × Except AssemblyError ColumnData :=
  match store.get? id with
  | none => (store, .error (.unresolved id))
  | some buffer =>
      let (buffer, data) := buffer.freeze parts
      (store.replace id buffer, data)

/-- Freezes a buffer whose parts reach at most `depth` levels, counting its own. -/
def freezeWithin : Nat → Store → Nat → Store × Except AssemblyError ColumnData
  | 0, store, id => (store, .error (.unresolved id))
  | depth + 1, store, id =>
      match store.get? id with
      | none => (store, .error (.unresolved id))
      | some buffer =>
          match freezeEach (freezeWithin depth) store buffer.children with
          | (store, .error error) => (store, .error error)
          | (store, .ok parts) => store.freezeOne id parts

/-- Freezes a buffer: its parts in order, then itself. No chain of parts is longer than the number
of buffers, unless it comes back to a buffer on the way. -/
def freeze (store : Store) (id : Nat) : Store × Except AssemblyError ColumnData :=
  store.freezeWithin store.size id

end Store

end Columnar
