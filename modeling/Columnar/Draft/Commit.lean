import Columnar.Draft.Node
import Columnar.Refusal

/-!
# Commits and cuts

Committing a slot closes what was written for it in a whole column: values that are missing take
their defaults, and elements that were not saved are dropped. Cutting a column goes back to a
number of slots, in the column and in everything below it.
-/

namespace Columnar

/-- The refusal of a column that has no room. -/
def Shortage.refusal (shortage : Shortage) (column : String) : Refusal :=
  .overflow (.buffer column shortage.requested shortage.capacity)

mutual

/-- Goes back to the first `count` values or slots. The elements of an array go back to the end of
its last slot. -/
def Node.truncate (count : Nat) : Node → Node
  | .scalar path values => .scalar path (values.truncate count)
  | .array path slots _ entry =>
      let slots := slots.truncate count
      let last := slots.lastOffset
      .array path slots last (entry.truncate last)
  | .tuple path shared columns => .tuple path (min shared count) (columns.truncate count)

/-- Goes back to the first `count` values or slots of every column. -/
def Nodes.truncate (count : Nat) : Nodes → Nodes
  | .nil => .nil
  | .cons name node rest => .cons name (node.truncate count) (rest.truncate count)

end

mutual

/-- Closes a slot of a column. An array ends the slot at its elements, after cutting its entry to
as many; a tuple closes the slot in its columns first. -/
def Node.commit (slot : Nat) : Node → Node × Option Refusal
  | .scalar path values =>
      let (values, shortage) := values.fill (slot + 1)
      (.scalar path values, shortage.map fun cause => cause.refusal path)
  | .array path slots elements entry =>
      let entry := entry.truncate elements
      let (slots, shortage) := slots.commit slot elements
      (.array path slots elements entry, shortage.map fun cause => cause.refusal path)
  | .tuple path shared columns =>
      match columns.commit slot with
      | (columns, some refusal) => (.tuple path shared columns, some refusal)
      | (columns, none) => (.tuple path (max shared (slot + 1)) columns, none)

/-- Closes a slot of every column in order, up to the first that refuses. -/
def Nodes.commit (slot : Nat) : Nodes → Nodes × Option Refusal
  | .nil => (.nil, none)
  | .cons name node rest =>
      match node.commit slot with
      | (node, some refusal) => (.cons name node rest, some refusal)
      | (node, none) =>
          let (rest, refusal) := rest.commit slot
          (.cons name node rest, refusal)

end

mutual

/-- Empties every buffer of a column. The number of elements written stays as it was. -/
def Node.reset : Node → Node
  | .scalar path values => .scalar path values.reset
  | .array path slots elements entry => .array path slots.reset elements entry.reset
  | .tuple path _ columns => .tuple path 0 columns.reset

/-- Empties every buffer of every column. -/
def Nodes.reset : Nodes → Nodes
  | .nil => .nil
  | .cons name node rest => .cons name node.reset rest.reset

end

mutual

/-- The data of a column as it would be sealed, put together from the bottom up. -/
def Node.data? : Node → Except AssemblyError ColumnData
  | .scalar _ values => values.toLeaf?.map .leaf
  | .array _ slots _ entry => do
      let items ← entry.data?
      ColumnData.ofItems? slots.offsets items
  | .tuple _ _ columns => do
      let datas ← columns.datas?
      ColumnData.ofColumns? columns.names datas

/-- The data of every column, in order. -/
def Nodes.datas? : Nodes → Except AssemblyError (List ColumnData)
  | .nil => .ok []
  | .cons _ node rest => do
      let data ← node.data?
      let datas ← rest.datas?
      pure (data :: datas)

end

end Columnar
