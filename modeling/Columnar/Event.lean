/-!
# Events

What a draft or a sealed set reports about its life: when it is bound, sealed or released, and when
a row is dropped.
-/

namespace Columnar

/-- The bounds of a batch: the rows it may have, and the bytes each of its buffers may have. -/
structure Limits where
  rows : Nat := 65536
  bufferBytes : Nat := 16777216
  deriving DecidableEq

/-- One report. -/
inductive Event where
  /-- A draft of so many columns and buffers was begun. -/
  | bound (columns buffers : Nat) (limits : Limits)
  /-- The row in progress was dropped because a column had no room for it. -/
  | rowOverflowed (row : Nat) (column : String) (requested capacity : Nat)
  /-- The row in progress was dropped because its values were not accepted. -/
  | rowDiscarded (row : Nat)
  /-- A draft became a batch. -/
  | batchSealed (rows columns : Nat)
  /-- Buffers or columns of so many rows were given up. -/
  | released (rows : Nat)
  deriving DecidableEq

namespace Event

/-- The weight of a report. Only a row lost for want of room is a warning. -/
def level : Event → String
  | .rowOverflowed .. => "WARN"
  | _ => "DEBUG"

/-- The content of a report. -/
def body : Event → String
  | .bound columns buffers limits =>
      s!"event=rowset_bind columns={columns} vectors={buffers} max_rows={limits.rows} " ++
        s!"max_buffer_bytes={limits.bufferBytes}"
  | .rowOverflowed row column requested capacity =>
      s!"event=row_discarded row={row} column={column} requested={requested} capacity={capacity}"
  | .rowDiscarded row => s!"event=row_discarded row={row}"
  | .batchSealed rows columns => s!"event=rowset_sealed rows={rows} columns={columns}"
  | .released rows => s!"event=rowset_released rows={rows}"

/-- The line that shows a report. -/
def text (event : Event) : String :=
  event.level ++ " " ++ event.body

end Event

end Columnar
