import Columnar.Schema.Path

/-!
# Layout

The numbering of the buffers and of the cursors that a draft of a schema has. There is one buffer
for each column at every depth, the buffers of the parts numbered before that of the whole, and one
cursor for the rows and one for the elements of each array.
-/

namespace Columnar

/-- The place of one buffer. -/
structure Placement where
  /-- The path of the column. -/
  path : String
  /-- The cursor that tells where the column is written. -/
  position : Nat
  /-- The cursor that an array keeps for its elements. -/
  elements? : Option Nat
  /-- Whether the column is the scalar entry of an array, so that every value is an element. -/
  appends : Bool
  /-- The buffers of the parts. -/
  children : List Nat
  deriving DecidableEq

/-- The places of all buffers, by their numbers, and the number of cursors. -/
structure Layout where
  placements : Array Placement
  cursors : Nat
  deriving DecidableEq

namespace Layout

/-- The cursor of the rows. -/
def rowCursor : Nat := 0

/-- No buffers, and the cursor of the rows. -/
def empty : Layout :=
  ⟨#[], 1⟩

/-- The number of buffers. -/
def size (layout : Layout) : Nat :=
  layout.placements.size

/-- Gives a buffer the next number. -/
def place (layout : Layout) (placement : Placement) : Layout × Nat :=
  ({ layout with placements := layout.placements.push placement }, layout.size)

/-- Gives a cursor the next number. -/
def addCursor (layout : Layout) : Layout × Nat :=
  ({ layout with cursors := layout.cursors + 1 }, layout.cursors)

end Layout

/-- Whether a column type is a scalar. -/
def ColumnType.isScalar : ColumnType → Bool
  | .scalar _ => true
  | _ => false

mutual

/-- Numbers the buffers and cursors of a column that is written at a cursor, and tells the number
of its own buffer. -/
def ColumnType.layOut (path : String) (position : Nat) (appends : Bool) :
    ColumnType → Layout → Layout × Nat
  | .scalar _, layout => layout.place ⟨path, position, none, appends, []⟩
  | .array element, layout =>
      let (layout, cursor) := layout.addCursor
      let (layout, entry) := element.layOut path cursor element.isScalar layout
      layout.place ⟨path, position, some cursor, false, [entry]⟩
  | .tuple columns, layout =>
      let (layout, children) := columns.layOut path position layout
      layout.place ⟨path, position, none, false, children⟩

/-- Numbers the buffers and cursors of columns below a path, and tells the numbers of their own
buffers. -/
def Schema.layOut (parent : String) (position : Nat) :
    Schema → Layout → Layout × List Nat
  | .nil, layout => (layout, [])
  | .cons name type rest, layout =>
      let (layout, id) := type.layOut (childPath parent name) position false layout
      let (layout, ids) := rest.layOut parent position layout
      (layout, id :: ids)

end

/-- The layout of a draft of a schema, and the numbers of the buffers of its columns. -/
def Layout.ofSchema (schema : Schema) : Layout × List Nat :=
  schema.layOut "" rowCursor empty

end Columnar
