/-!
# The screen

The screen is 32 rows of 64 pixels, each lit or dark.  Drawing only ever flips
pixels, and a collision is a flip of a pixel that was lit at that moment.
-/

namespace Chip8Vm

/-- The pixels of the screen by row and column. -/
abbrev Screen := Vector (Vector Bool 64) 32

namespace Screen

def width : Nat := 64

def height : Nat := 32

def blank : Screen :=
  Vector.replicate 32 (Vector.replicate 64 false)

/-- The place of a pixel on the screen. -/
structure Cell where
  row : Fin 32
  column : Fin 64
  deriving DecidableEq

/-- The pixel at any distance below and right of the corner; both directions
wrap around the edges on their own. -/
def cellAt (down right : Nat) : Cell where
  row := ⟨down % 32, Nat.mod_lt _ (by decide)⟩
  column := ⟨right % 64, Nat.mod_lt _ (by decide)⟩

def lit (screen : Screen) (cell : Cell) : Bool :=
  screen[cell.row][cell.column]

/-- The screen with one pixel changed from lit to dark or back. -/
def flip (screen : Screen) (cell : Cell) : Screen :=
  screen.set cell.row
    ((screen[cell.row]).set cell.column (!screen.lit cell))

def flipAll (screen : Screen) (cells : List Cell) : Screen :=
  cells.foldl flip screen

/-- Whether flipping pixels one after the other meets a lit one. -/
def collides (screen : Screen) : List Cell → Bool
  | [] => false
  | cell :: rest => screen.lit cell || (screen.flip cell).collides rest

theorem lit_blank (cell : Cell) : blank.lit cell = false := by
  simp [lit, blank]

theorem eq_of_lit {left right : Screen}
    (agree : ∀ cell, left.lit cell = right.lit cell) : left = right := by
  apply Vector.ext
  intro row rowBound
  apply Vector.ext
  intro column columnBound
  exact agree ⟨⟨row, rowBound⟩, ⟨column, columnBound⟩⟩

theorem lit_flip (screen : Screen) (flipped cell : Cell) :
    (screen.flip flipped).lit cell =
      if flipped = cell then !screen.lit cell else screen.lit cell := by
  obtain ⟨flippedRow, flippedColumn⟩ := flipped
  obtain ⟨row, column⟩ := cell
  by_cases sameRow : flippedRow = row
  · subst sameRow
    by_cases sameColumn : flippedColumn = column
    · subst sameColumn
      simp [flip, lit]
    · have differ : flippedColumn.val ≠ column.val :=
        fun same => sameColumn (Fin.ext same)
      simp [flip, lit, sameColumn, differ]
  · have differ : flippedRow.val ≠ row.val := fun same => sameRow (Fin.ext same)
    simp [flip, lit, sameRow, differ]

end Screen

end Chip8Vm
