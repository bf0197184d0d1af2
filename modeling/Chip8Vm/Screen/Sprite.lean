import Chip8Vm.Screen

/-!
# Sprites

A sprite is a column of bytes.  Each byte is a row of eight pixels, the most
significant bit leftmost, and a set bit flips the pixel under it.
-/

namespace Chip8Vm

namespace Sprite

/-- The columns of a row of a sprite that flip a pixel, from left to right. -/
def columns (row : UInt8) : List Nat :=
  (List.range 8).filter fun column => row.toNat.testBit (7 - column)

def rowCells (down right : Nat) (row : UInt8) : List Screen.Cell :=
  (columns row).map fun column => Screen.cellAt down (right + column)

/-- The pixels that a sprite flips when its corner stands at the given
distance below and right of the screen's corner. -/
def cells (down right : Nat) : List UInt8 → List Screen.Cell
  | [] => []
  | row :: rest => rowCells down right row ++ cells (down + 1) right rest

end Sprite

end Chip8Vm
