import Chip8Vm.Memory

/-!
# Built-in glyphs

The sixteen hexadecimal digits are drawn from four by five glyphs that stand
in low memory from power-on.  A byte of a glyph is one row of it, and only its
high nibble is ever lit.
-/

namespace Chip8Vm

namespace Glyph

def sheetStart : Word := 0x050

/-- The number of rows, and so of bytes, of a glyph. -/
def height : Word := 5

/-- The rows of the sixteen glyphs, one digit after the other. -/
def sheet : List UInt8 :=
  [ 0xF0, 0x90, 0x90, 0x90, 0xF0,
    0x20, 0x60, 0x20, 0x20, 0x70,
    0xF0, 0x10, 0xF0, 0x80, 0xF0,
    0xF0, 0x10, 0xF0, 0x10, 0xF0,
    0x90, 0x90, 0xF0, 0x10, 0x10,
    0xF0, 0x80, 0xF0, 0x10, 0xF0,
    0xF0, 0x80, 0xF0, 0x90, 0xF0,
    0xF0, 0x10, 0x20, 0x40, 0x40,
    0xF0, 0x90, 0xF0, 0x90, 0xF0,
    0xF0, 0x90, 0xF0, 0x10, 0xF0,
    0xF0, 0x90, 0xF0, 0x90, 0x90,
    0xE0, 0x90, 0xE0, 0x90, 0xE0,
    0xF0, 0x80, 0x80, 0x80, 0xF0,
    0xE0, 0x90, 0x90, 0x90, 0xE0,
    0xF0, 0x80, 0xF0, 0x80, 0xF0,
    0xF0, 0x80, 0xF0, 0x80, 0x80 ]

/-- The address of the glyph of a digit.  A value above fifteen is no digit,
and its address lies past the end of the sheet. -/
def address (value : UInt8) : Word :=
  sheetStart + value.toUInt16 * height

theorem toNat_address (value : UInt8) :
    (address value).toNat = 0x50 + value.toNat * 5 := by
  have bound := value.toNat_lt
  simp [address, sheetStart, height, UInt16.toNat_add, UInt16.toNat_mul]
  omega

end Glyph

/-- Memory at power-on: the glyphs in their place and zero everywhere else. -/
def Memory.powerOn : Memory :=
  Memory.writeAll (Vector.replicate 4096 0) Glyph.sheetStart Glyph.sheet

end Chip8Vm
