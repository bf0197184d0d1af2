import Chip8Vm.Screen

/-!
# Pictures

A picture is the screen as the host's display takes it: three bytes of colour
for each pixel, row by row, white where a pixel is lit and black elsewhere.
-/

namespace Chip8Vm

namespace Host

/-- The colour bytes of all pixels. -/
abbrev Picture := List UInt8

namespace Picture

def pixel (lit : Bool) : List UInt8 :=
  List.replicate 3 (if lit then 255 else 0)

def ofScreen (screen : Screen) : Picture :=
  screen.toList.flatMap fun row => row.toList.flatMap pixel

end Picture

end Host

end Chip8Vm
