import Chip8Vm.Word

/-!
# The instruction set

Thirty-four instructions.  Register operands are plain numbers, so that an
instruction can also name a register that no machine has; a decoded
instruction never does.
-/

namespace Chip8Vm

/-- An instruction with its operands: registers `x` and `y`, a row count `n`,
a byte `nn` or an address `nnn`. -/
inductive Instruction where
  | clearScreen
  | ret
  | jump (nnn : Word)
  | call (nnn : Word)
  | skipIfByte (x : Nat) (nn : UInt8)
  | skipUnlessByte (x : Nat) (nn : UInt8)
  | skipIfSame (x y : Nat)
  | loadByte (x : Nat) (nn : UInt8)
  | addByte (x : Nat) (nn : UInt8)
  | copy (x y : Nat)
  | or (x y : Nat)
  | and (x y : Nat)
  | xor (x y : Nat)
  | add (x y : Nat)
  | sub (x y : Nat)
  | shiftRight (x : Nat)
  | subFrom (x y : Nat)
  | shiftLeft (x : Nat)
  | skipUnlessSame (x y : Nat)
  | loadIndex (nnn : Word)
  | jumpFrom (nnn : Word)
  | random (x : Nat) (nn : UInt8)
  | draw (x y : Nat) (n : UInt8)
  | skipIfKey (x : Nat)
  | skipUnlessKey (x : Nat)
  | readDelay (x : Nat)
  | waitKey (x : Nat)
  | setDelay (x : Nat)
  | setSound (x : Nat)
  | addIndex (x : Nat)
  | loadGlyph (x : Nat)
  | storeDecimal (x : Nat)
  | storeRegisters (x : Nat)
  | loadRegisters (x : Nat)
  deriving DecidableEq

end Chip8Vm
