import Chip8Vm.Failure
import Chip8Vm.Instruction.Encoding
import Chip8Vm.Instruction.Mnemonic

/-!
# Listings

A word found at an address is either an instruction or a failure that names
both, and a line of a listing shows whichever it is.
-/

namespace Chip8Vm

namespace Instruction

/-- The instruction of a word found at an address, or the failure it causes. -/
def decode (word pc : Word) : Except Failure Instruction :=
  match decode? word with
  | some instruction => .ok instruction
  | none => .error (.malformed word pc)

/-- The line of a listing for a word found at an address. -/
def listing (word pc : Word) : String :=
  match decode word pc with
  | .ok instruction => instruction.mnemonic
  | .error failure => failure.message

end Instruction

end Chip8Vm
