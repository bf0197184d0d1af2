import Chip8Vm.Text.Numeral
import Chip8Vm.Word

/-!
# Failures and faults

A failure is reported to whoever drives the machine, which stays usable.  A
fault is an access outside the machine: a register or stack slot that does not
exist, or an address sum that does not fit in a word.  No machine reaches a
fault by running from power-on; a hand-made machine or instruction can.
-/

namespace Chip8Vm

/-- What can go wrong while loading or running a program. -/
inductive Failure where
  | malformed (word pc : Word)
  | programTooLarge (size limit : Nat)
  | stackOverflow (pc : Word)
  | stackUnderflow (pc : Word)
  | unreadable (reason : String)
  deriving DecidableEq

namespace Failure

/-- Whether a program cannot meaningfully go on.  Only the two failures of the
call stack are fatal. -/
def isFatal : Failure → Bool
  | .stackOverflow _ | .stackUnderflow _ => true
  | .malformed _ _ | .programTooLarge _ _ | .unreadable _ => false

def message : Failure → String
  | .malformed word pc =>
      "Malformed opcode " ++ Numeral.hexLiteral 4 word.toNat
        ++ " at " ++ Numeral.hexLiteral 3 pc.toNat
  | .programTooLarge size limit =>
      "ROM is too large (" ++ Numeral.decimal size
        ++ " bytes), max size is " ++ Numeral.decimal limit ++ " bytes"
  | .stackOverflow pc =>
      "Stack overflow: call at " ++ Numeral.hexLiteral 3 pc.toNat
        ++ " with a full call stack"
  | .stackUnderflow pc =>
      "Stack underflow: return at " ++ Numeral.hexLiteral 3 pc.toNat
        ++ " with an empty call stack"
  | .unreadable reason => "Unable to read ROM (" ++ reason ++ ")"

end Failure

/-- An access outside the machine. -/
inductive Fault where
  | noRegister (number : Nat)
  | noStackSlot (depth : UInt8)
  | addressOverflow (sum : Nat)
  deriving DecidableEq

def Fault.message : Fault → String
  | .noRegister number => "There is no register " ++ Numeral.decimal number
  | .noStackSlot depth => "There is no stack slot below " ++ Numeral.decimal depth.toNat
  | .addressOverflow sum => "The address " ++ Numeral.hexLiteral 4 sum ++ " is too large"

end Chip8Vm
