import Chip8Vm.ByteSource
import Chip8Vm.Machine.Cycle

/-!
# Loading programs

A program is copied verbatim to its place in memory.  One that does not fit is
refused, and so is a source that breaks; both leave the machine as it was.
-/

namespace Chip8Vm

namespace Machine

/-- Copies a program into memory if it fits. -/
def loadProgram (machine : Machine) (program : List UInt8) : Reply :=
  if program.length ≤ Memory.maxProgramSize then
    { response := .done
      machine :=
        { machine with memory := machine.memory.writeAll Memory.programStart program }
      log := [.programLoaded program.length] }
  else
    { response := .failed (.programTooLarge program.length Memory.maxProgramSize)
      machine := machine
      log := [] }

/-- Loads a program from a source.  One byte more than fits is read, so that a
program that is too large is refused rather than cut off. -/
def loadRom (machine : Machine) (source : ByteSource) : Reply :=
  match source.readUpTo (Memory.maxProgramSize + 1) with
  | .ok program => machine.loadProgram program
  | .error reason =>
      { response := .failed (.unreadable reason)
        machine := machine
        log := [] }

end Machine

end Chip8Vm
