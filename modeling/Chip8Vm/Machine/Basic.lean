import Chip8Vm.CallStack
import Chip8Vm.Glyph
import Chip8Vm.Keypad
import Chip8Vm.RandomStream
import Chip8Vm.Registers
import Chip8Vm.Screen.Sprite
import Chip8Vm.Timers

/-!
# The machine

A machine is one value: its registers, timers, memory, screen and keypad
together with its source of random bytes.
-/

namespace Chip8Vm

/-- Everything a program can observe or change, and the random draws to come. -/
structure Machine where
  registers : Registers
  index : Word
  pc : Word
  stack : CallStack
  timers : Timers
  memory : Memory
  screen : Screen
  redraw : Bool
  keypad : Keypad
  random : RandomStream

namespace Machine

def powerOn (random : RandomStream) : Machine where
  registers := .zero
  index := 0
  pc := Memory.programStart
  stack := .empty
  timers := .stopped
  memory := .powerOn
  screen := .blank
  redraw := false
  keypad := .released
  random := random

def fetch (machine : Machine) : Word :=
  Word.ofBytes (machine.memory.read machine.pc) (machine.memory.read (machine.pc + 1))

/-- The address of the word after the one at `address`. -/
def following (address : Word) : Word :=
  Memory.wrap (address + 2)

def advanced (machine : Machine) : Machine :=
  { machine with pc := following machine.pc }

/-- The time of a cycle at the usual speed, in nanoseconds. -/
def nanosecondsPerCycle : Nat := 2000000

end Machine

end Chip8Vm
