import Chip8Vm.Log
import Chip8Vm.Machine.Execution

/-!
# Cycles and steps

A cycle fetches, decodes and executes one word.  A malformed word is reported
and passed over; every other way of not executing leaves the machine as it
was.  A step is a cycle followed by a tick of the timers, which a fatal
failure withholds.
-/

namespace Chip8Vm

/-- What an operation has to say to whoever asked for it. -/
inductive Response where
  | done
  | executed (instruction : Instruction)
  | awaitingKey
  | failed (failure : Failure)
  | faulted (fault : Fault)
  deriving DecidableEq

namespace Response

def ofStop : Stop → Response
  | .awaitingKey => .awaitingKey
  | .failure failure => .failed failure
  | .fault fault => .faulted fault

/-- Whether the machine should not be driven any further. -/
def isFatal : Response → Bool
  | .failed failure => failure.isFatal
  | .faulted _ => true
  | .done | .executed _ | .awaitingKey => false

end Response

/-- The outcome of an operation: its response, the machine after it and what
it logged. -/
structure Reply where
  response : Response
  machine : Machine
  log : List LogRecord

namespace Machine

/-- What the log shows before an instruction is executed. -/
def trace (machine : Machine) (instruction : Instruction) : Trace where
  pc := machine.pc
  word := machine.fetch
  instruction := instruction
  registers := machine.registers
  index := machine.index
  depth := machine.stack.depth

/-- Passes over the word at the program counter; the sum of the address is checked. -/
def passOver (machine : Machine) : Except Stop Machine := do
  let sum ← addressSum machine.pc 2
  return machine.goTo (UInt16.ofNat sum)

def skipMalformed (machine : Machine) (failure : Failure) : Reply :=
  match machine.passOver with
  | .ok next =>
      { response := .failed failure
        machine := next
        log := [.wordSkipped failure] }
  | .error stop =>
      { response := .ofStop stop
        machine := machine
        log := [.wordSkipped failure] }

def attempt (machine : Machine) (instruction : Instruction) : Reply :=
  match machine.execute instruction with
  | .ok next =>
      { response := .executed instruction
        machine := next
        log := [.executing (machine.trace instruction)] }
  | .error stop =>
      { response := .ofStop stop
        machine := machine
        log := [.executing (machine.trace instruction)] }

def cycle (machine : Machine) : Reply :=
  match Instruction.decode machine.fetch machine.pc with
  | .ok instruction => machine.attempt instruction
  | .error failure => machine.skipMalformed failure

def tick (machine : Machine) : Machine :=
  { machine with timers := machine.timers.tick }

/-- One cycle and, unless it failed fatally, one tick. -/
def step (machine : Machine) : Reply :=
  let reply := machine.cycle
  if reply.response.isFatal then reply else { reply with machine := reply.machine.tick }

end Machine

end Chip8Vm
