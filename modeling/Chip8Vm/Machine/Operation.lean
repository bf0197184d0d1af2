import Chip8Vm.Machine.Program

/-!
# Driving a machine

The operations are everything that can be asked of a machine from outside.
They never fail to give a machine back, so any list of them can be performed,
past failures too.
-/

namespace Chip8Vm

/-- Something asked of a machine from outside. -/
inductive Operation where
  | reset
  | loadProgram (program : List UInt8)
  | loadRom (source : ByteSource)
  | setKeys (keypad : Keypad)
  | pressKey (name : UInt8)
  | releaseKey (name : UInt8)
  | clearRedraw
  | tick
  | cycle
  | step

namespace Machine

/-- Everything back to power-on except the random draws already taken. -/
def reset (machine : Machine) : Machine :=
  powerOn machine.random

def setKeys (machine : Machine) (keypad : Keypad) : Machine :=
  { machine with keypad := keypad }

def pressKey (machine : Machine) (name : UInt8) : Machine :=
  { machine with keypad := machine.keypad.press name }

def releaseKey (machine : Machine) (name : UInt8) : Machine :=
  { machine with keypad := machine.keypad.release name }

/-- Notes that the screen has been shown. -/
def clearRedraw (machine : Machine) : Machine :=
  { machine with redraw := false }

def perform (machine : Machine) : Operation → Reply
  | .reset =>
      { response := .done
        machine := machine.reset
        log := [.machineReset] }
  | .loadProgram program => machine.loadProgram program
  | .loadRom source => machine.loadRom source
  | .setKeys keypad =>
      { response := .done
        machine := machine.setKeys keypad
        log := [] }
  | .pressKey name =>
      { response := .done
        machine := machine.pressKey name
        log := [] }
  | .releaseKey name =>
      { response := .done
        machine := machine.releaseKey name
        log := [] }
  | .clearRedraw =>
      { response := .done
        machine := machine.clearRedraw
        log := [] }
  | .tick =>
      { response := .done
        machine := machine.tick
        log := [] }
  | .cycle => machine.cycle
  | .step => machine.step

/-- Performs operations one after the other and collects their replies. -/
def performAll (machine : Machine) : List Operation → List Reply
  | [] => []
  | operation :: rest =>
      let reply := machine.perform operation
      reply :: reply.machine.performAll rest

def after (machine : Machine) (operations : List Operation) : Machine :=
  operations.foldl (fun current operation => (current.perform operation).machine) machine

end Machine

/-- The outcome of a number of steps made in a row. -/
structure Burst where
  steps : Nat
  malformed : Nat
  awaiting : Nat
  last : Option Response
  machine : Machine
  log : List LogRecord

namespace Burst

def idle (machine : Machine) : Burst where
  steps := 0
  malformed := 0
  awaiting := 0
  last := none
  machine := machine
  log := []

/-- The burst that makes one step before all others. -/
def precededBy (burst : Burst) (reply : Reply) : Burst where
  steps := burst.steps + 1
  malformed :=
    burst.malformed + (match reply.response with | .failed (.malformed _ _) => 1 | _ => 0)
  awaiting := burst.awaiting + (if reply.response = .awaitingKey then 1 else 0)
  last := some (burst.last.getD reply.response)
  machine := burst.machine
  log := reply.log ++ burst.log

end Burst

/-- Makes up to `count` steps and stops after a fatal one. -/
def Machine.burst (machine : Machine) : Nat → Burst
  | 0 => .idle machine
  | count + 1 =>
      let reply := machine.step
      if reply.response.isFatal then
        (Burst.idle reply.machine).precededBy reply
      else
        (reply.machine.burst count).precededBy reply

end Chip8Vm
