import Chip8Vm.Failure
import Chip8Vm.Instruction.Mnemonic
import Chip8Vm.Registers

/-!
# The log

What happens is logged as data; the text of a line is made only when somebody
reads it.  A line is its severity, a blank and its message.
-/

namespace Chip8Vm

/-- How much a line of the log matters. -/
inductive Severity where
  | trace
  | debug
  | info
  | warn
  | error
  deriving DecidableEq

def Severity.label : Severity → String
  | .trace => "TRACE"
  | .debug => "DEBUG"
  | .info => "INFO"
  | .warn => "WARN"
  | .error => "ERROR"

/-- A machine about to execute an instruction, as far as the log shows it. -/
structure Trace where
  pc : Word
  word : Word
  instruction : Instruction
  registers : Registers
  index : Word
  depth : UInt8

namespace Trace

def registersText (registers : Registers) : String :=
  "[" ++ ", ".intercalate (registers.toList.map fun value => Numeral.hex 2 value.toNat)
    ++ "]"

/-- The address and word, the instruction in a column of sixteen characters,
then the registers, the index and the depth of the call stack. -/
def message (trace : Trace) : String :=
  Numeral.hex 3 trace.pc.toNat ++ ": " ++ Numeral.hex 4 trace.word.toNat ++ " "
    ++ leftAligned 16 trace.instruction.mnemonic
    ++ " v" ++ registersText trace.registers
    ++ " i" ++ Numeral.hex 3 trace.index.toNat
    ++ " sp" ++ Numeral.decimal trace.depth.toNat

end Trace

/-- Something that happened. -/
inductive LogRecord where
  | machineReset
  | programLoaded (size : Nat)
  | wordSkipped (failure : Failure)
  | executing (trace : Trace)
  | romLoaded (name : String)
  | halting (failure : Failure)
  | windowClosed

namespace LogRecord

def severity : LogRecord → Severity
  | .executing _ => .trace
  | .machineReset | .programLoaded _ => .debug
  | .romLoaded _ | .windowClosed => .info
  | .wordSkipped _ => .warn
  | .halting _ => .error

def message : LogRecord → String
  | .machineReset => "resetting machine state"
  | .programLoaded size => "loaded " ++ Numeral.decimal size ++ " byte program"
  | .wordSkipped failure => failure.message ++ ", skipping"
  | .executing trace => trace.message
  | .romLoaded name => "loaded ROM " ++ name
  | .halting failure => "halting: " ++ failure.message
  | .windowClosed => "window closed, exiting"

def line (record : LogRecord) : String :=
  record.severity.label ++ " " ++ record.message

/-- The records that are not mere traces. -/
def notable (log : List LogRecord) : List LogRecord :=
  log.filter fun record => record.severity != .trace

end LogRecord

end Chip8Vm
