/-!
# Data registers

Sixteen byte registers, `V0` to `VF`.  The last one also receives the carry,
borrow and collision flags.
-/

namespace Chip8Vm

/-- The number of a data register. -/
abbrev Register := Fin 16

/-- The contents of the data registers. -/
abbrev Registers := Vector UInt8 16

namespace Registers

def first : Register := 0

/-- The register `VF`, which receives flags. -/
def flag : Register := 15

def zero : Registers :=
  Vector.replicate 16 0

def read (registers : Registers) (register : Register) : UInt8 :=
  registers[register]

def write (registers : Registers) (register : Register) (value : UInt8) : Registers :=
  registers.set register value

/-- Sets the flag, then the result, so that a result in the flag register is
what remains there. -/
def writeFlagged (registers : Registers) (register : Register)
    (flagged : Bool) (result : UInt8) : Registers :=
  (registers.write flag flagged.toUInt8).write register result

def upTo (registers : Registers) (last : Register) : List UInt8 :=
  registers.toList.take (last + 1)

/-- Fills the registers from `V0` up to `last` by their numbers. -/
def fillUpTo (registers : Registers) (last : Register) (value : Register → UInt8) :
    Registers :=
  Vector.ofFn fun register =>
    if register ≤ last then value register else registers.read register

theorem read_write (registers : Registers) (written register : Register) (value : UInt8) :
    (registers.write written value).read register =
      if written = register then value else registers.read register := by
  simp [read, write, Vector.getElem_set, Fin.ext_iff]

theorem read_writeFlagged (registers : Registers) (written register : Register)
    (flagged : Bool) (result : UInt8) :
    (registers.writeFlagged written flagged result).read register =
      if written = register then result
      else if flag = register then flagged.toUInt8
      else registers.read register := by
  simp [writeFlagged, read_write]

theorem read_fillUpTo (registers : Registers) (last register : Register)
    (value : Register → UInt8) :
    (registers.fillUpTo last value).read register =
      if register ≤ last then value register else registers.read register := by
  simp [fillUpTo, read]

end Registers

end Chip8Vm
