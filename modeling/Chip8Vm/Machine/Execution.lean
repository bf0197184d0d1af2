import Chip8Vm.Instruction.Listing
import Chip8Vm.Machine.Basic

/-!
# Executing an instruction

Execution either gives the machine that follows or says why there is none, and
then the machine is meant to be kept as it is.  Every instruction but the
jumps, the skips and the two of the call stack moves on to the following word.
-/

namespace Chip8Vm

/-- Why an instruction was not executed. -/
inductive Stop where
  | awaitingKey
  | failure (failure : Failure)
  | fault (fault : Fault)
  deriving DecidableEq

namespace Machine

def register (number : Nat) : Except Stop Register :=
  if valid : number < 16 then
    .ok ⟨number, valid⟩
  else
    .error (.fault (.noRegister number))

/-- The sum of an address and a byte, which has to fit in a word.  It is checked, as in
a build with overflow checks, and is a fault when it does not fit. -/
def addressSum (address : Word) (offset : UInt8) : Except Stop Nat :=
  let sum := address.toNat + offset.toNat
  if sum < 0x10000 then .ok sum else .error (.fault (.addressOverflow sum))

def goTo (machine : Machine) (address : Word) : Machine :=
  { machine with pc := Memory.wrap address }

/-- Moves on, and past one more word when the condition holds. -/
def skipIf (machine : Machine) (condition : Bool) : Machine :=
  { machine with
    pc := Memory.wrap (if condition then machine.pc + 4 else machine.pc + 2) }

def setRegister (machine : Machine) (x : Register) (value : UInt8) : Machine :=
  { machine.advanced with registers := machine.registers.write x value }

/-- Replaces the flag and then a register, and moves on. -/
def setFlagged (machine : Machine) (x : Register) (flagged : Bool) (value : UInt8) :
    Machine :=
  { machine.advanced with registers := machine.registers.writeFlagged x flagged value }

def clearScreen (machine : Machine) : Machine :=
  { machine.advanced with screen := .blank, redraw := true }

/-- Enters a subroutine; the return address is that of the call itself. -/
def enter (machine : Machine) (address : Word) : Except Stop Machine :=
  match machine.stack.push? machine.pc with
  | some stack => .ok { machine.goTo address with stack := stack }
  | none => .error (.failure (.stackOverflow machine.pc))

/-- Leaves a subroutine for the word after its call. -/
def leave (machine : Machine) : Except Stop Machine :=
  if machine.stack.depth = 0 then
    .error (.failure (.stackUnderflow machine.pc))
  else
    match machine.stack.top? with
    | some address =>
        .ok { machine with pc := following address, stack := machine.stack.pop }
    | none => .error (.fault (.noStackSlot machine.stack.depth))

def addRegisters (machine : Machine) (x y : Register) : Machine :=
  let left := machine.registers.read x
  let right := machine.registers.read y
  machine.setFlagged x (0x100 ≤ left.toNat + right.toNat) (left + right)

/-- Puts `minuend - subtrahend` into a register; the flag says that nothing
was borrowed. -/
def setDifference (machine : Machine) (x : Register) (minuend subtrahend : UInt8) :
    Machine :=
  machine.setFlagged x (subtrahend ≤ minuend) (minuend - subtrahend)

/-- Halves a register, with the bit shifted out as the flag. -/
def halve (machine : Machine) (x : Register) : Machine :=
  let value := machine.registers.read x
  machine.setFlagged x (value.toNat % 2 = 1) (value / 2)

/-- Doubles a register, with the bit shifted out as the flag. -/
def double (machine : Machine) (x : Register) : Machine :=
  let value := machine.registers.read x
  machine.setFlagged x (0x80 ≤ value.toNat) (value + value)

def setIndex (machine : Machine) (address : Word) : Machine :=
  { machine.advanced with index := address }

/-- Points the index at a sum, with leaving memory as the flag. -/
def setIndexSum (machine : Machine) (sum : Nat) : Machine :=
  { machine.advanced with
    index := Memory.wrap (UInt16.ofNat sum)
    registers := machine.registers.write Registers.flag (decide (0x1000 ≤ sum)).toUInt8 }

/-- Takes a random byte and keeps the bits set in `mask`. -/
def setRandom (machine : Machine) (x : Register) (mask : UInt8) : Machine :=
  { machine.setRegister x (machine.random.nextByte &&& mask) with
    random := machine.random.advance }

/-- The pixels under the sprite of `rows` bytes at the index, its corner given
by two registers. -/
def spriteCells (machine : Machine) (x y : Register) (rows : UInt8) :
    List Screen.Cell :=
  Sprite.cells (machine.registers.read y).toNat (machine.registers.read x).toNat
    (machine.memory.readAll machine.index rows.toNat)

/-- Flips pixels, with a collision as the flag. -/
def flipCells (machine : Machine) (cells : List Screen.Cell) : Machine :=
  { machine.advanced with
    screen := machine.screen.flipAll cells
    registers :=
      machine.registers.write Registers.flag (machine.screen.collides cells).toUInt8
    redraw := true }

def storeAtIndex (machine : Machine) (values : List UInt8) : Machine :=
  { machine.advanced with memory := machine.memory.writeAll machine.index values }

def decimalDigits (value : UInt8) : List UInt8 :=
  [value / 100, value / 10 % 10, value % 10]

/-- Loads the registers from `V0` up to `x` from the index on. -/
def loadFromIndex (machine : Machine) (x : Register) : Machine :=
  { machine.advanced with
    registers := machine.registers.fillUpTo x fun register =>
      machine.memory.read (machine.index + UInt16.ofNat register.val) }

/-- The machine after an instruction, or why the instruction was not executed. -/
def execute (machine : Machine) : Instruction → Except Stop Machine
  | .clearScreen => .ok machine.clearScreen
  | .ret => machine.leave
  | .jump nnn => .ok (machine.goTo nnn)
  | .call nnn => machine.enter nnn
  | .skipIfByte x nn => do
      let x ← register x
      return machine.skipIf (machine.registers.read x == nn)
  | .skipUnlessByte x nn => do
      let x ← register x
      return machine.skipIf (machine.registers.read x != nn)
  | .skipIfSame x y => do
      let x ← register x
      let y ← register y
      return machine.skipIf (machine.registers.read x == machine.registers.read y)
  | .loadByte x nn => do
      let x ← register x
      return machine.setRegister x nn
  | .addByte x nn => do
      let x ← register x
      return machine.setRegister x (machine.registers.read x + nn)
  | .copy x y => do
      let x ← register x
      let y ← register y
      return machine.setRegister x (machine.registers.read y)
  | .or x y => do
      let x ← register x
      let y ← register y
      return machine.setRegister x (machine.registers.read x ||| machine.registers.read y)
  | .and x y => do
      let x ← register x
      let y ← register y
      return machine.setRegister x (machine.registers.read x &&& machine.registers.read y)
  | .xor x y => do
      let x ← register x
      let y ← register y
      return machine.setRegister x (machine.registers.read x ^^^ machine.registers.read y)
  | .add x y => do
      let x ← register x
      let y ← register y
      return machine.addRegisters x y
  | .sub x y => do
      let x ← register x
      let y ← register y
      return machine.setDifference x (machine.registers.read x) (machine.registers.read y)
  | .shiftRight x => do
      let x ← register x
      return machine.halve x
  | .subFrom x y => do
      let x ← register x
      let y ← register y
      return machine.setDifference x (machine.registers.read y) (machine.registers.read x)
  | .shiftLeft x => do
      let x ← register x
      return machine.double x
  | .skipUnlessSame x y => do
      let x ← register x
      let y ← register y
      return machine.skipIf (machine.registers.read x != machine.registers.read y)
  | .loadIndex nnn => .ok (machine.setIndex (Memory.wrap nnn))
  | .jumpFrom nnn => do
      let sum ← addressSum nnn (machine.registers.read Registers.first)
      return machine.goTo (UInt16.ofNat sum)
  | .random x nn => do
      let x ← register x
      return machine.setRandom x nn
  | .draw x y n => do
      let x ← register x
      let y ← register y
      return machine.flipCells (machine.spriteCells x y n)
  | .skipIfKey x => do
      let x ← register x
      return machine.skipIf (machine.keypad.isDown (machine.registers.read x))
  | .skipUnlessKey x => do
      let x ← register x
      return machine.skipIf (!machine.keypad.isDown (machine.registers.read x))
  | .readDelay x => do
      let x ← register x
      return machine.setRegister x machine.timers.delay
  | .waitKey x =>
      match machine.keypad.lowest? with
      | none => .error .awaitingKey
      | some key => do
          let x ← register x
          return machine.setRegister x (UInt8.ofNat key.val)
  | .setDelay x => do
      let x ← register x
      return { machine.advanced with
        timers := { machine.timers with delay := machine.registers.read x } }
  | .setSound x => do
      let x ← register x
      return { machine.advanced with
        timers := { machine.timers with sound := machine.registers.read x } }
  | .addIndex x => do
      let x ← register x
      let sum ← addressSum machine.index (machine.registers.read x)
      return machine.setIndexSum sum
  | .loadGlyph x => do
      let x ← register x
      return machine.setIndex (Glyph.address (machine.registers.read x))
  | .storeDecimal x => do
      let x ← register x
      return machine.storeAtIndex (decimalDigits (machine.registers.read x))
  | .storeRegisters x => do
      let x ← register x
      return machine.storeAtIndex (machine.registers.upTo x)
  | .loadRegisters x => do
      let x ← register x
      return machine.loadFromIndex x

end Machine

end Chip8Vm
