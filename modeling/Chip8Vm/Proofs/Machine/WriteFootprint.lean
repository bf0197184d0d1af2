import Chip8Vm.Proofs.Machine.Bounds
import Chip8Vm.Proofs.Machine.Effects

/-!
# What a cycle may write

For every part of the machine a table says which instructions may change it: the
cells of memory, the screen and its flag, the call stack, the index, the timers,
the registers and the way the program counter goes.  An executed instruction
changes nothing outside its entries.  The tables are stated apart from execution,
and what `Footprint` and `Effects` already say is only put into their words here.
-/

namespace Chip8Vm

namespace Instruction

/-- The numbers of the registers that an instruction may change. -/
def writtenRegisters : Instruction → List Nat
  | .loadByte x _ | .addByte x _ | .copy x _ | .or x _ | .and x _ | .xor x _
  | .random x _ | .readDelay x | .waitKey x => [x]
  | .add x _ | .sub x _ | .subFrom x _ | .shiftRight x | .shiftLeft x => [x, 15]
  | .draw _ _ _ | .addIndex _ => [15]
  | .loadRegisters x => List.range (x + 1)
  | _ => []

def setsIndex : Instruction → Bool
  | .loadIndex _ | .addIndex _ | .loadGlyph _ => true
  | _ => false

/-- The instructions that go on anywhere but a few words further. -/
def jumps : Instruction → Bool
  | .jump _ | .jumpFrom _ | .call _ | .ret => true
  | _ => false

end Instruction

namespace Machine

/-- The addresses from the index on, which go on at zero past the end of memory. -/
def cellsFromIndex (machine : Machine) (count : Nat) : List Nat :=
  (List.range count).map fun offset => (machine.index.toNat + offset) % 4096

def storedCells (machine : Machine) : Instruction → List Nat
  | .storeDecimal _ => machine.cellsFromIndex 3
  | .storeRegisters x => machine.cellsFromIndex (x + 1)
  | _ => []

/-- Whether the condition of a conditional skip holds.  There are six of them; no
other instruction skips. -/
def skips (machine : Machine) : Instruction → Bool
  | .skipIfByte x nn => machine.contents x == nn
  | .skipUnlessByte x nn => machine.contents x != nn
  | .skipIfSame x y => machine.contents x == machine.contents y
  | .skipUnlessSame x y => machine.contents x != machine.contents y
  | .skipIfKey x => machine.keypad.isDown (machine.contents x)
  | .skipUnlessKey x => !machine.keypad.isDown (machine.contents x)
  | _ => false

/-- What becomes of the registers, the index and the program counter: a register or
an index that is not to be written stays, and a program counter that does not jump
goes on by two, or by four past a skipped word. -/
structure Course (machine : Machine) (instruction : Instruction) (next : Machine) :
    Prop where
  registers : ∀ register : Register, register.val ∉ instruction.writtenRegisters →
    next.registers.read register = machine.registers.read register
  index : instruction.setsIndex = false → next.index = machine.index
  pc : instruction.jumps = false →
    next.pc.toNat = (machine.pc.toNat + if machine.skips instruction then 4 else 2) % 0x1000

/-- The machine after an executed instruction differs from the machine before in
nothing but what the instruction may write. -/
structure WriteFootprint (machine : Machine) (instruction : Instruction) (next : Machine) :
    Prop extends Course machine instruction next where
  memory : ∀ address : Fin 4096, address.val ∉ machine.storedCells instruction →
    next.memory.get address = machine.memory.get address
  screen : instruction.redraws = false →
    next.screen = machine.screen ∧ next.redraw = machine.redraw
  redraw : instruction.redraws = true → next.redraw = true
  stack : instruction.movesStack = false → next.stack = machine.stack
  called : ∀ nnn, instruction = .call nnn →
    next.stack.depth.toNat = machine.stack.depth.toNat + 1 ∧
      ∀ position : Fin 16, position.val ≠ machine.stack.depth.toNat →
        next.stack.slots.get position = machine.stack.slots.get position
  returned : instruction = .ret →
    next.stack.depth.toNat + 1 = machine.stack.depth.toNat ∧
      next.stack.slots = machine.stack.slots
  delay : (∀ x, instruction ≠ .setDelay x) → next.timers.delay = machine.timers.delay
  sound : (∀ x, instruction ≠ .setSound x) → next.timers.sound = machine.timers.sound
  keypad : next.keypad = machine.keypad
  random : instruction.draws = false → next.random = machine.random

/-! ## Registers, index and program counter -/

section Course

variable {machine next : Machine} {instruction : Instruction}

theorem Course.onward (registers : ∀ register : Register,
      register.val ∉ instruction.writtenRegisters →
      next.registers.read register = machine.registers.read register)
    (index : instruction.setsIndex = false → next.index = machine.index)
    (pc : next.pc = following machine.pc) (straight : machine.skips instruction = false) :
    Course machine instruction next where
  registers := registers
  index := index
  pc := by
    intro _
    rw [pc, straight, toNat_following]
    rfl

theorem Course.jump (jumps : instruction.jumps = true)
    (registers : next.registers = machine.registers) (index : next.index = machine.index) :
    Course machine instruction next where
  registers := fun register _ => by rw [registers]
  index := fun _ => index
  pc := by
    intro straight
    cases jumps.symm.trans straight

theorem toNat_pc_skipIf (machine : Machine) (condition : Bool) :
    (machine.skipIf condition).pc.toNat =
      (machine.pc.toNat + if condition then 4 else 2) % 0x1000 := by
  refine (Memory.toNat_wrap _).trans ?_
  cases condition
  · change (machine.pc + 2).toNat % 4096 = (machine.pc.toNat + 2) % 4096
    simp [UInt16.toNat_add]
  · change (machine.pc + 4).toNat % 4096 = (machine.pc.toNat + 4) % 4096
    simp [UInt16.toNat_add]

theorem skipIf_course {condition : Bool} (holds : condition = machine.skips instruction) :
    Course machine instruction (machine.skipIf condition) where
  registers := fun _ _ => rfl
  index := fun _ => rfl
  pc := by
    intro _
    rw [← holds]
    exact machine.toNat_pc_skipIf condition

theorem read_write_outside (registers : Registers) {x register : Register} (value : UInt8)
    {numbers : List Nat} (written : x.val ∈ numbers) (outside : register.val ∉ numbers) :
    (registers.write x value).read register = registers.read register := by
  have other : x ≠ register := by
    intro same
    subst same
    exact outside written
  rw [Registers.read_write, if_neg other]

theorem setRegister_course {x : Register} {value : UInt8}
    (written : instruction.writtenRegisters = [x.val])
    (straight : machine.skips instruction = false) :
    Course machine instruction (machine.setRegister x value) := by
  refine .onward ?_ (fun _ => rfl) rfl straight
  intro register outside
  rw [written] at outside
  exact read_write_outside _ value List.mem_cons_self outside

theorem setFlagged_course {x : Register} {flagged : Bool} {value : UInt8}
    (written : instruction.writtenRegisters = [x.val, 15])
    (straight : machine.skips instruction = false) :
    Course machine instruction (machine.setFlagged x flagged value) := by
  refine .onward ?_ (fun _ => rfl) rfl straight
  intro register outside
  rw [written] at outside
  have flag : Registers.flag.val ∈ [x.val, 15] := List.mem_cons_of_mem _ List.mem_cons_self
  exact (read_write_outside _ value List.mem_cons_self outside).trans
    (read_write_outside _ _ flag outside)

end Course

theorem loadFromIndex_course (machine : Machine) (x : Register) :
    Course machine (.loadRegisters x) (machine.loadFromIndex x) := by
  unfold loadFromIndex advanced
  refine .onward ?_ (fun _ => rfl) rfl rfl
  intro register outside
  have past : ¬register ≤ x := by
    intro inside
    exact outside (List.mem_range.mpr (Nat.lt_succ_of_le inside))
  exact (machine.registers.read_fillUpTo x register _).trans (if_neg past)

theorem execute_course {machine next : Machine} {instruction : Instruction}
    (executed : machine.execute instruction = .ok next) :
    Course machine instruction next := by
  cases instruction
  case clearScreen =>
      cases executed
      exact .onward (fun _ _ => rfl) (fun _ => rfl) rfl rfl
  case loadIndex nnn =>
      cases executed
      exact .onward (fun _ _ => rfl) (by rintro ⟨⟩) rfl rfl
  case jump nnn =>
      cases executed
      exact .jump rfl rfl rfl
  case jumpFrom nnn =>
      simp only [execute, bind_eq_ok] at executed
      obtain ⟨sum, -, ⟨⟩⟩ := executed
      exact .jump rfl rfl rfl
  case call nnn =>
      simp only [execute, enter] at executed
      split at executed <;> cases executed
      exact .jump rfl rfl rfl
  case ret =>
      simp only [execute, leave] at executed
      split at executed
      · cases executed
      · split at executed <;> cases executed
        exact .jump rfl rfl rfl
  case skipIfByte number nn | skipUnlessByte number nn | skipIfKey number
      | skipUnlessKey number =>
      simp only [execute, bind_eq_ok] at executed
      obtain ⟨x, named, ⟨⟩⟩ := executed
      obtain ⟨valid, rfl⟩ := register_eq_ok named
      exact skipIf_course (by simp only [skips, contents_of_lt machine valid])
  case skipIfSame left right | skipUnlessSame left right =>
      simp only [execute, bind_eq_ok] at executed
      obtain ⟨x, leftNamed, y, rightNamed, ⟨⟩⟩ := executed
      obtain ⟨leftValid, rfl⟩ := register_eq_ok leftNamed
      obtain ⟨rightValid, rfl⟩ := register_eq_ok rightNamed
      exact skipIf_course (by
        simp only [skips, contents_of_lt machine leftValid, contents_of_lt machine rightValid])
  case loadByte number nn | addByte number nn | readDelay number =>
      simp only [execute, bind_eq_ok] at executed
      obtain ⟨x, named, ⟨⟩⟩ := executed
      obtain ⟨valid, rfl⟩ := register_eq_ok named
      exact setRegister_course rfl rfl
  case random number nn =>
      simp only [execute, bind_eq_ok] at executed
      obtain ⟨x, named, ⟨⟩⟩ := executed
      obtain ⟨valid, rfl⟩ := register_eq_ok named
      exact .onward (fun _ => read_write_outside _ _ List.mem_cons_self)
        (fun _ => rfl) rfl rfl
  case copy number y | or number y | and number y | xor number y =>
      simp only [execute, bind_eq_ok] at executed
      obtain ⟨x, named, y, -, ⟨⟩⟩ := executed
      obtain ⟨valid, rfl⟩ := register_eq_ok named
      exact setRegister_course rfl rfl
  case waitKey number =>
      simp only [execute] at executed
      split at executed
      · cases executed
      · simp only [bind_eq_ok] at executed
        obtain ⟨x, named, ⟨⟩⟩ := executed
        obtain ⟨valid, rfl⟩ := register_eq_ok named
        exact setRegister_course rfl rfl
  case add number y | sub number y | subFrom number y =>
      simp only [execute, bind_eq_ok] at executed
      obtain ⟨x, named, y, -, ⟨⟩⟩ := executed
      obtain ⟨valid, rfl⟩ := register_eq_ok named
      exact setFlagged_course rfl rfl
  case shiftRight number | shiftLeft number =>
      simp only [execute, bind_eq_ok] at executed
      obtain ⟨x, named, ⟨⟩⟩ := executed
      obtain ⟨valid, rfl⟩ := register_eq_ok named
      exact setFlagged_course rfl rfl
  case draw x y n =>
      simp only [execute, bind_eq_ok] at executed
      obtain ⟨x, -, y, -, ⟨⟩⟩ := executed
      exact .onward (fun _ => read_write_outside _ _ List.mem_cons_self)
        (fun _ => rfl) rfl rfl
  case addIndex x =>
      simp only [execute, bind_eq_ok] at executed
      obtain ⟨x, -, sum, -, ⟨⟩⟩ := executed
      exact .onward (fun _ => read_write_outside _ _ List.mem_cons_self)
        (by rintro ⟨⟩) rfl rfl
  case loadGlyph x =>
      simp only [execute, bind_eq_ok] at executed
      obtain ⟨x, -, ⟨⟩⟩ := executed
      exact .onward (fun _ _ => rfl) (by rintro ⟨⟩) rfl rfl
  case loadRegisters number =>
      simp only [execute, bind_eq_ok] at executed
      obtain ⟨x, named, loaded⟩ := executed
      obtain ⟨valid, rfl⟩ := register_eq_ok named
      rw [← Except.ok.inj loaded]
      exact machine.loadFromIndex_course ⟨number, valid⟩
  -- What remains names one register and writes a timer or memory.
  all_goals
    simp only [execute, bind_eq_ok] at executed
    obtain ⟨x, -, ⟨⟩⟩ := executed
    exact .onward (fun _ _ => rfl) (fun _ => rfl) rfl rfl

/-! ## The whole footprint -/

theorem addresses_instructionStores (machine : Machine) (instruction : Instruction) :
    (machine.instructionStores instruction).map Memory.Store.address =
      machine.storedCells instruction := by
  cases instruction
  case storeDecimal x => exact Memory.addresses_consecutive _ _
  case storeRegisters x =>
      refine (Memory.addresses_consecutive _ _).trans ?_
      rw [List.length_map, List.length_range]
      rfl
  all_goals rfl

theorem Effects.memory_outside {machine next : Machine} {instruction : Instruction}
    (effects : Effects machine instruction next) {address : Fin 4096}
    (outside : address.val ∉ machine.storedCells instruction) :
    next.memory.get address = machine.memory.get address := by
  rw [← addresses_instructionStores] at outside
  rw [effects.memory address, Memory.lastStored_eq_none_iff.mpr outside]
  rfl

theorem timersAfter_delay {instruction : Instruction}
    (unset : ∀ x, instruction ≠ .setDelay x) (machine : Machine) :
    (machine.timersAfter instruction).delay = machine.timers.delay := by
  cases instruction
  case setDelay x => exact absurd rfl (unset x)
  all_goals rfl

theorem timersAfter_sound {instruction : Instruction}
    (unset : ∀ x, instruction ≠ .setSound x) (machine : Machine) :
    (machine.timersAfter instruction).sound = machine.timers.sound := by
  cases instruction
  case setSound x => exact absurd rfl (unset x)
  all_goals rfl

theorem Footprint.called {machine next : Machine} {instruction : Instruction}
    (footprint : Footprint machine instruction next) {nnn : Word}
    (isCall : instruction = .call nnn) :
    next.stack.depth.toNat = machine.stack.depth.toNat + 1 ∧
      ∀ position : Fin 16, position.val ≠ machine.stack.depth.toNat →
        next.stack.slots.get position = machine.stack.slots.get position := by
  obtain ⟨free, slots, depth⟩ := CallStack.push?_eq_some (footprint.pushed nnn isCall)
  refine ⟨depth, ?_⟩
  intro position other
  rw [slots]
  exact Vector.getElem_set_ne free position.isLt other.symm

theorem Footprint.returned {machine next : Machine} {instruction : Instruction}
    (footprint : Footprint machine instruction next) (isRet : instruction = .ret) :
    next.stack.depth.toNat + 1 = machine.stack.depth.toNat ∧
      next.stack.slots = machine.stack.slots := by
  obtain ⟨used, popped, -⟩ := footprint.popped isRet
  rw [popped]
  exact ⟨CallStack.toNat_depth_pop used, rfl⟩

theorem execute_writeFootprint {machine next : Machine} {instruction : Instruction}
    (executed : machine.execute instruction = .ok next) :
    WriteFootprint machine instruction next := by
  have footprint := execute_footprint executed
  have effects := execute_effects executed
  exact
    { execute_course executed with
      memory := fun _ => effects.memory_outside
      screen := by
        intro still
        have flag := footprint.redraw
        rw [still, Bool.or_false] at flag
        exact ⟨footprint.screen still, flag⟩
      redraw := by
        intro redraws
        rw [footprint.redraw, redraws, Bool.or_true]
      stack := footprint.stack
      called := fun _ => footprint.called
      returned := footprint.returned
      delay := by
        intro unset
        rw [effects.timers, timersAfter_delay unset]
      sound := by
        intro unset
        rw [effects.timers, timersAfter_sound unset]
      keypad := effects.keypad
      random := by
        intro drawless
        rw [effects.random, drawless]
        rfl }

/-- Whatever instruction a cycle executes, it is the one that the word at the program
counter spells, and the machine changes only within its footprint. -/
theorem cycle_writes_within_footprint {machine : Machine} {instruction : Instruction}
    (executed : machine.cycle.response = .executed instruction) :
    Instruction.decode machine.fetch machine.pc = .ok instruction ∧
      WriteFootprint machine instruction machine.cycle.machine := by
  obtain ⟨decoded, result⟩ := machine.cycle_outcome.of_executed executed
  refine ⟨?_, execute_writeFootprint result⟩
  rw [Instruction.decode, decoded]

/-- Two registers stored from the last address on. -/
theorem store_around_end_keeps_footprint :
    let machine :=
      { (powerOn (.progression 0 0)).after [.loadProgram [0xF1, 0x55]] with index := 0xFFF }
    machine.cycle.response = .executed (.storeRegisters 1) ∧
      machine.storedCells (.storeRegisters 1) = [0xFFF, 0x000] ∧
      machine.cycle.machine.memory.get 0x001 = machine.memory.get 0x001 ∧
      machine.cycle.machine.pc.toNat = 0x202 := by
  intro machine
  have executed : machine.cycle.response = .executed (.storeRegisters 1) := by decide +kernel
  obtain ⟨-, footprint⟩ := cycle_writes_within_footprint executed
  have cells : machine.storedCells (.storeRegisters 1) = [0xFFF, 0x000] := by decide
  refine ⟨executed, cells, footprint.memory 0x001 ?_, ?_⟩
  · rw [cells]
    decide
  · rw [footprint.pc rfl]
    rfl

end Machine

end Chip8Vm
