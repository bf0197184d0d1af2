import Chip8Vm.Proofs.Machine.Demand
import Chip8Vm.Proofs.Memory

/-!
# The effects of an instruction

What an executed instruction does to memory, the timers, the keypad and the
random draws: together with its footprint this is all that it does, the
contents of the data registers apart.
-/

namespace Chip8Vm

/-- The instruction that takes a random draw. -/
def Instruction.draws : Instruction → Bool
  | .random _ _ => true
  | _ => false

namespace Machine

/-- The three decimal digits of a byte, the hundreds first. -/
def threeDigits (value : UInt8) : List UInt8 :=
  [ UInt8.ofNat (value.toNat / 100),
    UInt8.ofNat (value.toNat / 10 % 10),
    UInt8.ofNat (value.toNat % 10) ]

/-- What an instruction stores when it is executed. -/
def instructionStores (machine : Machine) : Instruction → List Memory.Store
  | .storeDecimal x =>
      Memory.consecutive machine.index.toNat (threeDigits (machine.contents x))
  | .storeRegisters x =>
      Memory.consecutive machine.index.toNat ((List.range (x + 1)).map machine.contents)
  | _ => []

/-- The timers after an instruction was executed. -/
def timersAfter (machine : Machine) : Instruction → Timers
  | .setDelay x => { machine.timers with delay := machine.contents x }
  | .setSound x => { machine.timers with sound := machine.contents x }
  | _ => machine.timers

structure Effects (machine : Machine) (instruction : Instruction) (next : Machine) :
    Prop where
  memory : machine.memory.Receives (machine.instructionStores instruction) next.memory
  timers : next.timers = machine.timersAfter instruction
  keypad : next.keypad = machine.keypad
  random : next.random =
    if instruction.draws then machine.random.advance else machine.random

theorem Effects.none {machine next : Machine} {instruction : Instruction}
    (stores : machine.instructionStores instruction = [])
    (draws : instruction.draws = false)
    (untimed : machine.timersAfter instruction = machine.timers)
    (memory : next.memory = machine.memory) (timers : next.timers = machine.timers)
    (keypad : next.keypad = machine.keypad) (random : next.random = machine.random) :
    Effects machine instruction next where
  memory := by
    rw [stores, memory]
    exact machine.memory.receives_nil
  timers := by rw [timers, untimed]
  keypad := keypad
  random := by simp [random, draws]

theorem threeDigits_eq (value : UInt8) : threeDigits value = decimalDigits value := by
  have hundreds : value.toNat / 100 = (value / 100).toNat := rfl
  have tens : value.toNat / 10 % 10 = (value / 10 % 10).toNat := rfl
  have ones : value.toNat % 10 = (value % 10).toNat := rfl
  simp only [threeDigits, hundreds, tens, ones, UInt8.ofNat_toNat]
  rfl

theorem upTo_eq_contents (machine : Machine) (x : Register) :
    machine.registers.upTo x = (List.range (x.val + 1)).map machine.contents := by
  apply List.ext_getElem
  · rw [Registers.upTo, List.length_take, Vector.length_toList, List.length_map,
      List.length_range]
    omega
  · intro position inside _
    have valid : position < 16 := by
      simp only [Registers.upTo, List.length_take, Vector.length_toList] at inside
      omega
    simp [Registers.upTo, contents, valid]

theorem storeAtIndex_receives (machine : Machine) (values : List UInt8) :
    machine.memory.Receives (Memory.consecutive machine.index.toNat values)
      (machine.storeAtIndex values).memory :=
  Memory.receives_writeAll machine.memory machine.index values

theorem register_eq_ok {number : Nat} {x : Register} (named : register number = .ok x) :
    ∃ valid : number < 16, x = ⟨number, valid⟩ := by
  unfold register at named
  split at named <;> cases named
  exact ⟨_, rfl⟩

theorem enter_effects {machine next : Machine} {nnn : Word}
    (entered : machine.enter nnn = .ok next) : Effects machine (.call nnn) next := by
  unfold enter at entered
  split at entered <;> cases entered
  exact .none rfl rfl rfl rfl rfl rfl rfl

theorem leave_effects {machine next : Machine} (left : machine.leave = .ok next) :
    Effects machine .ret next := by
  unfold leave at left
  split at left
  · cases left
  · split at left <;> cases left
    exact .none rfl rfl rfl rfl rfl rfl rfl

theorem loadFromIndex_effects (machine : Machine) (x : Register) (number : Nat) :
    Effects machine (.loadRegisters number) (machine.loadFromIndex x) := by
  unfold loadFromIndex advanced
  exact .none rfl rfl rfl rfl rfl rfl rfl

theorem execute_effects {machine next : Machine} {instruction : Instruction}
    (executed : machine.execute instruction = .ok next) :
    Effects machine instruction next := by
  cases instruction
  case ret => exact leave_effects executed
  case call nnn => exact enter_effects executed
  case clearScreen | jump | loadIndex =>
      cases executed
      exact .none rfl rfl rfl rfl rfl rfl rfl
  case waitKey x =>
      simp only [execute] at executed
      split at executed
      · cases executed
      · simp only [bind_eq_ok] at executed
        obtain ⟨x, -, ⟨⟩⟩ := executed
        exact .none rfl rfl rfl rfl rfl rfl rfl
  case random x nn =>
      simp only [execute, bind_eq_ok] at executed
      obtain ⟨x, -, ⟨⟩⟩ := executed
      exact
        { memory := machine.memory.receives_nil
          timers := rfl
          keypad := rfl
          random := rfl }
  case storeDecimal number =>
      simp only [execute, bind_eq_ok] at executed
      obtain ⟨x, named, ⟨⟩⟩ := executed
      obtain ⟨valid, rfl⟩ := register_eq_ok named
      exact
        { memory := by
            rw [instructionStores, threeDigits_eq, contents_of_lt machine valid]
            exact machine.storeAtIndex_receives _
          timers := rfl
          keypad := rfl
          random := rfl }
  case storeRegisters number =>
      simp only [execute, bind_eq_ok] at executed
      obtain ⟨x, named, ⟨⟩⟩ := executed
      obtain ⟨valid, rfl⟩ := register_eq_ok named
      exact
        { memory := by
            rw [instructionStores, ← machine.upTo_eq_contents ⟨number, valid⟩]
            exact machine.storeAtIndex_receives _
          timers := rfl
          keypad := rfl
          random := rfl }
  case setDelay number | setSound number =>
      simp only [execute, bind_eq_ok] at executed
      obtain ⟨x, named, ⟨⟩⟩ := executed
      obtain ⟨valid, rfl⟩ := register_eq_ok named
      exact
        { memory := machine.memory.receives_nil
          timers := by rw [timersAfter, contents_of_lt machine valid]
          keypad := rfl
          random := rfl }
  case loadRegisters number =>
      simp only [execute, bind_eq_ok] at executed
      obtain ⟨x, -, loaded⟩ := executed
      rw [← Except.ok.inj loaded]
      exact machine.loadFromIndex_effects x number
  case skipIfSame x y | skipUnlessSame x y | copy x y | or x y | and x y | xor x y
      | add x y | sub x y | subFrom x y | draw x y n | addIndex x =>
      simp only [execute, bind_eq_ok] at executed
      obtain ⟨first, -, second, -, ⟨⟩⟩ := executed
      exact .none rfl rfl rfl rfl rfl rfl rfl
  -- The remaining instructions name one register or form one sum, and touch
  -- none of these parts.
  all_goals
    simp only [execute, bind_eq_ok] at executed
    obtain ⟨value, -, ⟨⟩⟩ := executed
    exact .none rfl rfl rfl rfl rfl rfl rfl

end Machine

end Chip8Vm
