import Chip8Vm.Machine.Operation

/-!
# Instructions and the devices beside the processor

The timers and the keypad change from outside while a program runs.  Three
instructions use the timers and three others read the keys.  To every other
instruction it is all the same whether a device changes before or after it.
-/

namespace Chip8Vm

namespace Instruction

/-- The instructions that read a timer or set one. -/
def usesTimers : Instruction → Bool
  | .readDelay _ | .setDelay _ | .setSound _ => true
  | _ => false

/-- The instructions that look at the keys. -/
def readsKeys : Instruction → Bool
  | .skipIfKey _ | .skipUnlessKey _ | .waitKey _ => true
  | _ => false

end Instruction

theorem bind_eq_map {ε α β γ : Type} {first : Except ε α} {left : α → Except ε γ}
    {right : α → Except ε β} {change : β → γ}
    (agree : ∀ value, left value = (right value).map change) :
    (first >>= left) = (first >>= right).map change := by
  cases first with
  | error failure => rfl
  | ok value => exact agree value

namespace Machine

/-- The machine with its timers and its keypad changed from outside. -/
def withDevices (machine : Machine) (timers : Timers → Timers) (keypad : Keypad → Keypad) :
    Machine :=
  { machine with timers := timers machine.timers, keypad := keypad machine.keypad }

section Devices

variable (machine : Machine) (timers : Timers → Timers) (keypad : Keypad → Keypad)

theorem enter_withDevices (nnn : Word) :
    (machine.withDevices timers keypad).enter nnn =
      (machine.enter nnn).map (·.withDevices timers keypad) := by
  have pushed : (machine.withDevices timers keypad).stack.push?
      (machine.withDevices timers keypad).pc = machine.stack.push? machine.pc := rfl
  simp only [enter, pushed]
  cases machine.stack.push? machine.pc with
  | none => rfl
  | some stack => rfl

theorem leave_withDevices :
    (machine.withDevices timers keypad).leave =
      machine.leave.map (·.withDevices timers keypad) := by
  have stack : (machine.withDevices timers keypad).stack = machine.stack := rfl
  simp only [leave, stack]
  split
  · rfl
  · cases machine.stack.top? with
    | none => rfl
    | some address => rfl

theorem execute_waitKey_withDevices (x : Nat) :
    (machine.withDevices timers id).execute (.waitKey x) =
      (machine.execute (.waitKey x)).map (·.withDevices timers id) := by
  have keys : (machine.withDevices timers id).keypad = machine.keypad := rfl
  simp only [execute, keys]
  cases machine.keypad.lowest? with
  | none => rfl
  | some key => exact bind_eq_map fun _ => rfl

theorem loadFromIndex_withDevices (x : Register) :
    (machine.withDevices timers keypad).loadFromIndex x =
      (machine.loadFromIndex x).withDevices timers keypad := by
  unfold loadFromIndex advanced
  rfl

/-- A device that an instruction does not look at may change before the
instruction or after it; one that it does look at must not change. -/
theorem execute_withDevices {instruction : Instruction}
    (untimed : instruction.usesTimers = false ∨ timers = id)
    (unread : instruction.readsKeys = false ∨ keypad = id) :
    (machine.withDevices timers keypad).execute instruction =
      (machine.execute instruction).map (·.withDevices timers keypad) := by
  cases instruction
  case readDelay x | setDelay x | setSound x =>
      rcases untimed with used | rfl
      · cases used
      · exact bind_eq_map fun _ => rfl
  case skipIfKey x | skipUnlessKey x =>
      rcases unread with read | rfl
      · cases read
      · exact bind_eq_map fun _ => rfl
  case waitKey x =>
      rcases unread with read | rfl
      · cases read
      · exact machine.execute_waitKey_withDevices timers x
  case ret => exact machine.leave_withDevices timers keypad
  case call nnn => exact machine.enter_withDevices timers keypad nnn
  case clearScreen | jump | loadIndex => rfl
  case addIndex x => exact bind_eq_map fun _ => bind_eq_map fun _ => rfl
  case skipIfSame x y | skipUnlessSame x y | copy x y | or x y | and x y | xor x y
      | add x y | sub x y | subFrom x y | draw x y n =>
      exact bind_eq_map fun _ => bind_eq_map fun _ => rfl
  case loadRegisters x =>
      exact bind_eq_map fun register =>
        congrArg Except.ok (machine.loadFromIndex_withDevices timers keypad register)
  -- The remaining instructions name one register or form one sum.
  all_goals exact bind_eq_map fun _ => rfl

end Devices

theorem execute_tick {instruction : Instruction} (untimed : instruction.usesTimers = false)
    (machine : Machine) :
    machine.tick.execute instruction = (machine.execute instruction).map tick :=
  machine.execute_withDevices Timers.tick id (.inl untimed) (.inr rfl)

theorem execute_setKeys {instruction : Instruction} (unread : instruction.readsKeys = false)
    (machine : Machine) (keypad : Keypad) :
    (machine.setKeys keypad).execute instruction =
      (machine.execute instruction).map (·.setKeys keypad) :=
  machine.execute_withDevices id (fun _ => keypad) (.inr rfl) (.inl unread)

end Machine

end Chip8Vm
