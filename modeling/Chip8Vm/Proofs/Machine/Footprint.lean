import Chip8Vm.Machine.Execution

/-!
# The footprint of an instruction

What an executed instruction does to the program counter, the index, the call
stack and the screen, said once for all thirty-four instructions.  Whoever
follows one of these parts through a run needs only this module and no longer
the instructions themselves.
-/

namespace Chip8Vm

theorem bind_eq_ok {ε α β : Type} {first : Except ε α} {continuation : α → Except ε β}
    {result : β} :
    (first >>= continuation) = .ok result ↔
      ∃ value, first = .ok value ∧ continuation value = .ok result := by
  cases first with
  | error failure => simp [bind, Except.bind]
  | ok value => simp [bind, Except.bind]

theorem Memory.toNat_wrap_lt (address : Word) : (Memory.wrap address).toNat < 0x1000 := by
  rw [Memory.toNat_wrap]
  exact Nat.mod_lt _ (by decide)

namespace Instruction

/-- The instructions that change the screen. -/
def redraws : Instruction → Bool
  | .clearScreen | .draw _ _ _ => true
  | _ => false

/-- The instructions that change the call stack. -/
def movesStack : Instruction → Bool
  | .call _ | .ret => true
  | _ => false

end Instruction

namespace Machine

theorem toNat_following (address : Word) :
    (following address).toNat = (address.toNat + 2) % 0x1000 := by
  rw [following, Memory.toNat_wrap, UInt16.toNat_add]
  change (address.toNat + 2) % 65536 % 4096 = _
  omega

/-- What the machine after an executed instruction owes to the machine before. -/
structure Footprint (machine : Machine) (instruction : Instruction) (next : Machine) :
    Prop where
  pc : next.pc.toNat < 0x1000
  index : next.index = machine.index ∨ next.index.toNat < 0x1000
  pushed : ∀ nnn, instruction = .call nnn →
    machine.stack.push? machine.pc = some next.stack
  popped : instruction = .ret →
    machine.stack.depth ≠ 0 ∧ next.stack = machine.stack.pop ∧
      ∃ address, machine.stack.top? = some address ∧ next.pc = following address
  stack : instruction.movesStack = false → next.stack = machine.stack
  screen : instruction.redraws = false → next.screen = machine.screen
  redraw : next.redraw = (machine.redraw || instruction.redraws)

theorem Footprint.level {machine next : Machine} {instruction : Instruction}
    (level : instruction.movesStack = false) (pc : next.pc.toNat < 0x1000)
    (index : next.index = machine.index ∨ next.index.toNat < 0x1000)
    (stack : next.stack = machine.stack)
    (screen : instruction.redraws = false → next.screen = machine.screen)
    (redraw : next.redraw = (machine.redraw || instruction.redraws)) :
    Footprint machine instruction next where
  pc := pc
  index := index
  pushed := by
    intro nnn call
    subst call
    cases level
  popped := by
    intro ret
    subst ret
    cases level
  stack := fun _ => stack
  screen := screen
  redraw := redraw

theorem Footprint.quiet {machine next : Machine} {instruction : Instruction}
    (level : instruction.movesStack = false) (quiet : instruction.redraws = false)
    (pc : next.pc.toNat < 0x1000)
    (index : next.index = machine.index ∨ next.index.toNat < 0x1000)
    (stack : next.stack = machine.stack) (screen : next.screen = machine.screen)
    (redraw : next.redraw = machine.redraw) : Footprint machine instruction next :=
  .level level pc index stack (fun _ => screen) (by rw [redraw, quiet, Bool.or_false])

theorem toNat_glyph_lt (value : UInt8) : (Glyph.address value).toNat < 0x1000 := by
  have bound := value.toNat_lt
  rw [Glyph.toNat_address]
  omega

theorem enter_footprint {machine next : Machine} {nnn : Word}
    (entered : machine.enter nnn = .ok next) : Footprint machine (.call nnn) next := by
  unfold enter at entered
  split at entered <;> cases entered
  rename_i stack taken
  exact
    { pc := Memory.toNat_wrap_lt nnn
      index := .inl rfl
      pushed := fun _ _ => taken
      popped := nofun
      stack := nofun
      screen := fun _ => rfl
      redraw := (Bool.or_false _).symm }

theorem leave_footprint {machine next : Machine} (left : machine.leave = .ok next) :
    Footprint machine .ret next := by
  unfold leave at left
  split at left
  · cases left
  · rename_i used
    split at left <;> cases left
    rename_i address newest
    exact
      { pc := Memory.toNat_wrap_lt (address + 2)
        index := .inl rfl
        pushed := nofun
        popped := fun _ => ⟨used, rfl, address, newest, rfl⟩
        stack := nofun
        screen := fun _ => rfl
        redraw := (Bool.or_false _).symm }

theorem loadFromIndex_footprint (machine : Machine) (x : Register) (number : Nat) :
    Footprint machine (.loadRegisters number) (machine.loadFromIndex x) := by
  unfold loadFromIndex advanced
  exact .quiet rfl rfl (Memory.toNat_wrap_lt _) (.inl rfl) rfl rfl rfl

theorem execute_footprint {machine next : Machine} {instruction : Instruction}
    (executed : machine.execute instruction = .ok next) :
    Footprint machine instruction next := by
  have wrapped := Memory.toNat_wrap_lt
  cases instruction
  case ret => exact leave_footprint executed
  case call nnn => exact enter_footprint executed
  case clearScreen =>
      cases executed
      exact .level rfl (wrapped _) (.inl rfl) rfl nofun (Bool.or_true _).symm
  case draw x y n =>
      simp only [execute, bind_eq_ok] at executed
      obtain ⟨x, -, y, -, ⟨⟩⟩ := executed
      exact .level rfl (wrapped _) (.inl rfl) rfl nofun (Bool.or_true _).symm
  case jump nnn =>
      cases executed
      exact .quiet rfl rfl (wrapped _) (.inl rfl) rfl rfl rfl
  case loadIndex nnn =>
      cases executed
      exact .quiet rfl rfl (wrapped _) (.inr (wrapped _)) rfl rfl rfl
  case jumpFrom nnn =>
      simp only [execute, bind_eq_ok] at executed
      obtain ⟨sum, -, ⟨⟩⟩ := executed
      exact .quiet rfl rfl (wrapped _) (.inl rfl) rfl rfl rfl
  case addIndex x =>
      simp only [execute, bind_eq_ok] at executed
      obtain ⟨x, -, sum, -, ⟨⟩⟩ := executed
      exact .quiet rfl rfl (wrapped _) (.inr (wrapped _)) rfl rfl rfl
  case loadGlyph x =>
      simp only [execute, bind_eq_ok] at executed
      obtain ⟨x, -, ⟨⟩⟩ := executed
      exact .quiet rfl rfl (wrapped _) (.inr (toNat_glyph_lt _)) rfl rfl rfl
  case waitKey x =>
      simp only [execute] at executed
      split at executed
      · cases executed
      · simp only [bind_eq_ok] at executed
        obtain ⟨x, -, ⟨⟩⟩ := executed
        exact .quiet rfl rfl (wrapped _) (.inl rfl) rfl rfl rfl
  case loadRegisters x =>
      simp only [execute, bind_eq_ok] at executed
      obtain ⟨register, -, loaded⟩ := executed
      rw [← Except.ok.inj loaded]
      exact loadFromIndex_footprint machine register x
  case skipIfSame x y | skipUnlessSame x y | copy x y | or x y | and x y | xor x y
      | add x y | sub x y | subFrom x y =>
      simp only [execute, bind_eq_ok] at executed
      obtain ⟨x, -, y, -, ⟨⟩⟩ := executed
      exact .quiet rfl rfl (wrapped _) (.inl rfl) rfl rfl rfl
  -- The remaining instructions name one register and touch neither the index,
  -- the call stack nor the screen.
  all_goals
    simp only [execute, bind_eq_ok] at executed
    obtain ⟨x, -, ⟨⟩⟩ := executed
    exact .quiet rfl rfl (wrapped _) (.inl rfl) rfl rfl rfl

/-- The call stack is kept, takes the address of the instruction or gives its
newest address back. -/
theorem Footprint.stack_cases {machine next : Machine} {instruction : Instruction}
    (footprint : Footprint machine instruction next) :
    (instruction.movesStack = false ∧ next.stack = machine.stack) ∨
      (∃ nnn, instruction = .call nnn ∧ machine.stack.push? machine.pc = some next.stack) ∨
      (instruction = .ret ∧ machine.stack.depth ≠ 0 ∧ next.stack = machine.stack.pop) := by
  cases instruction
  case call nnn => exact .inr (.inl ⟨nnn, rfl, footprint.pushed nnn rfl⟩)
  case ret =>
      obtain ⟨used, popped, -⟩ := footprint.popped rfl
      exact .inr (.inr ⟨rfl, used, popped⟩)
  all_goals exact .inl ⟨rfl, footprint.stack rfl⟩

end Machine

end Chip8Vm
