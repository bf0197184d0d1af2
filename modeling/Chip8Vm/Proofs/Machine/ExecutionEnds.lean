import Chip8Vm.Proofs.Machine.CycleContract

/-!
# How an instruction ends on a hand-made machine

A machine put together by hand may hold any word in its program counter and its
index and any byte as its depth, and an instruction put together by hand may name
registers that do not exist.  Provided that an address sum fits in a word, the
instruction, the depth and the keys decide how it ends, and whenever it is
executed the program counter and a new index lie inside memory.
-/

namespace Chip8Vm

namespace Machine

/-- The sum of an address and a register that an instruction forms, if it forms
one, fits in a word. -/
def SumFits (machine : Machine) : Instruction → Prop
  | .addIndex x => machine.index.toNat + (machine.contents x).toNat ≤ 0xFFFF
  | .jumpFrom nnn => (machine.contents 0).toNat + nnn.toNat ≤ 0xFFFF
  | _ => True

/-- The instruction reaches outside the machine: for a stack slot past the last one
or for a register that does not exist.  A wait looks for its register only once it
has a key. -/
def ReachesOutside (machine : Machine) (instruction : Instruction) : Prop :=
  (instruction = .ret ∧ 16 < machine.stack.depth.toNat) ∨
    (∃ x, instruction = .waitKey x ∧ 15 < x ∧
      ∃ key : Fin 16, machine.keypad.get key = true) ∨
    ((∀ x, instruction ≠ .waitKey x) ∧ ∃ number, number ∈ instruction.operands ∧ 15 < number)

def LacksCaller (machine : Machine) (instruction : Instruction) : Prop :=
  instruction = .ret ∧ machine.stack.depth.toNat = 0

def LacksSlot (machine : Machine) (instruction : Instruction) : Prop :=
  (∃ nnn, instruction = .call nnn) ∧ 16 ≤ machine.stack.depth.toNat

def LacksKey (machine : Machine) (instruction : Instruction) : Prop :=
  (∃ x, instruction = .waitKey x) ∧ ∀ key : Fin 16, machine.keypad.get key = false

/-! ## Faults -/

theorem unmet_registers_iff (instruction : Instruction) :
    Unmet (registerDemands instruction) ↔
      ∃ number, number ∈ instruction.operands ∧ 15 < number := by
  constructor
  · rintro ⟨demand, member, unmet⟩
    obtain ⟨number, operand, rfl⟩ := List.mem_map.mp member
    exact ⟨number, operand, Nat.lt_of_not_le fun low => unmet (Nat.lt_succ_of_le low)⟩
  · rintro ⟨number, operand, high⟩
    refine ⟨.index number 16, List.mem_map.mpr ⟨number, operand, rfl⟩, ?_⟩
    exact Nat.not_lt_of_le high

theorem reachesOutside_iff_of_ne {machine : Machine} {instruction : Instruction}
    (notRet : instruction ≠ .ret) (notWait : ∀ x, instruction ≠ .waitKey x) :
    machine.ReachesOutside instruction ↔ Unmet (registerDemands instruction) := by
  rw [unmet_registers_iff]
  constructor
  · rintro (⟨isRet, -⟩ | ⟨x, isWait, -⟩ | ⟨-, named⟩)
    · exact absurd isRet notRet
    · exact absurd isWait (notWait x)
    · exact named
  · intro named
    exact .inr (.inr ⟨notWait, named⟩)

theorem exists_key_iff (keypad : Keypad) :
    (∃ key : Fin 16, keypad.get key = true) ↔ keypad.lowest? ≠ none := by
  rw [ne_eq, Keypad.lowest?_eq_none_iff]
  simp [Vector.get]

theorem execute_ret_faults_iff (machine : Machine) :
    Faults (machine.execute .ret) ↔ machine.ReachesOutside .ret := by
  have zero : machine.stack.depth = 0 ↔ machine.stack.depth.toNat = 0 :=
    UInt8.toNat_inj.symm
  rw [execute, faults_leave_iff, ne_eq, zero]
  constructor
  · rintro ⟨used, outside⟩
    exact .inl ⟨rfl, by omega⟩
  · rintro (⟨-, outside⟩ | ⟨x, isWait, -⟩ | ⟨-, number, named, -⟩)
    · omega
    · cases isWait
    · cases named

theorem execute_waitKey_faults_iff (machine : Machine) (x : Nat) :
    Faults (machine.execute (.waitKey x)) ↔ machine.ReachesOutside (.waitKey x) := by
  have key := exists_key_iff machine.keypad
  rw [execute_faults_iff]
  simp only [demands]
  constructor
  · intro unmet
    split at unmet
    · exact absurd unmet unmet_nil
    · rename_i pressed
      have high : 16 ≤ x := by simpa using unmet
      exact .inr (.inl ⟨x, rfl, high, key.mpr pressed⟩)
  · rintro (⟨isRet, -⟩ | ⟨other, isWait, high, pressed⟩ | ⟨notWait, -⟩)
    · cases isRet
    · cases isWait
      rw [if_neg (key.mp pressed)]
      simpa using Nat.succ_le_of_lt high
    · exact absurd rfl (notWait x)

/-- The sums apart, all that an instruction demands beyond its registers is met on
every machine. -/
theorem unmet_demands_iff {machine : Machine} {instruction : Instruction}
    (fits : machine.SumFits instruction) (notRet : instruction ≠ .ret)
    (notWait : ∀ x, instruction ≠ .waitKey x) :
    Unmet (machine.demands instruction) ↔ Unmet (registerDemands instruction) := by
  cases instruction
  case ret => exact absurd rfl notRet
  case waitKey x => exact absurd rfl (notWait x)
  case call nnn =>
      rw [← execute_faults_iff]
      exact iff_of_false (not_faults_enter machine nnn) unmet_nil
  case jumpFrom nnn =>
      simp only [SumFits] at fits
      refine iff_of_false ?_ unmet_nil
      simp [demands]
      omega
  case addIndex x =>
      simp only [SumFits] at fits
      simp [demands, registerDemands, Instruction.operands]
      omega
  case loadGlyph x =>
      have byte := (machine.contents x).toNat_lt
      simp [demands, registerDemands, Instruction.operands, Glyph.height, Glyph.sheetStart]
      omega
  case skipIfKey x | skipUnlessKey x =>
      have named : (machine.contents x).toNat % 16 < 16 := Nat.mod_lt _ (by decide)
      simp [demands, registerDemands, Instruction.operands, Keypad.count, named]
  case draw x y n =>
      simp only [demands, unmet_append, not_unmet_memory, not_unmet_pixels, or_false]
  case storeDecimal x | storeRegisters x | loadRegisters x =>
      simp [demands, registerDemands, Instruction.operands]
  all_goals exact Iff.rfl

theorem faults_iff_reachesOutside {machine : Machine} {instruction : Instruction}
    (fits : machine.SumFits instruction) :
    Faults (machine.execute instruction) ↔ machine.ReachesOutside instruction := by
  by_cases isRet : instruction = .ret
  · subst isRet
    exact machine.execute_ret_faults_iff
  by_cases isWait : ∃ x, instruction = .waitKey x
  · obtain ⟨x, rfl⟩ := isWait
    exact machine.execute_waitKey_faults_iff x
  have notWait : ∀ x, instruction ≠ .waitKey x := fun x same => isWait ⟨x, same⟩
  rw [execute_faults_iff, unmet_demands_iff fits isRet notWait,
    reachesOutside_iff_of_ne isRet notWait]

/-! ## The other ends -/

theorem execute_underflow_iff {machine : Machine} {instruction : Instruction} :
    machine.execute instruction = .error (.failure (.stackUnderflow machine.pc)) ↔
      machine.LacksCaller instruction := by
  constructor
  · intro stopped
    rcases execute_stop_cases stopped with ⟨fault, same⟩ | ⟨x, -, -, same⟩ |
      ⟨nnn, -, -, same⟩ | ⟨isRet, empty, -⟩
    · cases same
    · cases same
    · cases same
    · exact ⟨isRet, congrArg UInt8.toNat empty⟩
  · rintro ⟨rfl, empty⟩
    exact leave_of_empty (UInt8.toNat_inj.mp empty)

theorem execute_overflow_iff {machine : Machine} {instruction : Instruction} :
    machine.execute instruction = .error (.failure (.stackOverflow machine.pc)) ↔
      machine.LacksSlot instruction := by
  constructor
  · intro stopped
    rcases execute_stop_cases stopped with ⟨fault, same⟩ | ⟨x, -, -, same⟩ |
      ⟨nnn, isCall, full, -⟩ | ⟨-, -, same⟩
    · cases same
    · cases same
    · exact ⟨⟨nnn, isCall⟩, full⟩
    · cases same
  · rintro ⟨⟨nnn, rfl⟩, full⟩
    exact enter_eq_error_iff.mpr ⟨full, rfl⟩

theorem execute_awaitingKey_iff {machine : Machine} {instruction : Instruction} :
    machine.execute instruction = .error .awaitingKey ↔ machine.LacksKey instruction := by
  have idle := machine.keypad.lowest?_eq_none_iff
  constructor
  · intro stopped
    rcases execute_stop_cases stopped with ⟨fault, same⟩ | ⟨x, isWait, none, -⟩ |
      ⟨nnn, -, -, same⟩ | ⟨-, -, same⟩
    · cases same
    · exact ⟨⟨x, isWait⟩, idle.mp none⟩
    · cases same
    · cases same
  · rintro ⟨⟨x, rfl⟩, up⟩
    simp only [execute, idle.mpr up]

/-- How every instruction ends on every machine whose address sum fits: in a fault,
in one of the two failures of the call stack, waiting for a key, or executed with
the program counter and a changed index inside memory. -/
theorem execution_ends_exactly {machine : Machine} {instruction : Instruction}
    (fits : machine.SumFits instruction) :
    (Faults (machine.execute instruction) ↔ machine.ReachesOutside instruction) ∧
      (machine.execute instruction = .error (.failure (.stackUnderflow machine.pc)) ↔
        machine.LacksCaller instruction) ∧
      (machine.execute instruction = .error (.failure (.stackOverflow machine.pc)) ↔
        machine.LacksSlot instruction) ∧
      (machine.execute instruction = .error .awaitingKey ↔ machine.LacksKey instruction) ∧
      (¬(machine.ReachesOutside instruction ∨ machine.LacksCaller instruction ∨
          machine.LacksSlot instruction ∨ machine.LacksKey instruction) →
        ∃ next, machine.execute instruction = .ok next ∧
          next.pc.toNat ≤ 0xFFF ∧
          (next.index = machine.index ∨ next.index.toNat ≤ 0xFFF)) := by
  have faults := faults_iff_reachesOutside fits
  refine ⟨faults, execute_underflow_iff, execute_overflow_iff, execute_awaitingKey_iff, ?_⟩
  intro free
  cases result : machine.execute instruction with
  | ok next =>
      have footprint := execute_footprint result
      exact ⟨next, rfl, Nat.le_of_lt_succ footprint.pc,
        footprint.index.imp_right Nat.le_of_lt_succ⟩
  | error stop =>
      exfalso
      apply free
      rcases execute_stop_cases result with ⟨fault, rfl⟩ | ⟨x, -, -, rfl⟩ |
        ⟨nnn, -, -, rfl⟩ | ⟨-, -, rfl⟩
      · exact .inl (faults.mp ⟨fault, result⟩)
      · exact .inr (.inr (.inr (execute_awaitingKey_iff.mp result)))
      · exact .inr (.inr (.inl (execute_overflow_iff.mp result)))
      · exact .inr (.inl (execute_underflow_iff.mp result))

/-- With seventeen slots in use a return faults; without a key down a wait goes on
whatever register it names; and the largest index still takes a register that is
zero. -/
theorem hand_made_machine_ends :
    let machine := { powerOn (.progression 0 0) with
      pc := 0xFFFF, index := 0xFFFF, stack := { CallStack.empty with depth := 17 } }
    Faults (machine.execute .ret) ∧
      machine.execute (.waitKey 99) = .error .awaitingKey ∧
      machine.SumFits (.addIndex 3) ∧
      ∃ next, machine.execute (.addIndex 3) = .ok next ∧ next.pc.toNat ≤ 0xFFF := by
  intro machine
  have sum : machine.SumFits (.addIndex 3) :=
    (by decide : machine.index.toNat + (machine.contents 3).toNat ≤ 0xFFFF)
  have free : ¬(machine.ReachesOutside (.addIndex 3) ∨ machine.LacksCaller (.addIndex 3) ∨
      machine.LacksSlot (.addIndex 3) ∨ machine.LacksKey (.addIndex 3)) := by
    rw [reachesOutside_iff_of_ne (by decide) (by simp), unmet_registers_iff]
    simp [LacksCaller, LacksSlot, LacksKey, Instruction.operands]
  obtain ⟨faults, -⟩ := @execution_ends_exactly machine .ret trivial
  obtain ⟨-, -, -, waits, -⟩ := @execution_ends_exactly machine (.waitKey 99) trivial
  obtain ⟨-, -, -, -, executes⟩ := execution_ends_exactly sum
  obtain ⟨next, executed, inside, -⟩ := executes free
  refine ⟨faults.mpr (.inl ⟨rfl, ?_⟩), waits.mpr ⟨⟨99, rfl⟩, ?_⟩, sum, next, executed, inside⟩
  · decide
  · decide

end Machine

end Chip8Vm
