import Chip8Vm.Proofs.Machine.Bounds

/-!
# How a cycle can end

Within its bounds a machine ends a cycle in one of five ways, and the word at
the program counter, the depth of the call stack and the keys say which.  Only
an executed instruction and a malformed word change the machine.
-/

namespace Chip8Vm

namespace Machine

/-- The word at the program counter spells no instruction. -/
def Malformed (machine : Machine) : Prop :=
  ¬∃ instruction : Instruction, instruction.SpelledBy machine.fetch

/-- The next word is a call and every slot is in use. -/
def CallsWhenFull (machine : Machine) : Prop :=
  machine.fetch.family = 0x2 ∧ machine.stack.depth.toNat = 16

/-- The next word is a return and no slot is in use. -/
def ReturnsWhenEmpty (machine : Machine) : Prop :=
  machine.fetch = 0x00EE ∧ machine.stack.depth.toNat = 0

/-- The next word waits for a key and none is held down. -/
def WaitsWithoutKey (machine : Machine) : Prop :=
  (machine.fetch.family = 0xF ∧ machine.fetch.nn = 0x0A) ∧
    ∀ key : Fin 16, machine.keypad.get key = false

/-! ## Why an instruction stops -/

def OnlyFaults {α : Type} (result : Except Stop α) : Prop :=
  ∀ stop, result = .error stop → ∃ fault, stop = .fault fault

namespace OnlyFaults

theorem ok {α : Type} (value : α) : OnlyFaults (.ok value) := by
  intro stop stopped
  cases stopped

theorem bind {α β : Type} {first : Except Stop α} {continuation : α → Except Stop β}
    (head : OnlyFaults first) (tail : ∀ value, OnlyFaults (continuation value)) :
    OnlyFaults (first >>= continuation) := by
  cases first with
  | error other =>
      intro stop stopped
      cases stopped
      exact head other rfl
  | ok value => exact tail value

theorem register (number : Nat) : OnlyFaults (Machine.register number) := by
  intro stop stopped
  unfold Machine.register at stopped
  split at stopped <;> cases stopped
  exact ⟨_, rfl⟩

theorem addressSum (address : Word) (offset : UInt8) :
    OnlyFaults (Machine.addressSum address offset) := by
  intro stop stopped
  simp only [Machine.addressSum] at stopped
  split at stopped <;> cases stopped
  exact ⟨_, rfl⟩

end OnlyFaults

theorem enter_eq_error_iff {machine : Machine} {nnn : Word} {stop : Stop} :
    machine.enter nnn = .error stop ↔
      16 ≤ machine.stack.depth.toNat ∧ stop = .failure (.stackOverflow machine.pc) := by
  unfold enter CallStack.push?
  by_cases free : machine.stack.depth.toNat < 16
  · simp [free, Nat.not_le.mpr free]
  · simp [free, Nat.le_of_not_lt free, eq_comm]

theorem leave_of_empty {machine : Machine} (empty : machine.stack.depth = 0) :
    machine.leave = .error (.failure (.stackUnderflow machine.pc)) := by
  rw [leave, if_pos empty]

theorem leave_stop {machine : Machine} {stop : Stop} (stopped : machine.leave = .error stop) :
    (∃ fault, stop = .fault fault) ∨
      machine.stack.depth = 0 ∧ stop = .failure (.stackUnderflow machine.pc) := by
  unfold leave at stopped
  split at stopped
  · cases stopped
    exact .inr ⟨‹_›, rfl⟩
  · split at stopped <;> cases stopped
    exact .inl ⟨_, rfl⟩

/-- Faults apart, an instruction stops for want of a key, of a free slot or of
a slot in use. -/
theorem execute_stop_cases {machine : Machine} {instruction : Instruction} {stop : Stop}
    (stopped : machine.execute instruction = .error stop) :
    (∃ fault, stop = .fault fault) ∨
      (∃ x, instruction = .waitKey x ∧ machine.keypad.lowest? = none ∧ stop = .awaitingKey) ∨
      (∃ nnn, instruction = .call nnn ∧ 16 ≤ machine.stack.depth.toNat ∧
        stop = .failure (.stackOverflow machine.pc)) ∨
      (instruction = .ret ∧ machine.stack.depth = 0 ∧
        stop = .failure (.stackUnderflow machine.pc)) := by
  cases instruction
  case call nnn =>
      obtain ⟨full, rfl⟩ := enter_eq_error_iff.mp stopped
      exact .inr (.inr (.inl ⟨nnn, rfl, full, rfl⟩))
  case ret =>
      rcases leave_stop stopped with fault | ⟨empty, rfl⟩
      · exact .inl fault
      · exact .inr (.inr (.inr ⟨rfl, empty, rfl⟩))
  case waitKey x =>
      cases lowest : machine.keypad.lowest? with
      | none =>
          simp only [execute, lowest] at stopped
          cases stopped
          exact .inr (.inl ⟨x, rfl, rfl, rfl⟩)
      | some key =>
          simp only [execute, lowest] at stopped
          exact .inl ((OnlyFaults.register x).bind (fun _ => .ok _) stop stopped)
  case clearScreen | jump nnn | loadIndex nnn => cases stopped
  case jumpFrom nnn =>
      exact .inl ((OnlyFaults.addressSum _ _).bind (fun _ => .ok _) stop stopped)
  case addIndex x =>
      exact .inl ((OnlyFaults.register x).bind
        (fun _ => (OnlyFaults.addressSum _ _).bind fun _ => .ok _) stop stopped)
  case skipIfSame x y | skipUnlessSame x y | copy x y | or x y | and x y | xor x y
      | add x y | sub x y | subFrom x y | draw x y n =>
      exact .inl ((OnlyFaults.register x).bind
        (fun _ => (OnlyFaults.register y).bind fun _ => .ok _) stop stopped)
  all_goals exact .inl ((OnlyFaults.register _).bind (fun _ => .ok _) stop stopped)

/-! ## The five ends of a cycle -/

/-- What a cycle of a machine within its bounds answers and leaves behind. -/
inductive Verdict (machine : Machine) : Response → Machine → Prop where
  | malformed (undecoded : Instruction.decode? machine.fetch = none) :
      Verdict machine (.failed (.malformed machine.fetch machine.pc)) machine.advanced
  | overflow {nnn : Word} (decoded : Instruction.decode? machine.fetch = some (.call nnn))
      (full : machine.stack.depth.toNat = 16) :
      Verdict machine (.failed (.stackOverflow machine.pc)) machine
  | underflow (decoded : Instruction.decode? machine.fetch = some .ret)
      (empty : machine.stack.depth.toNat = 0) :
      Verdict machine (.failed (.stackUnderflow machine.pc)) machine
  | awaiting {x : Nat} (decoded : Instruction.decode? machine.fetch = some (.waitKey x))
      (idle : machine.keypad.lowest? = none) :
      Verdict machine .awaitingKey machine
  | executed {instruction : Instruction} {next : Machine}
      (decoded : Instruction.decode? machine.fetch = some instruction)
      (result : machine.execute instruction = .ok next) :
      Verdict machine (.executed instruction) next

theorem Outcome.verdict {machine next : Machine} {response : Response}
    (outcome : Outcome machine response next) (bounded : machine.Bounded) :
    Verdict machine response next := by
  have faultless : ∀ fault, response ≠ .faulted fault := by
    intro fault faulted
    exact not_unmet_cycle bounded (outcome.faulted_iff.mp ⟨fault, faulted⟩)
  cases outcome with
  | executed decoded result => exact .executed decoded result
  | skipped undecoded fits => exact .malformed undecoded
  | lost undecoded overflow => exact absurd rfl (faultless _)
  | stopped decoded result =>
      rcases execute_stop_cases result with ⟨fault, rfl⟩ | ⟨x, rfl, idle, rfl⟩ |
        ⟨nnn, rfl, full, rfl⟩ | ⟨rfl, empty, rfl⟩
      · exact absurd rfl (faultless fault)
      · exact .awaiting decoded idle
      · exact .overflow decoded (Nat.le_antisymm bounded.depth full)
      · exact .underflow decoded (by rw [empty]; rfl)

theorem cycle_verdict {machine : Machine} (bounded : machine.Bounded) :
    Verdict machine machine.cycle.response machine.cycle.machine :=
  machine.cycle_outcome.verdict bounded

@[simp] theorem malformed_iff (machine : Machine) :
    machine.Malformed ↔ Instruction.decode? machine.fetch = none :=
  Instruction.decode?_eq_none_iff.symm

@[simp] theorem callsWhenFull_iff (machine : Machine) :
    machine.CallsWhenFull ↔
      (∃ nnn, Instruction.decode? machine.fetch = some (.call nnn)) ∧
        machine.stack.depth.toNat = 16 := by
  rw [Instruction.decode?_call_iff]
  rfl

@[simp] theorem returnsWhenEmpty_iff (machine : Machine) :
    machine.ReturnsWhenEmpty ↔
      Instruction.decode? machine.fetch = some .ret ∧ machine.stack.depth.toNat = 0 := by
  rw [Instruction.decode?_ret_iff]
  rfl

@[simp] theorem waitsWithoutKey_iff (machine : Machine) :
    machine.WaitsWithoutKey ↔
      (∃ x, Instruction.decode? machine.fetch = some (.waitKey x)) ∧
        machine.keypad.lowest? = none := by
  rw [Instruction.decode?_waitKey_iff, Keypad.lowest?_eq_none_iff]
  rfl

theorem not_blocked_of_execute {machine next : Machine} {instruction : Instruction}
    (decoded : Instruction.decode? machine.fetch = some instruction)
    (result : machine.execute instruction = .ok next) :
    ¬machine.CallsWhenFull ∧ ¬machine.ReturnsWhenEmpty ∧ ¬machine.WaitsWithoutKey := by
  rw [callsWhenFull_iff, returnsWhenEmpty_iff, waitsWithoutKey_iff, decoded]
  refine ⟨?_, ?_, ?_⟩
  · intro ⟨⟨nnn, same⟩, full⟩
    cases same
    have stopped : machine.enter nnn = .error (.failure (.stackOverflow machine.pc)) :=
      enter_eq_error_iff.mpr ⟨Nat.le_of_eq full.symm, rfl⟩
    cases stopped.symm.trans result
  · intro ⟨same, empty⟩
    cases same
    have stopped := leave_of_empty (UInt8.toNat_inj.mp empty)
    cases stopped.symm.trans result
  · intro ⟨⟨x, same⟩, idle⟩
    cases same
    simp [execute, idle] at result

/-- Which response a cycle gives under which condition, and what becomes of
the machine. -/
structure CycleContract (machine : Machine) (response : Response) (next : Machine) :
    Prop where
  malformed : response = .failed (.malformed machine.fetch machine.pc) ↔ machine.Malformed
  overflow : response = .failed (.stackOverflow machine.pc) ↔ machine.CallsWhenFull
  underflow : response = .failed (.stackUnderflow machine.pc) ↔ machine.ReturnsWhenEmpty
  awaiting : response = .awaitingKey ↔ machine.WaitsWithoutKey
  executed : ∀ instruction, response = .executed instruction ↔
    instruction.SpelledBy machine.fetch ∧
      ¬machine.CallsWhenFull ∧ ¬machine.ReturnsWhenEmpty ∧ ¬machine.WaitsWithoutKey
  exhaustive : response = .failed (.malformed machine.fetch machine.pc) ∨
    response = .failed (.stackOverflow machine.pc) ∨
    response = .failed (.stackUnderflow machine.pc) ∨
    response = .awaitingKey ∨ ∃ instruction, response = .executed instruction
  skips : machine.Malformed → next = { machine with pc := (machine.pc + 2) &&& 0x0FFF }
  keeps : machine.CallsWhenFull ∨ machine.ReturnsWhenEmpty ∨ machine.WaitsWithoutKey →
    next = machine
  follows : ∀ instruction, response = .executed instruction →
    Instruction.decode machine.fetch machine.pc = .ok instruction ∧
      machine.execute instruction = .ok next

theorem Verdict.contract {machine next : Machine} {response : Response}
    (verdict : Verdict machine response next) : CycleContract machine response next := by
  have spelled : ∀ instruction : Instruction, instruction.SpelledBy machine.fetch ↔
      Instruction.decode? machine.fetch = some instruction :=
    fun _ => Instruction.decode?_eq_some_iff.symm
  cases verdict with
  | malformed undecoded =>
      constructor <;> simp [spelled, undecoded]
      rfl
  | overflow decoded full => constructor <;> simp [spelled, decoded, full]
  | underflow decoded empty => constructor <;> simp [spelled, decoded, empty]
  | awaiting decoded idle => constructor <;> simp [spelled, decoded, idle]
  | @executed instruction _ decoded result =>
      have free := not_blocked_of_execute decoded result
      have formed : ¬machine.Malformed := fun malformed =>
        malformed ⟨instruction, (spelled instruction).mpr decoded⟩
      exact
        { malformed := iff_of_false nofun formed
          overflow := iff_of_false nofun free.1
          underflow := iff_of_false nofun free.2.1
          awaiting := iff_of_false nofun free.2.2
          executed := fun other => by simp [spelled, decoded, -callsWhenFull_iff,
            -returnsWhenEmpty_iff, -waitsWithoutKey_iff, free]
          exhaustive := .inr (.inr (.inr (.inr ⟨instruction, rfl⟩)))
          skips := fun malformed => absurd malformed formed
          keeps := by
            intro blocked
            rcases blocked with full | empty | idle
            · exact absurd full free.1
            · exact absurd empty free.2.1
            · exact absurd idle free.2.2
          follows := by
            intro other same
            cases same
            exact ⟨by simp [Instruction.decode, decoded], result⟩ }

/-! ## Steps -/

theorem tick_eq (machine : Machine) :
    machine.tick =
      { machine with
        timers :=
          { delay := UInt8.ofNat (machine.timers.delay.toNat - 1)
            sound := UInt8.ofNat (machine.timers.sound.toNat - 1) } } := by
  simp only [tick, Timers.tick, ← Timers.toNat_lowered, UInt8.ofNat_toNat]

theorem CycleContract.isFatal_iff {machine next : Machine} {response : Response}
    (contract : CycleContract machine response next) :
    response.isFatal ↔ machine.CallsWhenFull ∨ machine.ReturnsWhenEmpty := by
  rw [← contract.overflow, ← contract.underflow]
  rcases contract.exhaustive with rfl | rfl | rfl | rfl | ⟨instruction, rfl⟩ <;>
    simp [Response.isFatal, Failure.isFatal]

/-- How every cycle and step of every run from power-on ends.  A step gives the
response of its cycle, and ticks unless a failure of the call stack forbids it. -/
theorem run_cycle_contract (random : RandomStream) (operations : List Operation) :
    let machine := (powerOn random).after operations
    CycleContract machine machine.cycle.response machine.cycle.machine ∧
      machine.step.response = machine.cycle.response ∧
      (machine.CallsWhenFull ∨ machine.ReturnsWhenEmpty → machine.step.machine = machine) ∧
      (¬(machine.CallsWhenFull ∨ machine.ReturnsWhenEmpty) →
        machine.step.machine =
          { machine.cycle.machine with
            timers :=
              { delay := UInt8.ofNat (machine.cycle.machine.timers.delay.toNat - 1)
                sound := UInt8.ofNat (machine.cycle.machine.timers.sound.toNat - 1) } }) := by
  intro machine
  have contract := (cycle_verdict (after_bounded random operations)).contract
  refine ⟨contract, machine.step_response, ?_, ?_⟩
  · intro blocked
    rw [step_machine, if_pos (contract.isFatal_iff.mpr blocked)]
    exact contract.keeps (blocked.imp_right .inl)
  · intro free
    rw [step_machine, if_neg fun fatal => free (contract.isFatal_iff.mp fatal)]
    exact tick_eq _

end Machine

end Chip8Vm
