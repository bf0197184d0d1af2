import Chip8Vm.Proofs.Machine.Footprint
import Chip8Vm.Machine.Operation

/-!
# Operations and runs

Each operation is described by how the machine after it differs from the
machine before; a cycle is described by its outcome.  What every operation
preserves holds along every run.
-/

namespace Chip8Vm

namespace Machine

/-- What a cycle answers and the machine it leaves behind. -/
inductive Outcome (machine : Machine) : Response → Machine → Prop where
  | executed {instruction : Instruction} {next : Machine}
      (decoded : Instruction.decode? machine.fetch = some instruction)
      (result : machine.execute instruction = .ok next) :
      Outcome machine (.executed instruction) next
  | stopped {instruction : Instruction} {stop : Stop}
      (decoded : Instruction.decode? machine.fetch = some instruction)
      (result : machine.execute instruction = .error stop) :
      Outcome machine (.ofStop stop) machine
  | skipped (undecoded : Instruction.decode? machine.fetch = none)
      (fits : machine.pc.toNat + 2 < 0x10000) :
      Outcome machine (.failed (.malformed machine.fetch machine.pc)) machine.advanced
  | lost (undecoded : Instruction.decode? machine.fetch = none)
      (overflow : 0x10000 ≤ machine.pc.toNat + 2) :
      Outcome machine (.faulted (.addressOverflow (machine.pc.toNat + 2))) machine

theorem passOver_of_lt {machine : Machine} (fits : machine.pc.toNat + 2 < 0x10000) :
    machine.passOver = .ok machine.advanced := by
  have sum : UInt16.ofNat (machine.pc.toNat + 2) = machine.pc + 2 := by
    apply UInt16.toNat_inj.mp
    simp [UInt16.toNat_add]
  simp [passOver, addressSum, fits, bind, Except.bind, pure, Except.pure, goTo, advanced,
    following, sum]

theorem passOver_of_le {machine : Machine} (overflow : 0x10000 ≤ machine.pc.toNat + 2) :
    machine.passOver = .error (.fault (.addressOverflow (machine.pc.toNat + 2))) := by
  simp [passOver, addressSum, Nat.not_lt.mpr overflow, bind, Except.bind]

theorem cycle_outcome (machine : Machine) :
    Outcome machine machine.cycle.response machine.cycle.machine := by
  unfold cycle Instruction.decode
  cases decoded : Instruction.decode? machine.fetch with
  | some instruction =>
      simp only [attempt]
      cases result : machine.execute instruction with
      | ok next => exact .executed decoded result
      | error stop => exact .stopped decoded result
  | none =>
      simp only [skipMalformed]
      by_cases fits : machine.pc.toNat + 2 < 0x10000
      · rw [passOver_of_lt fits]
        exact .skipped decoded fits
      · rw [passOver_of_le (Nat.le_of_not_lt fits)]
        exact .lost decoded (Nat.le_of_not_lt fits)

/-- A cycle has no other outcome than its own. -/
theorem Outcome.eq_cycle {machine next : Machine} {response : Response}
    (outcome : Outcome machine response next) :
    machine.cycle.response = response ∧ machine.cycle.machine = next := by
  cases outcome with
  | executed decoded result =>
      simp [cycle, Instruction.decode, decoded, attempt, result]
  | stopped decoded result =>
      simp [cycle, Instruction.decode, decoded, attempt, result]
  | skipped undecoded fits =>
      simp [cycle, Instruction.decode, undecoded, skipMalformed, passOver_of_lt fits]
  | lost undecoded overflow =>
      simp [cycle, Instruction.decode, undecoded, skipMalformed, passOver_of_le overflow,
        Response.ofStop]

theorem Outcome.of_executed {machine next : Machine} {response : Response}
    {instruction : Instruction} (outcome : Outcome machine response next)
    (answered : response = .executed instruction) :
    Instruction.decode? machine.fetch = some instruction ∧
      machine.execute instruction = .ok next := by
  cases outcome with
  | executed decoded result =>
      cases answered
      exact ⟨decoded, result⟩
  | @stopped _ stop decoded result => cases stop <;> cases answered
  | skipped undecoded fits => cases answered
  | lost undecoded overflow => cases answered

theorem step_response (machine : Machine) : machine.step.response = machine.cycle.response := by
  simp only [step]
  split <;> rfl

theorem step_machine (machine : Machine) :
    machine.step.machine =
      if machine.cycle.response.isFatal then machine.cycle.machine
      else machine.cycle.machine.tick := by
  simp only [step]
  split <;> rfl

theorem loadProgram_machine (machine : Machine) (program : List UInt8) :
    ∃ memory, (machine.loadProgram program).machine = { machine with memory := memory } := by
  unfold loadProgram
  split
  · exact ⟨machine.memory.writeAll Memory.programStart program, rfl⟩
  · exact ⟨machine.memory, rfl⟩

theorem loadProgram_response (machine : Machine) (program : List UInt8) :
    (machine.loadProgram program).response = .done ∨
      ∃ failure, (machine.loadProgram program).response = .failed failure := by
  unfold loadProgram
  split
  · exact .inl rfl
  · exact .inr ⟨_, rfl⟩

theorem loadRom_machine (machine : Machine) (source : ByteSource) :
    ∃ memory, (machine.loadRom source).machine = { machine with memory := memory } := by
  unfold loadRom
  split
  · exact loadProgram_machine machine _
  · exact ⟨machine.memory, rfl⟩

theorem loadRom_response (machine : Machine) (source : ByteSource) :
    (machine.loadRom source).response = .done ∨
      ∃ failure, (machine.loadRom source).response = .failed failure := by
  unfold loadRom
  split
  · exact loadProgram_response machine _
  · exact .inr ⟨_, rfl⟩

/-! ## What an operation can do -/

/-- A reset, a turn of the processor, or an operation from outside.  The last
leaves the registers, the index, the program counter, the call stack and the
screen alone and never raises the redraw flag. -/
inductive Transition (machine : Machine) (operation : Operation) :
    Response → Machine → Prop where
  | reset (isReset : operation = .reset) :
      Transition machine operation .done machine.reset
  | turn (isTurn : operation = .cycle ∨ operation = .step) (timers : Timers) :
      Transition machine operation machine.cycle.response
        { machine.cycle.machine with timers := timers }
  | outside {response : Response}
      (isOutside : operation ≠ .reset ∧ operation ≠ .cycle ∧ operation ≠ .step)
      (answered : response = .done ∨ ∃ failure, response = .failed failure)
      (memory : Memory) (keypad : Keypad) (timers : Timers) (redraw : Bool)
      (flag : redraw = machine.redraw ∨ redraw = false) :
      Transition machine operation response
        { machine with
          memory := memory, keypad := keypad, timers := timers, redraw := redraw }

theorem perform_transition (machine : Machine) (operation : Operation) :
    Transition machine operation (machine.perform operation).response
      (machine.perform operation).machine := by
  cases operation with
  | reset => exact .reset rfl
  | cycle => exact .turn (.inl rfl) machine.cycle.machine.timers
  | step =>
      rw [perform, step_response, step_machine]
      split
      · exact .turn (.inr rfl) machine.cycle.machine.timers
      · exact .turn (.inr rfl) machine.cycle.machine.timers.tick
  | loadProgram program =>
      obtain ⟨memory, loaded⟩ := machine.loadProgram_machine program
      rw [perform, loaded]
      exact .outside (by simp) (machine.loadProgram_response program)
        memory machine.keypad machine.timers machine.redraw (.inl rfl)
  | loadRom source =>
      obtain ⟨memory, loaded⟩ := machine.loadRom_machine source
      rw [perform, loaded]
      exact .outside (by simp) (machine.loadRom_response source)
        memory machine.keypad machine.timers machine.redraw (.inl rfl)
  | setKeys keypad =>
      exact .outside (by simp) (.inl rfl)
        machine.memory keypad machine.timers machine.redraw (.inl rfl)
  | pressKey name =>
      exact .outside (by simp) (.inl rfl)
        machine.memory (machine.keypad.press name) machine.timers machine.redraw (.inl rfl)
  | releaseKey name =>
      exact .outside (by simp) (.inl rfl)
        machine.memory (machine.keypad.release name) machine.timers machine.redraw (.inl rfl)
  | clearRedraw =>
      exact .outside (by simp) (.inl rfl)
        machine.memory machine.keypad machine.timers false (.inr rfl)
  | tick =>
      exact .outside (by simp) (.inl rfl)
        machine.memory machine.keypad machine.timers.tick machine.redraw (.inl rfl)

/-- An answer other than success and failure comes from a turn of the
processor. -/
theorem Transition.isTurn {machine next : Machine} {operation : Operation}
    {response : Response} (transition : Transition machine operation response next)
    (unfinished : response ≠ .done) (unfailed : ∀ failure, response ≠ .failed failure) :
    (operation = .cycle ∨ operation = .step) ∧ response = machine.cycle.response ∧
      ∃ timers, next = { machine.cycle.machine with timers := timers } := by
  cases transition with
  | reset isReset => exact absurd rfl unfinished
  | turn isTurn timers => exact ⟨isTurn, rfl, timers, rfl⟩
  | outside isOutside answered memory keypad timers redraw flag =>
      rcases answered with done | ⟨failure, failed⟩
      · exact absurd done unfinished
      · exact absurd failed (unfailed failure)

theorem perform_turn_response {machine : Machine} {operation : Operation}
    (turn : operation = .cycle ∨ operation = .step) :
    (machine.perform operation).response = machine.cycle.response := by
  rcases turn with rfl | rfl
  · rfl
  · exact machine.step_response

/-! ## Runs -/

theorem after_invariant {Invariant : Machine → Prop}
    (preserved : ∀ machine operation, Invariant machine →
      Invariant (machine.perform operation).machine)
    {machine : Machine} (initial : Invariant machine) (operations : List Operation) :
    Invariant (machine.after operations) := by
  induction operations generalizing machine with
  | nil => exact initial
  | cons operation rest ih => exact ih (preserved machine operation initial)

end Machine

end Chip8Vm
