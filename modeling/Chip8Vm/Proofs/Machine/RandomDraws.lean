import Chip8Vm.Proofs.Machine.CycleContract
import Chip8Vm.Proofs.Machine.Effects

/-!
# Random draws along a run

A draw is taken by an executed `random` instruction and by nothing else: no
failure, no wait for a key, no load and no reset moves the stream.  The draws
of a run therefore go to its random instructions one by one, in their order.
-/

namespace Chip8Vm

theorem RandomStream.toNat_progression (start step : UInt64) (position : Nat) :
    ((progression start step).draws position).toNat =
      (start.toNat + position * step.toNat) % UInt64.size := by
  simp only [progression, UInt64.toNat_add, UInt64.toNat_mul, UInt64.toNat_ofNat']
  rw [Nat.add_mod_mod, Nat.add_mod start.toNat, Nat.mod_mul_mod, ← Nat.add_mod]

/-- The low byte of a draw is what remains of it modulo 256. -/
theorem RandomStream.nextByte_eq (random : RandomStream) :
    random.nextByte = UInt8.ofNat ((random.draws random.taken).toNat % 0x100) := by
  apply UInt8.toNat_inj.mp
  simp [nextByte]

/-- An executed instruction that takes a draw. -/
def Response.draws : Response → Bool
  | .executed instruction => instruction.draws
  | _ => false

theorem Response.draws_iff (response : Response) :
    response.draws = true ↔ ∃ x nn, response = .executed (.random x nn) := by
  constructor
  · intro draws
    cases response with
    | executed instruction =>
        cases instruction
        case random x nn => exact ⟨x, nn, rfl⟩
        all_goals cases draws
    | done | awaitingKey | failed _ | faulted _ => cases draws
  · rintro ⟨x, nn, rfl⟩
    rfl

namespace Machine

/-- How many operations of a run answer that they executed a `random`
instruction. -/
def drawsIn (machine : Machine) (operations : List Operation) : Nat :=
  (machine.performAll operations).countP fun reply => reply.response.draws

theorem drawsIn_cons (machine : Machine) (operation : Operation) (rest : List Operation) :
    machine.drawsIn (operation :: rest) =
      (if (machine.perform operation).response.draws then 1 else 0) +
        (machine.perform operation).machine.drawsIn rest := by
  simp only [drawsIn, performAll, List.countP_cons]
  rw [Nat.add_comm]

/-! ## One operation -/

theorem Outcome.random {machine next : Machine} {response : Response}
    (outcome : Outcome machine response next) :
    next.random = if response.draws then machine.random.advance else machine.random := by
  cases outcome with
  | executed decoded result => exact (execute_effects result).random
  | @stopped instruction stop decoded result => cases stop <;> rfl
  | skipped undecoded fits => rfl
  | lost undecoded overflow => rfl

theorem Transition.random {machine next : Machine} {operation : Operation}
    {response : Response} (transition : Transition machine operation response next) :
    next.random = if response.draws then machine.random.advance else machine.random := by
  cases transition with
  | reset isReset => rfl
  | turn isTurn timers => exact machine.cycle_outcome.random
  | outside isOutside answered memory keypad timers redraw flag =>
      rcases answered with rfl | ⟨failure, rfl⟩
      · rfl
      · rfl

theorem execute_random {machine next : Machine} {x : Nat} {nn : UInt8}
    (executed : machine.execute (.random x nn) = .ok next) :
    next.registers[x]? = some (machine.random.nextByte &&& nn) := by
  simp only [execute, bind_eq_ok] at executed
  obtain ⟨register, named, ⟨⟩⟩ := executed
  obtain ⟨valid, rfl⟩ := register_eq_ok named
  simp [setRandom, setRegister, Registers.write, valid]

theorem perform_random {machine : Machine} (bounded : machine.Bounded)
    {operation : Operation} {x : Nat} {nn : UInt8}
    (drawn : (machine.perform operation).response = .executed (.random x nn)) :
    (operation = .cycle ∨ operation = .step) ∧
      (machine.perform operation).machine.registers[x]? =
        some (machine.random.nextByte &&& nn) := by
  obtain ⟨turn, same, timers, next⟩ := (machine.perform_transition operation).isTurn
    (by simp [drawn]) (by simp [drawn])
  obtain ⟨-, result⟩ :=
    (cycle_verdict bounded).contract.follows (.random x nn) (same.symm.trans drawn)
  have received := execute_random result
  refine ⟨turn, ?_⟩
  rw [next]
  exact received

/-! ## Runs -/

theorem after_random (machine : Machine) (operations : List Operation) :
    (machine.after operations).random =
      { machine.random with taken := machine.random.taken + machine.drawsIn operations } := by
  induction operations generalizing machine with
  | nil => rfl
  | cons operation rest ih =>
      have stream := (machine.perform_transition operation).random
      rw [drawsIn_cons]
      refine (ih (machine.perform operation).machine).trans ?_
      rw [stream]
      split
      · simp only [RandomStream.advance, Nat.add_assoc]
      · simp only [Nat.zero_add]

/-- Along every run the stream stands as many draws further as random
instructions were executed, the one executed after `drawsIn` others receives the
low byte of the draw with that number, and an operation that executes none leaves
the stream alone.  The draws of a progression are its terms modulo 2 ^ 64. -/
theorem draws_follow_random_instructions (random : RandomStream)
    (operations : List Operation) (operation : Operation) :
    let machine := (powerOn random).after operations
    let earlier := (powerOn random).drawsIn operations
    let reply := machine.perform operation
    machine.random = { random with taken := random.taken + earlier } ∧
      (∀ x nn, reply.response = .executed (.random x nn) →
        (operation = .cycle ∨ operation = .step) ∧
          reply.machine.random = { random with taken := random.taken + earlier + 1 } ∧
          reply.machine.registers[x]? =
            some (UInt8.ofNat
              ((random.draws (random.taken + earlier)).toNat % 0x100) &&& nn)) ∧
      ((¬∃ x nn, reply.response = .executed (.random x nn)) →
        reply.machine.random = machine.random) ∧
      ∀ (start step : UInt64) (position : Nat),
        ((RandomStream.progression start step).draws position).toNat =
          (start.toNat + position * step.toNat) % UInt64.size := by
  intro machine earlier reply
  have stream : machine.random = { random with taken := random.taken + earlier } :=
    (powerOn random).after_random operations
  have moved := (machine.perform_transition operation).random
  refine ⟨stream, ?_, ?_, RandomStream.toNat_progression⟩
  · intro x nn drawn
    have draws : reply.response.draws = true := (Response.draws_iff _).mpr ⟨x, nn, drawn⟩
    obtain ⟨turn, received⟩ := perform_random (after_bounded random operations) drawn
    refine ⟨turn, ?_, ?_⟩
    · rw [moved, if_pos draws, stream]
      rfl
    · rw [received, RandomStream.nextByte_eq, stream]
  · intro undrawn
    rw [moved, if_neg fun draws => undrawn ((Response.draws_iff _).mp draws)]

end Machine

end Chip8Vm
