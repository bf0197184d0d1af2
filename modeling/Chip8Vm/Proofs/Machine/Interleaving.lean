import Chip8Vm.Proofs.Machine.Devices
import Chip8Vm.Proofs.Machine.Run

/-!
# Interleaving cycles and ticks

The timers tick at a rate of their own, so a run mixes cycles and ticks in an
order that nothing fixes.  Only three instructions look at the timers or set
them.  A cycle that executes none of the three can be exchanged with the tick
next to it, and so, exchange by exchange, two mixtures of the same cycles and
ticks give the same responses and the same machine.
-/

namespace Chip8Vm

/-- One cycle of the processor or one tick of the timers. -/
inductive Beat where
  | cycle
  | tick
  deriving DecidableEq

def Beat.operation : Beat → Operation
  | .cycle => .cycle
  | .tick => .tick

/-- An executed instruction that reads a timer or sets one. -/
def Response.usesTimers : Response → Bool
  | .executed instruction => instruction.usesTimers
  | _ => false

namespace Machine

def afterBeats (machine : Machine) (beats : List Beat) : Machine :=
  machine.after (beats.map Beat.operation)

/-- What the cycles among the beats answer, in their order. -/
def cycleResponses (machine : Machine) : List Beat → List Response
  | [] => []
  | .cycle :: rest => machine.cycle.response :: machine.cycle.machine.cycleResponses rest
  | .tick :: rest => machine.tick.cycleResponses rest

/-! ## A tick before an instruction -/

/-- Whether an instruction is executed does not depend on the timers, not even
for the instructions that use them. -/
theorem execute_tick_cases (machine : Machine) (instruction : Instruction) :
    (∃ stop, machine.execute instruction = .error stop ∧
        machine.tick.execute instruction = .error stop) ∨
      ∃ next later, machine.execute instruction = .ok next ∧
        machine.tick.execute instruction = .ok later ∧
        (instruction.usesTimers = false → later = next.tick) := by
  by_cases timed : instruction.usesTimers = true
  · cases instruction
    case readDelay x | setDelay x | setSound x =>
        simp only [execute]
        cases register x with
        | error stop => exact .inl ⟨stop, rfl, rfl⟩
        | ok register =>
            refine .inr ⟨_, _, rfl, rfl, ?_⟩
            intro untimed
            cases untimed
    all_goals cases timed
  · rw [execute_tick (Bool.eq_false_iff.mpr timed)]
    cases machine.execute instruction with
    | error stop => exact .inl ⟨stop, rfl, rfl⟩
    | ok next => exact .inr ⟨next, next.tick, rfl, rfl, fun _ => rfl⟩

/-! ## A tick before a cycle -/

theorem Outcome.tick {machine next : Machine} {response : Response}
    (outcome : Outcome machine response next) :
    ∃ later, Outcome machine.tick response later ∧
      (response.usesTimers = false → later = next.tick) := by
  cases outcome with
  | @executed instruction _ decoded result =>
      rcases machine.execute_tick_cases instruction with ⟨stop, stopped, -⟩ |
        ⟨following, later, before, after, untimed⟩
      · cases stopped.symm.trans result
      · cases before.symm.trans result
        exact ⟨later, .executed decoded after, untimed⟩
  | @stopped instruction stop decoded result =>
      rcases machine.execute_tick_cases instruction with ⟨other, before, after⟩ |
        ⟨following, later, executed, -⟩
      · cases before.symm.trans result
        exact ⟨machine.tick, .stopped decoded after, fun _ => rfl⟩
      · cases executed.symm.trans result
  | skipped undecoded fits =>
      exact ⟨machine.advanced.tick, .skipped undecoded fits, fun _ => rfl⟩
  | lost undecoded overflow => exact ⟨machine.tick, .lost undecoded overflow, fun _ => rfl⟩

theorem cycle_tick_response (machine : Machine) :
    machine.tick.cycle.response = machine.cycle.response := by
  obtain ⟨later, outcome, -⟩ := machine.cycle_outcome.tick
  exact outcome.eq_cycle.1

theorem cycle_tick_machine {machine : Machine}
    (untimed : machine.cycle.response.usesTimers = false) :
    machine.tick.cycle.machine = machine.cycle.machine.tick := by
  obtain ⟨later, outcome, exchanged⟩ := machine.cycle_outcome.tick
  rw [outcome.eq_cycle.2]
  exact exchanged untimed

/-! ## Exchanging beats -/

theorem afterBeats_cycle (machine : Machine) (beats : List Beat) :
    machine.afterBeats (.cycle :: beats) = machine.cycle.machine.afterBeats beats := rfl

theorem afterBeats_tick (machine : Machine) (beats : List Beat) :
    machine.afterBeats (.tick :: beats) = machine.tick.afterBeats beats := rfl

/-- A tick and the cycle next to it can change places. -/
theorem exchange {machine : Machine} (untimed : machine.cycle.response.usesTimers = false)
    (beats : List Beat) :
    machine.cycleResponses (.tick :: .cycle :: beats) =
        machine.cycleResponses (.cycle :: .tick :: beats) ∧
      machine.afterBeats (.tick :: .cycle :: beats) =
        machine.afterBeats (.cycle :: .tick :: beats) := by
  simp only [cycleResponses, afterBeats_cycle, afterBeats_tick,
    cycle_tick_response, cycle_tick_machine untimed, and_self]

theorem beats_perm {first second : List Beat} (mixed : first.Perm second)
    (machine : Machine)
    (untimed : ∀ response, response ∈ machine.cycleResponses first →
      response.usesTimers = false) :
    machine.cycleResponses first = machine.cycleResponses second ∧
      machine.afterBeats first = machine.afterBeats second := by
  induction mixed generalizing machine with
  | nil => exact ⟨rfl, rfl⟩
  | cons beat mixed ih =>
      cases beat with
      | cycle =>
          obtain ⟨responses, final⟩ := ih machine.cycle.machine fun response member =>
            untimed response (List.mem_cons_of_mem _ member)
          exact ⟨congrArg (machine.cycle.response :: ·) responses, final⟩
      | tick => exact ih machine.tick untimed
  | swap second first rest =>
      cases first with
      | cycle =>
          cases second with
          | cycle => exact ⟨rfl, rfl⟩
          | tick =>
              obtain ⟨responses, final⟩ :=
                exchange (untimed machine.cycle.response List.mem_cons_self) rest
              exact ⟨responses.symm, final.symm⟩
      | tick =>
          cases second with
          | cycle =>
              have quiet := untimed machine.tick.cycle.response List.mem_cons_self
              rw [cycle_tick_response] at quiet
              exact exchange quiet rest
          | tick => exact ⟨rfl, rfl⟩
  | trans _ _ ihFirst ihSecond =>
      -- The middle mixture is as untimed as the first: it gives the same responses.
      obtain ⟨responses, final⟩ := ihFirst machine untimed
      obtain ⟨responses', final'⟩ := ihSecond machine (responses ▸ untimed)
      exact ⟨responses.trans responses', final.trans final'⟩

/-- Two mixtures of equally many cycles and equally many ticks: if no cycle of
the first executes an instruction that uses the timers, each cycle answers the
same in both, equally many random draws are taken and the machines at the end
are the same. -/
theorem mixtures_agree (machine : Machine) {first second : List Beat}
    (cycles : first.count .cycle = second.count .cycle)
    (ticks : first.count .tick = second.count .tick)
    (untimed : ∀ instruction, .executed instruction ∈ machine.cycleResponses first →
      instruction.usesTimers = false) :
    machine.cycleResponses first = machine.cycleResponses second ∧
      (machine.afterBeats first).random.taken = (machine.afterBeats second).random.taken ∧
      machine.afterBeats first = machine.afterBeats second := by
  have mixed : first.Perm second := by
    apply List.perm_iff_count.mpr
    intro beat
    cases beat with
    | cycle => exact cycles
    | tick => exact ticks
  have quiet : ∀ response, response ∈ machine.cycleResponses first →
      response.usesTimers = false := by
    intro response member
    cases response with
    | executed instruction => exact untimed instruction member
    | done | awaitingKey | failed _ | faulted _ => rfl
  obtain ⟨responses, final⟩ := beats_perm mixed machine quiet
  exact ⟨responses, congrArg (·.random.taken) final, final⟩

/-- The delay timer runs while a random byte is drawn, a malformed word is passed
over and a return fails. -/
theorem mixtures_agree_past_failures :
    let machine := (powerOn (.progression 7 1)).after
      [.loadProgram [0x60, 0x05, 0xF0, 0x15, 0xC1, 0xFF, 0xFF, 0xFF, 0x00, 0xEE],
        .cycle, .cycle]
    let first := [Beat.cycle, .tick, .cycle, .tick, .cycle]
    let second := [Beat.tick, .tick, .cycle, .cycle, .cycle]
    machine.cycleResponses first =
        [.executed (.random 1 0xFF), .failed (.malformed 0xFFFF 0x206),
          .failed (.stackUnderflow 0x208)] ∧
      machine.cycleResponses first = machine.cycleResponses second ∧
      (machine.afterBeats first).random.taken = (machine.afterBeats second).random.taken ∧
      machine.afterBeats first = machine.afterBeats second := by
  intro machine first second
  have responses : machine.cycleResponses first =
      [.executed (.random 1 0xFF), .failed (.malformed 0xFFFF 0x206),
        .failed (.stackUnderflow 0x208)] := by
    decide +kernel
  refine ⟨responses, mixtures_agree machine (by decide) (by decide) ?_⟩
  intro instruction member
  rw [responses] at member
  simp only [List.mem_cons, Response.executed.injEq, reduceCtorEq, List.not_mem_nil,
    or_false] at member
  rw [member]
  rfl

end Machine

end Chip8Vm
