import Chip8Vm.Proofs.Machine.Standstill

/-!
# What the timers show

Beside a run we keep, for each timer, the value last written to it since
power-on or the last reset and the ticks since then.  A tick comes from the
operation of that name and from every step that does not fail fatally, the step
that writes the timer included.  The timer always shows what is left of the
value, and this is what a program reads and what the tone follows.
-/

namespace Chip8Vm

inductive Timer where
  | delay
  | sound

def Timers.value (timers : Timers) : Timer → UInt8
  | .delay => timers.delay
  | .sound => timers.sound

/-- The number of the register that was written to the timer, if the response
reports an executed instruction that does so. -/
def Timer.source? : Timer → Response → Option Nat
  | .delay, .executed (.setDelay x) => some x
  | .sound, .executed (.setSound x) => some x
  | _, _ => none

/-- What was last written to a timer, and the ticks since. -/
structure Countdown where
  value : UInt8
  ticks : Nat

namespace Countdown

def stopped : Countdown where
  value := 0
  ticks := 0

/-- What is left of the value, never less than nothing. -/
def left (countdown : Countdown) : Nat :=
  countdown.value.toNat - countdown.ticks

def later (countdown : Countdown) (ticks : Nat) : Countdown :=
  { countdown with ticks := countdown.ticks + ticks }

theorem later_later (countdown : Countdown) (first second : Nat) :
    (countdown.later first).later second = countdown.later (first + second) := by
  simp only [later, Nat.add_assoc]

theorem left_later (countdown : Countdown) (ticks : Nat) :
    (countdown.later ticks).left = countdown.left - ticks := by
  simp only [later, left, Nat.sub_sub]

end Countdown

namespace Machine

/-- A new countdown if the response reports that the timer was written. -/
def countdownAnswered (machine : Machine) (timer : Timer) (countdown : Countdown)
    (response : Response) : Countdown :=
  match timer.source? response with
  | some x => { value := machine.contents x, ticks := 0 }
  | none => countdown

/-- The countdown of a timer after one more operation. -/
def countdownAfter (machine : Machine) (timer : Timer) (countdown : Countdown) :
    Operation → Countdown
  | .reset => .stopped
  | operation =>
      let response := (machine.perform operation).response
      (machine.countdownAnswered timer countdown response).later
        (operation.ticks response).toNat

/-- The countdown of a timer at the end of a run, `countdown` being the one at
its start. -/
def countdownSince (machine : Machine) (timer : Timer) (countdown : Countdown) :
    List Operation → Countdown
  | [] => countdown
  | operation :: rest =>
      (machine.perform operation).machine.countdownSince timer
        (machine.countdownAfter timer countdown operation) rest

/-- The number of ticks in a run. -/
def ticksIn (machine : Machine) : List Operation → Nat
  | [] => 0
  | operation :: rest =>
      (operation.ticks (machine.perform operation).response).toNat +
        (machine.perform operation).machine.ticksIn rest

/-- Nothing in the run writes to the timer or resets the machine. -/
def LeavesTimer (machine : Machine) (timer : Timer) (operations : List Operation) : Prop :=
  ∀ position operation, operations[position]? = some operation →
    operation ≠ .reset ∧
      timer.source?
        ((machine.after (operations.take position)).perform operation).response = none

/-! ## One operation -/

/-- The timers after the instruction that the response reports. -/
def timersAnswered (machine : Machine) : Response → Timers
  | .executed instruction => machine.timersAfter instruction
  | .done | .awaitingKey | .failed _ | .faulted _ => machine.timers

theorem Outcome.timers {machine next : Machine} {response : Response}
    (outcome : Outcome machine response next) :
    next.timers = machine.timersAnswered response := by
  cases outcome with
  | executed decoded result => exact (execute_effects result).timers
  | @stopped instruction stop decoded result =>
      cases stop with
      | awaitingKey | failure _ | fault _ => rfl
  | skipped undecoded fits => rfl
  | lost undecoded overflow => rfl

theorem load_timers (machine : Machine) {load : Operation} (isLoad : load.isLoad = true) :
    (machine.perform load).machine.timers =
      machine.timersAnswered (machine.perform load).response := by
  have unwritten : machine.timersAnswered (machine.perform load).response =
      machine.timers := by
    rcases machine.load_response isLoad with done | ⟨failure, failed⟩
    · rw [done]
      rfl
    · rw [failed]
      rfl
  rw [unwritten]
  by_cases loaded : (machine.perform load).response = .done
  · obtain ⟨program, -, -, next⟩ := load_done isLoad loaded
    rw [next]
  · rw [load_refused isLoad loaded]

/-- An executed instruction writes the timers before the tick of its own step. -/
theorem perform_timers (machine : Machine) {operation : Operation}
    (kept : operation ≠ .reset) :
    let reply := machine.perform operation
    reply.machine.timers =
      if operation.ticks reply.response then (machine.timersAnswered reply.response).tick
      else machine.timersAnswered reply.response := by
  intro reply
  cases operation with
  | reset => exact absurd rfl kept
  | loadProgram program => exact machine.load_timers rfl
  | loadRom source => exact machine.load_timers rfl
  | setKeys _ | pressKey _ | releaseKey _ | clearRedraw | tick => rfl
  | cycle => exact machine.cycle_outcome.timers
  | step =>
      simp only [reply, perform, step_response, step_machine]
      cases fatal : machine.cycle.response.isFatal with
      | true => simp [Operation.ticks, fatal, machine.cycle_outcome.timers]
      | false => simp [Operation.ticks, fatal, tick, machine.cycle_outcome.timers]

theorem value_timersAnswered (machine : Machine) (timer : Timer) (response : Response) :
    (machine.timersAnswered response).value timer =
      match timer.source? response with
      | some x => machine.contents x
      | none => machine.timers.value timer := by
  cases response with
  | executed instruction => cases timer <;> cases instruction <;> rfl
  | done | awaitingKey | failed _ | faulted _ => cases timer <;> rfl

theorem toNat_value_tick (timers : Timers) (timer : Timer) :
    (timers.tick.value timer).toNat = (timers.value timer).toNat - 1 := by
  cases timer with
  | delay => exact Timers.toNat_lowered timers.delay
  | sound => exact Timers.toNat_lowered timers.sound

theorem countdownAfter_of_ne (machine : Machine) (timer : Timer) (countdown : Countdown)
    {operation : Operation} (kept : operation ≠ .reset) :
    machine.countdownAfter timer countdown operation =
      (machine.countdownAnswered timer countdown (machine.perform operation).response).later
        (operation.ticks (machine.perform operation).response).toNat := by
  cases operation
  case reset => exact absurd rfl kept
  all_goals rfl

section Shows

variable {machine : Machine} {timer : Timer} {countdown : Countdown}
  (shows : (machine.timers.value timer).toNat = countdown.left)

include shows

theorem timersAnswered_countdown (response : Response) :
    ((machine.timersAnswered response).value timer).toNat =
      (machine.countdownAnswered timer countdown response).left := by
  rw [value_timersAnswered, countdownAnswered]
  cases timer.source? response with
  | some x => rfl
  | none => exact shows

theorem perform_countdown (operation : Operation) :
    ((machine.perform operation).machine.timers.value timer).toNat =
      (machine.countdownAfter timer countdown operation).left := by
  by_cases kept : operation = .reset
  · subst kept
    cases timer <;> rfl
  · rw [machine.countdownAfter_of_ne timer countdown kept, Countdown.left_later,
      ← timersAnswered_countdown shows, machine.perform_timers kept]
    cases operation.ticks (machine.perform operation).response with
    | true => exact toNat_value_tick _ timer
    | false => rfl

end Shows

/-! ## Runs -/

theorem after_countdown {machine : Machine} {timer : Timer} {countdown : Countdown}
    (shows : (machine.timers.value timer).toNat = countdown.left)
    (operations : List Operation) :
    ((machine.after operations).timers.value timer).toNat =
      (machine.countdownSince timer countdown operations).left := by
  induction operations generalizing machine countdown with
  | nil => exact shows
  | cons operation rest ih => exact ih (perform_countdown shows operation)

theorem countdownSince_append (machine : Machine) (timer : Timer) (countdown : Countdown)
    (earlier later : List Operation) :
    machine.countdownSince timer countdown (earlier ++ later) =
      (machine.after earlier).countdownSince timer
        (machine.countdownSince timer countdown earlier) later := by
  induction earlier generalizing machine countdown with
  | nil => rfl
  | cons operation rest ih => exact ih _ _

theorem LeavesTimer.countdownSince {machine : Machine} {timer : Timer}
    {operations : List Operation} (leaves : machine.LeavesTimer timer operations)
    (countdown : Countdown) :
    machine.countdownSince timer countdown operations =
      countdown.later (machine.ticksIn operations) := by
  induction operations generalizing machine countdown with
  | nil => rfl
  | cons operation rest ih =>
      obtain ⟨kept, unwritten⟩ := leaves 0 operation rfl
      have laterLeaves : (machine.perform operation).machine.LeavesTimer timer rest :=
        fun position other found => leaves (position + 1) other found
      have now : machine.countdownAnswered timer countdown
          (machine.perform operation).response = countdown := by
        rw [countdownAnswered, show timer.source? (machine.perform operation).response = none
          from unwritten]
      rw [Machine.countdownSince, machine.countdownAfter_of_ne timer countdown kept, now,
        ih laterLeaves, Countdown.later_later, ticksIn]

theorem source?_ne_reset {machine : Machine} {timer : Timer} {operation : Operation} {x : Nat}
    (written : timer.source? (machine.perform operation).response = some x) :
    operation ≠ .reset := by
  rintro rfl
  cases timer <;> cases written

theorem left_of_written {machine : Machine} {timer : Timer} {operation : Operation} {x : Nat}
    (written : timer.source? (machine.perform operation).response = some x)
    {later : List Operation}
    (leaves : (machine.perform operation).machine.LeavesTimer timer later)
    (countdown : Countdown) :
    (machine.countdownSince timer countdown (operation :: later)).left =
      (machine.contents x).toNat - machine.ticksIn (operation :: later) := by
  have now : machine.countdownAnswered timer countdown
      (machine.perform operation).response = { value := machine.contents x, ticks := 0 } := by
    rw [countdownAnswered, written]
  rw [countdownSince, leaves.countdownSince,
    machine.countdownAfter_of_ne timer countdown (source?_ne_reset written), now,
    Countdown.later_later, Countdown.left_later, ticksIn]
  rfl

theorem countdownSince_of_fresh (machine : Machine) (timer : Timer)
    {operations : List Operation}
    (fresh : operations = [] ∨ operations.getLast? = some .reset) :
    machine.countdownSince timer .stopped operations = .stopped := by
  rcases fresh with rfl | last
  · rfl
  · obtain ⟨earlier, rfl⟩ := List.getLast?_eq_some_iff.mp last
    rw [countdownSince_append]
    rfl

/-! ## Reading the delay timer -/

theorem execute_readDelay {machine next : Machine} {x : Nat}
    (executed : machine.execute (.readDelay x) = .ok next) :
    next.registers[x]? = some machine.timers.delay := by
  simp only [execute, bind_eq_ok] at executed
  obtain ⟨register, named, ⟨⟩⟩ := executed
  obtain ⟨valid, rfl⟩ := register_eq_ok named
  simp [setRegister, Registers.write, valid]

theorem perform_readDelay {machine : Machine} {operation : Operation} {x : Nat}
    (answered : (machine.perform operation).response = .executed (.readDelay x)) :
    (operation = .cycle ∨ operation = .step) ∧
      (machine.perform operation).machine.registers[x]? = some machine.timers.delay := by
  obtain ⟨turn, same, timers, next⟩ := (machine.perform_transition operation).isTurn
    (by simp [answered]) (by simp [answered])
  have result := (machine.cycle_outcome.of_executed (same.symm.trans answered)).2
  have received := execute_readDelay result
  refine ⟨turn, ?_⟩
  rw [next]
  exact received

/-! ## The law of the timers -/

/-- Along every run each timer shows what is left of the value last written to it.
The tone plays while something is left of the sound timer, and a program that reads
the delay timer receives what is left of it just before.  The last two parts find
the value and the ticks in the run itself: the writing operation counts with its own
tick, and a timer that nothing wrote since power-on or a reset shows zero. -/
theorem timers_show_what_is_left (random : RandomStream) (operations : List Operation) :
    let start := powerOn random
    let machine := start.after operations
    let left := fun timer => (start.countdownSince timer .stopped operations).left
    (machine.timers.delay.toNat = left .delay ∧ machine.timers.sound.toNat = left .sound) ∧
      (machine.timers.sounding = true ↔ 0 < left .sound) ∧
      (∀ operation x,
        (machine.perform operation).response = .executed (.readDelay x) →
        (operation = .cycle ∨ operation = .step) ∧
          ∃ value, (machine.perform operation).machine.registers[x]? = some value ∧
            value.toNat = left .delay) ∧
      (∀ timer earlier operation later x, operations = earlier ++ operation :: later →
        let before := start.after earlier
        timer.source? (before.perform operation).response = some x →
        (before.perform operation).machine.LeavesTimer timer later →
        left timer = (before.contents x).toNat - before.ticksIn (operation :: later)) ∧
      ∀ timer earlier later, operations = earlier ++ later →
        earlier = [] ∨ earlier.getLast? = some .reset →
        (start.after earlier).LeavesTimer timer later → left timer = 0 := by
  intro start machine left
  have shows : ∀ timer, (machine.timers.value timer).toNat = left timer := by
    intro timer
    apply after_countdown
    cases timer <;> rfl
  refine ⟨⟨shows .delay, shows .sound⟩, ?_, ?_, ?_, ?_⟩
  · rw [← shows .sound]
    simp [Timers.sounding, Timers.value, UInt8.lt_iff_toNat_lt]
  · intro operation x answered
    obtain ⟨turn, received⟩ := perform_readDelay answered
    exact ⟨turn, machine.timers.delay, received, shows .delay⟩
  · rintro timer earlier operation later x rfl before written leaves
    simp only [left, countdownSince_append]
    exact left_of_written written leaves _
  · rintro timer earlier later rfl fresh leaves
    simp only [left]
    rw [countdownSince_append, start.countdownSince_of_fresh timer fresh,
      leaves.countdownSince, Countdown.left_later]
    exact Nat.zero_sub _

end Machine

end Chip8Vm
