import Chip8Vm.Proofs.Machine.CycleContract
import Chip8Vm.Proofs.Machine.KeyTiming
import Chip8Vm.Proofs.Machine.Provenance

/-!
# Machines that stand still

A machine stands still when no cycle can execute its next word: every cycle
then gives the same answer and leaves the machine as it was.  A failure of the
call stack stands still for good, whatever happens to the keys and the timers,
until a program is loaded or the machine is reset.  A wait for a key stands
still until a key is held down, and then takes the lowest one.
-/

namespace Chip8Vm

namespace Timers

/-- The timers a number of ticks later. -/
def loweredBy (timers : Timers) (count : Nat) : Timers where
  delay := UInt8.ofNat (timers.delay.toNat - count)
  sound := UInt8.ofNat (timers.sound.toNat - count)

theorem loweredBy_zero (timers : Timers) : timers.loweredBy 0 = timers := by
  simp [loweredBy]

theorem loweredBy_tick (timers : Timers) (count : Nat) :
    timers.tick.loweredBy count = timers.loweredBy (count + 1) := by
  simp only [loweredBy, tick, toNat_lowered, Nat.sub_sub, Nat.add_comm 1]

end Timers

namespace Operation

def isTick : Operation → Bool
  | .tick => true
  | _ => false

def isStep : Operation → Bool
  | .step => true
  | _ => false

/-- The operations that let the timers tick while every cycle gives the same
response: a step does unless the response is fatal. -/
def ticks (response : Response) : Operation → Bool
  | .tick => true
  | .step => !response.isFatal
  | _ => false

/-- The operations after which no key is held down if none was before. -/
def PressesNothing : Operation → Prop
  | .pressKey _ => False
  | .setKeys keypad => keypad = .released
  | _ => True

theorem PressesNothing.afterOperation {operation : Operation}
    (idle : operation.PressesNothing) :
    Keypad.released.afterOperation operation = .released := by
  cases operation
  case pressKey => cases idle
  case setKeys keypad => exact idle
  case releaseKey name => exact Keypad.release_released name
  all_goals rfl

theorem foldl_released {operations : List Operation}
    (idle : ∀ operation, operation ∈ operations → operation.PressesNothing) :
    operations.foldl Keypad.afterOperation .released = .released := by
  induction operations with
  | nil => rfl
  | cons operation rest ih =>
      rw [List.foldl_cons, (idle operation List.mem_cons_self).afterOperation]
      exact ih fun other member => idle other (List.mem_cons_of_mem operation member)

end Operation

namespace Machine

/-- The operation leaves the program in its place: it is no reset, and no load
that succeeds. -/
structure Spares (machine : Machine) (operation : Operation) : Prop where
  kept : operation ≠ .reset
  refused : operation.isLoad = true → (machine.perform operation).response ≠ .done

/-- The machine with other timers, keys and redraw flag. -/
def surroundedBy (machine : Machine) (timers : Timers) (keypad : Keypad) (redraw : Bool) :
    Machine :=
  { machine with timers := timers, keypad := keypad, redraw := redraw }

/-- Every cycle gives `response` and leaves the machine as it is, whatever the
timers and the redraw flag are and whichever keys are held down, as long as
`Allowed` admits them. -/
def StandsStill (machine : Machine) (Allowed : Keypad → Prop) (response : Response) : Prop :=
  ∀ timers keypad redraw, Allowed keypad →
    Outcome (machine.surroundedBy timers keypad redraw) response
      (machine.surroundedBy timers keypad redraw)

/-! ## One operation on a machine that stands still -/

section StandingStill

variable {start : Machine} {Allowed : Keypad → Prop} {response : Response}
  {timers : Timers} {keypad : Keypad} {redraw : Bool}

theorem StandsStill.perform (still : start.StandsStill Allowed response)
    (allowed : Allowed keypad) {operation : Operation}
    (spares : (start.surroundedBy timers keypad redraw).Spares operation) :
    let reply := (start.surroundedBy timers keypad redraw).perform operation
    (operation = .cycle ∨ operation = .step → reply.response = response) ∧
      ∃ flag, reply.machine =
        start.surroundedBy (if operation.ticks response then timers.tick else timers)
          (keypad.afterOperation operation) flag := by
  intro reply
  obtain ⟨answer, unchanged⟩ := (still timers keypad redraw allowed).eq_cycle
  refine ⟨fun turn => (perform_turn_response turn).trans answer, ?_⟩
  cases operation with
  | reset => exact absurd rfl spares.kept
  | loadProgram program => exact ⟨redraw, load_refused rfl (spares.refused rfl)⟩
  | loadRom source => exact ⟨redraw, load_refused rfl (spares.refused rfl)⟩
  | setKeys _ | pressKey _ | releaseKey _ | tick => exact ⟨redraw, rfl⟩
  | clearRedraw => exact ⟨false, rfl⟩
  | cycle => exact ⟨redraw, unchanged⟩
  | step =>
      refine ⟨redraw, (step_machine _).trans ?_⟩
      rw [answer, unchanged]
      cases fatal : response.isFatal with
      | true => simp [Operation.ticks, fatal, Keypad.afterOperation]
      | false => simp [Operation.ticks, fatal, Keypad.afterOperation, tick, surroundedBy]

/-! ## Runs of a machine that stands still -/

theorem StandsStill.run (still : start.StandsStill Allowed response)
    {operations : List Operation}
    (kept : ∀ operation, operation ∈ operations → ∀ keys, Allowed keys →
      Allowed (keys.afterOperation operation))
    (allowed : Allowed keypad) {machine : Machine}
    (now : machine = start.surroundedBy timers keypad redraw)
    (spares : ∀ position operation, operations[position]? = some operation →
      (machine.after (operations.take position)).Spares operation) :
    (∀ position operation, operations[position]? = some operation →
        operation = .cycle ∨ operation = .step →
        ((machine.after (operations.take position)).perform operation).response = response) ∧
      ∀ position, ∃ flag,
        machine.after (operations.take position) =
          start.surroundedBy
            (timers.loweredBy ((operations.take position).countP (·.ticks response)))
            ((operations.take position).foldl Keypad.afterOperation keypad) flag := by
  -- Each operation leads from the start in some surroundings to the start in
  -- others, so the surroundings vary along the induction and the start does not.
  induction operations generalizing machine timers keypad redraw with
  | nil =>
      refine ⟨nofun, fun position => ⟨redraw, ?_⟩⟩
      rw [List.take_nil, List.countP_nil, Timers.loweredBy_zero]
      exact now
  | cons operation rest ih =>
      subst now
      obtain ⟨answer, flag, next⟩ := still.perform allowed (spares 0 operation rfl)
      obtain ⟨answers, places⟩ := ih
        (fun other member => kept other (List.mem_cons_of_mem operation member))
        (kept operation List.mem_cons_self keypad allowed) next
        (fun position other found => spares (position + 1) other found)
      constructor
      · intro position other found turn
        cases position with
        | zero =>
            cases found
            exact answer turn
        | succ position => exact answers position other found turn
      · intro position
        cases position with
        | zero =>
            refine ⟨redraw, ?_⟩
            rw [List.take_zero, List.countP_nil, Timers.loweredBy_zero]
            rfl
        | succ position =>
            obtain ⟨final, reached⟩ := places position
            refine ⟨final, Eq.trans reached ?_⟩
            rw [List.take_succ_cons, List.countP_cons]
            cases operation.ticks response with
            | true => simp only [if_pos, Timers.loweredBy_tick, List.foldl_cons]
            | false => rfl

end StandingStill

theorem standsStill_of_stop {machine : Machine} {Allowed : Keypad → Prop}
    {instruction : Instruction} (stop : Stop)
    (decoded : Instruction.decode? machine.fetch = some instruction)
    (stopped : ∀ timers keypad redraw, Allowed keypad →
      (machine.surroundedBy timers keypad redraw).execute instruction = .error stop) :
    machine.StandsStill Allowed (.ofStop stop) := by
  intro timers keypad redraw allowed
  have fetched : Instruction.decode? (machine.surroundedBy timers keypad redraw).fetch =
      some instruction := decoded
  exact .stopped fetched (stopped timers keypad redraw allowed)

/-! ## Failures of the call stack -/

theorem Outcome.of_fatal {machine next : Machine} {response : Response} {failure : Failure}
    (outcome : Outcome machine response next) (failed : response = .failed failure)
    (fatal : failure.isFatal = true) :
    (∃ nnn, Instruction.decode? machine.fetch = some (.call nnn) ∧
        16 ≤ machine.stack.depth.toNat ∧ failure = .stackOverflow machine.pc) ∨
      (Instruction.decode? machine.fetch = some .ret ∧ machine.stack.depth = 0 ∧
        failure = .stackUnderflow machine.pc) := by
  cases outcome with
  | executed decoded result => cases failed
  | skipped undecoded fits =>
      cases failed
      cases fatal
  | lost undecoded overflow => cases failed
  | stopped decoded result =>
      rcases execute_stop_cases result with ⟨fault, rfl⟩ | ⟨x, rfl, idle, rfl⟩ |
        ⟨nnn, rfl, full, rfl⟩ | ⟨rfl, empty, rfl⟩
      · cases failed
      · cases failed
      · cases failed
        exact .inl ⟨nnn, decoded, full, rfl⟩
      · cases failed
        exact .inr ⟨decoded, empty, rfl⟩

/-- What a failure of the call stack depends on, neither a key nor a timer can
change. -/
theorem standsStill_of_fatal {machine : Machine} {failure : Failure}
    (failed : machine.cycle.response = .failed failure) (fatal : failure.isFatal = true) :
    machine.StandsStill (fun _ => True) (.failed failure) := by
  rcases machine.cycle_outcome.of_fatal failed fatal with
    ⟨nnn, decoded, full, rfl⟩ | ⟨decoded, empty, rfl⟩
  · apply standsStill_of_stop (.failure (.stackOverflow machine.pc)) decoded
    intro timers keypad redraw _
    exact enter_eq_error_iff.mpr ⟨full, rfl⟩
  · apply standsStill_of_stop (.failure (.stackUnderflow machine.pc)) decoded
    intro timers keypad redraw _
    exact leave_of_empty empty

theorem ticks_of_fatal {failure : Failure} (fatal : failure.isFatal = true) :
    Operation.ticks (.failed failure) = Operation.isTick := by
  funext operation
  cases operation
  case step => simp [Operation.ticks, Operation.isTick, Response.isFatal, fatal]
  all_goals rfl

/-- After a fatal failure every cycle and every step fails in the same way, as
long as the program stays in its place.  Nothing moves but the timers, which only
the ticks themselves lower, the keys and the redraw flag. -/
theorem fatal_failure_absorbs {machine : Machine} {failure : Failure}
    (failed : machine.cycle.response = .failed failure) (fatal : failure.isFatal = true)
    {operations : List Operation}
    (spares : ∀ position operation, operations[position]? = some operation →
      (machine.after (operations.take position)).Spares operation) :
    (∀ position operation, operations[position]? = some operation →
        operation = .cycle ∨ operation = .step →
        ((machine.after (operations.take position)).perform operation).response =
          .failed failure) ∧
      ∀ position, ∃ redraw,
        let passed := operations.take position
        machine.after passed =
          { machine with
            timers := machine.timers.loweredBy (passed.countP Operation.isTick)
            keypad := passed.foldl Keypad.afterOperation machine.keypad
            redraw := redraw } := by
  have still := standsStill_of_fatal failed fatal
  have absorbed := still.run (fun _ _ _ _ => trivial) trivial rfl spares
  rw [ticks_of_fatal fatal] at absorbed
  exact absorbed

/-- A return without a call fails however often it is tried, past ticks, keys and
a load that breaks. -/
theorem lone_return_absorbs :
    let machine := (powerOn (.progression 0 0)).after
      [.loadProgram [0x60, 0x05, 0xF0, 0x15, 0x00, 0xEE], .cycle, .cycle]
    let operations := [Operation.step, .tick, .pressKey 3, .loadRom (.broken "gone"), .cycle]
    ((machine.after (operations.take 4)).perform .cycle).response =
        .failed (.stackUnderflow 0x204) ∧
      ∃ redraw, machine.after operations =
        { machine with
          timers := machine.timers.loweredBy 1
          keypad := machine.keypad.press 3
          redraw := redraw } := by
  intro machine operations
  have failed : machine.cycle.response = .failed (.stackUnderflow 0x204) := by
    decide +kernel
  have spares : ∀ position operation, operations[position]? = some operation →
      (machine.after (operations.take position)).Spares operation := by
    intro position operation found
    match position with
    | 0 | 1 | 2 | 4 =>
        cases found
        exact ⟨nofun, nofun⟩
    | 3 =>
        cases found
        exact ⟨nofun, fun _ => nofun⟩
  have absorbed := fatal_failure_absorbs failed rfl spares
  refine ⟨absorbed.1 4 .cycle rfl (.inl rfl), ?_⟩
  have whole : operations.take 5 = operations := rfl
  have ticked : operations.countP Operation.isTick = 1 := rfl
  have pressed : ∀ keypad, operations.foldl Keypad.afterOperation keypad = keypad.press 3 :=
    fun _ => rfl
  obtain ⟨redraw, reached⟩ := absorbed.2 5
  refine ⟨redraw, ?_⟩
  simp only [whole, ticked, pressed] at reached
  exact reached

/-! ## Waiting for a key -/

theorem standsStill_of_waiting {machine : Machine} (waiting : machine.WaitsWithoutKey) :
    machine.StandsStill (· = .released) .awaitingKey := by
  obtain ⟨⟨x, decoded⟩, -⟩ := (waitsWithoutKey_iff machine).mp waiting
  apply standsStill_of_stop .awaitingKey decoded
  intro timers keypad redraw released
  have idle : keypad.lowest? = none := by
    rw [released]
    rfl
  simp only [execute, surroundedBy, idle]

theorem ticks_of_waiting :
    Operation.ticks .awaitingKey = fun operation => operation.isTick || operation.isStep := by
  funext operation
  cases operation
  all_goals rfl

theorem after_keys (machine : Machine) {operations : List Operation}
    (keys : ∀ operation, operation ∈ operations → operation.isKey = true) :
    machine.after operations =
      machine.setKeys (operations.foldl Keypad.afterOperation machine.keypad) := by
  induction operations generalizing machine with
  | nil => rfl
  | cons operation rest ih =>
      have next := perform_key (keys operation List.mem_cons_self) machine
      refine (ih (machine.perform operation).machine fun other member =>
        keys other (List.mem_cons_of_mem operation member)).trans ?_
      rw [next]
      rfl

/-- A wait for a key takes the lowest key that is held down. -/
theorem cycle_of_key {machine : Machine} {word : Word} (fetched : machine.fetch = word)
    (waits : word.family = 0xF ∧ word.nn = 0x0A) {key : Fin 16}
    (lowest : machine.keypad.lowest? = some key) :
    machine.cycle.response = .executed (.waitKey word.x) ∧
      machine.cycle.machine = machine.setRegister ⟨word.x, word.x_lt⟩ (UInt8.ofNat key.val) := by
  have decoded : Instruction.decode? machine.fetch = some (.waitKey word.x) := by
    rw [fetched]
    exact Instruction.decode?_waitKey waits.1 waits.2
  have result : machine.execute (.waitKey word.x) =
      .ok (machine.setRegister ⟨word.x, word.x_lt⟩ (UInt8.ofNat key.val)) := by
    simp only [execute, lowest, register_of_lt word.x_lt]
    rfl
  exact (Outcome.executed decoded result).eq_cycle

/-- A wait for a key while none is held down: every cycle and every step keeps
waiting and only the timers and the redraw flag move, as long as the program stays
in its place and no key is pressed.  Once key operations leave a key held down, the
next cycle puts the lowest one into the register and moves on. -/
theorem wait_lasts_until_key {machine : Machine} (waiting : machine.WaitsWithoutKey)
    {operations : List Operation}
    (idle : ∀ position operation, operations[position]? = some operation →
      (machine.after (operations.take position)).Spares operation ∧
        operation.PressesNothing) :
    (∀ position operation, operations[position]? = some operation →
        operation = .cycle ∨ operation = .step →
        ((machine.after (operations.take position)).perform operation).response =
          .awaitingKey) ∧
      (∀ position, ∃ redraw,
        let passed := operations.take position
        machine.after passed =
          { machine with
            timers := machine.timers.loweredBy
              (passed.countP fun operation => operation.isTick || operation.isStep)
            redraw := redraw }) ∧
      ∀ keys : List Operation, (∀ operation, operation ∈ keys → operation.isKey = true) →
        let ready := (machine.after operations).after keys
        (∃ key : Fin 16, ready.keypad.get key = true) →
        ready.cycle.response = .executed (.waitKey machine.fetch.x) ∧
          ∃ key : Fin 16, ready.keypad.get key = true ∧
            (∀ lower, lower < key → ready.keypad.get lower = false) ∧
            ready.cycle.machine =
              { ready with
                registers := ready.registers.set machine.fetch.x (UInt8.ofNat key.val)
                  machine.fetch.x_lt
                pc := (ready.pc + 2) &&& 0x0FFF } := by
  have released : machine.keypad = .released := Keypad.eq_released waiting.2
  have unpressed : ∀ operation, operation ∈ operations → operation.PressesNothing := by
    intro operation member
    obtain ⟨position, found⟩ := List.getElem?_of_mem member
    exact (idle position operation found).2
  have kept : ∀ operation, operation ∈ operations → ∀ keypad : Keypad,
      keypad = .released → keypad.afterOperation operation = .released := by
    rintro operation member keypad rfl
    exact (unpressed operation member).afterOperation
  obtain ⟨answers, places⟩ := (standsStill_of_waiting waiting).run kept released rfl
    (fun position operation found => (idle position operation found).1)
  rw [ticks_of_waiting] at places
  have still : ∀ position, ∃ redraw,
      machine.after (operations.take position) =
        { machine with
          timers := machine.timers.loweredBy ((operations.take position).countP
            fun operation => operation.isTick || operation.isStep)
          redraw := redraw } := by
    intro position
    obtain ⟨redraw, reached⟩ := places position
    rw [released, Operation.foldl_released fun operation member =>
      unpressed operation (List.mem_of_mem_take member), ← released] at reached
    exact ⟨redraw, reached⟩
  refine ⟨answers, still, ?_⟩
  intro keys areKeys ready down
  have fetched : ready.fetch = machine.fetch := by
    obtain ⟨redraw, reached⟩ := still operations.length
    rw [List.take_length] at reached
    change ((machine.after operations).after keys).fetch = machine.fetch
    rw [(machine.after operations).after_keys areKeys, reached]
    rfl
  obtain ⟨key, lowest⟩ := Keypad.exists_lowest down
  obtain ⟨held, first⟩ := Keypad.lowest?_eq_some_iff.mp lowest
  obtain ⟨answer, next⟩ := cycle_of_key fetched waiting.1 lowest
  exact ⟨answer, key, held, first, next⟩

/-- Of the two keys pressed at last, the wait takes the lower one. -/
theorem wait_takes_lower_key :
    let machine := (powerOn (.progression 0 0)).after
      [.loadProgram [0x60, 0x05, 0xF0, 0x15, 0xF3, 0x0A], .cycle, .cycle]
    let operations := [Operation.step, .tick, .releaseKey 4, .setKeys .released,
      .loadRom (.broken "gone"), .cycle]
    let ready := (machine.after operations).after [.pressKey 9, .pressKey 2]
    ((machine.after (operations.take 5)).perform .cycle).response = .awaitingKey ∧
      ready.cycle.response = .executed (.waitKey 3) ∧
      ready.cycle.machine.registers.read 3 = 2 := by
  intro machine operations ready
  obtain ⟨fetched, released, pressed⟩ : machine.fetch = 0xF30A ∧
      machine.keypad = .released ∧
      ready.keypad = (Keypad.released.press 9).press 2 := by decide +kernel
  have waiting : machine.WaitsWithoutKey := by
    rw [WaitsWithoutKey, fetched, released]
    exact ⟨⟨rfl, rfl⟩, by decide⟩
  have idle : ∀ position operation, operations[position]? = some operation →
      (machine.after (operations.take position)).Spares operation ∧
        operation.PressesNothing := by
    intro position operation found
    match position with
    | 0 | 1 | 2 | 5 =>
        cases found
        exact ⟨⟨nofun, nofun⟩, trivial⟩
    | 3 =>
        cases found
        exact ⟨⟨nofun, nofun⟩, rfl⟩
    | 4 =>
        cases found
        exact ⟨⟨nofun, fun _ => nofun⟩, trivial⟩
  have lasts := wait_lasts_until_key waiting idle
  have down : ready.keypad.get 2 = true := by
    rw [pressed]
    rfl
  obtain ⟨answer, key, held, first, next⟩ :=
    lasts.2.2 [.pressKey 9, .pressKey 2] (by simp [Operation.isKey]) ⟨2, down⟩
  have lowest : ready.keypad.lowest? = some key := Keypad.lowest?_eq_some_iff.mpr ⟨held, first⟩
  rw [pressed] at lowest
  cases lowest
  have x : machine.fetch.x = 3 := by
    rw [fetched]
    rfl
  refine ⟨lasts.1 5 .cycle rfl (.inl rfl), x ▸ answer, ?_⟩
  rw [next]
  simp only [Registers.read, x]
  exact Vector.getElem_set_self _

end Machine

end Chip8Vm
