import Chip8Vm.Proofs.Machine.CycleContract

/-!
# The call stack as a list of pending calls

Beside a run we keep the addresses of the calls that have not been returned
from, the oldest first: a reset forgets them, an executed call appends its own
address and an executed return drops the newest one.  The call stack of the
machine holds exactly this list, its two failures happen exactly when the list
is full or empty, and a return goes to the word after the call it matches.
-/

namespace Chip8Vm

namespace Machine

/-- The pending calls after a cycle at `pc`, by its response. -/
def callsAnswered (calls : List Word) (pc : Word) : Response → List Word
  | .executed (.call _) => calls ++ [pc]
  | .executed .ret => calls.dropLast
  | _ => calls

def callsAfter (machine : Machine) (calls : List Word) : Operation → List Word
  | .reset => []
  | .cycle => callsAnswered calls machine.pc machine.cycle.response
  | .step => callsAnswered calls machine.pc machine.step.response
  | _ => calls

def pendingCalls (machine : Machine) (calls : List Word) : List Operation → List Word
  | [] => calls
  | operation :: rest =>
      (machine.perform operation).machine.pendingCalls (machine.callsAfter calls operation) rest

theorem pendingCalls_append (machine : Machine) (calls : List Word)
    (first second : List Operation) :
    machine.pendingCalls calls (first ++ second) =
      (machine.after first).pendingCalls (machine.pendingCalls calls first) second := by
  induction first generalizing machine calls with
  | nil => rfl
  | cons operation rest ih => exact ih _ _

/-! ## The call stack holds the pending calls -/

theorem Footprint.addresses {machine next : Machine} {instruction : Instruction}
    (footprint : Footprint machine instruction next) (bounded : machine.Bounded) :
    next.stack.addresses =
      callsAnswered machine.stack.addresses machine.pc (.executed instruction) := by
  rcases footprint.stack_cases with ⟨level, kept⟩ | ⟨nnn, rfl, taken⟩ | ⟨rfl, used, popped⟩
  · rw [kept]
    cases instruction
    case call | ret => cases level
    all_goals rfl
  · exact CallStack.addresses_push? taken
  · rw [popped]
    exact CallStack.addresses_pop used bounded.depth

theorem Verdict.addresses {machine next : Machine} {response : Response}
    (verdict : Verdict machine response next) (bounded : machine.Bounded) :
    next.stack.addresses = callsAnswered machine.stack.addresses machine.pc response := by
  cases verdict with
  | executed decoded result => exact (execute_footprint result).addresses bounded
  | malformed _ | overflow _ _ | underflow _ _ | awaiting _ _ => rfl

theorem callsAfter_turn {machine : Machine} {operation : Operation} (calls : List Word)
    (turn : operation = .cycle ∨ operation = .step) :
    machine.callsAfter calls operation =
      callsAnswered calls machine.pc machine.cycle.response := by
  rcases turn with rfl | rfl
  · rfl
  · rw [callsAfter, step_response]

theorem callsAfter_outside {machine : Machine} {operation : Operation} (calls : List Word)
    (outside : operation ≠ .reset ∧ operation ≠ .cycle ∧ operation ≠ .step) :
    machine.callsAfter calls operation = calls := by
  cases operation
  case reset | cycle | step => simp at outside
  all_goals rfl

theorem Transition.addresses {machine next : Machine} {operation : Operation}
    {response : Response} (transition : Transition machine operation response next)
    (bounded : machine.Bounded) :
    next.stack.addresses = machine.callsAfter machine.stack.addresses operation := by
  cases transition with
  | reset isReset =>
      rw [isReset]
      exact CallStack.addresses_empty
  | turn isTurn timers =>
      rw [callsAfter_turn _ isTurn]
      exact (cycle_verdict bounded).addresses bounded
  | outside isOutside answered memory keypad timers redraw flag =>
      rw [callsAfter_outside _ isOutside]

theorem after_addresses {machine : Machine} (bounded : machine.Bounded)
    (operations : List Operation) :
    (machine.after operations).stack.addresses =
      machine.pendingCalls machine.stack.addresses operations := by
  induction operations generalizing machine with
  | nil => rfl
  | cons operation rest ih =>
      rw [pendingCalls, ← (machine.perform_transition operation).addresses bounded]
      exact ih (perform_bounded machine operation bounded)

/-! ## A call that stays pending keeps its place -/

theorem take_callsAnswered {calls : List Word} {pc : Word} {response : Response} {count : Nat}
    (before : count ≤ calls.length)
    (after : count ≤ (callsAnswered calls pc response).length) :
    (callsAnswered calls pc response).take count = calls.take count := by
  cases response with
  | executed instruction =>
      cases instruction
      case call nnn => exact List.take_append_of_le_length before
      case ret =>
          have kept : count ≤ calls.length - 1 := by
            rw [← List.length_dropLast]
            exact after
          change calls.dropLast.take count = calls.take count
          rw [List.dropLast_eq_take, List.take_take, Nat.min_eq_left kept]
      all_goals rfl
  | done | awaitingKey | failed _ | faulted _ => rfl

theorem take_callsAfter {machine : Machine} {calls : List Word} {operation : Operation}
    {count : Nat} (before : count ≤ calls.length)
    (after : count ≤ (machine.callsAfter calls operation).length) :
    (machine.callsAfter calls operation).take count = calls.take count := by
  cases operation
  case reset =>
      have none : count = 0 := Nat.le_zero.mp after
      simp [none]
  case cycle | step => exact take_callsAnswered before after
  all_goals rfl

/-- While the pending calls never get fewer than `count`, the first `count` of
them stay the same. -/
theorem take_pendingCalls {machine : Machine} {calls : List Word} {count : Nat}
    {operations : List Operation}
    (deep : ∀ inner, inner <+: operations → count ≤ (machine.pendingCalls calls inner).length) :
    (machine.pendingCalls calls operations).take count = calls.take count := by
  induction operations generalizing machine calls with
  | nil => rfl
  | cons operation rest ih =>
      have now : count ≤ calls.length := deep [] (List.nil_prefix)
      have next : count ≤ (machine.callsAfter calls operation).length :=
        deep [operation] (List.prefix_append [operation] rest)
      -- The hypothesis speaks of every prefix, so it passes on to the rest of the run.
      rw [pendingCalls, ih, take_callsAfter now next]
      intro inner shorter
      exact deep (operation :: inner) (List.cons_prefix_cons.mpr ⟨rfl, shorter⟩)

/-! ## Returns -/

theorem perform_returned {machine : Machine} (bounded : machine.Bounded)
    {operation : Operation}
    (returned : (machine.perform operation).response = .executed .ret) :
    ∃ caller, machine.stack.addresses.getLast? = some caller ∧
      (machine.perform operation).machine.pc = (caller + 2) &&& 0x0FFF := by
  obtain ⟨-, same, timers, next⟩ := (machine.perform_transition operation).isTurn
    (by simp [returned]) (by simp [returned])
  obtain ⟨-, result⟩ :=
    (cycle_verdict bounded).contract.follows .ret (same.symm.trans returned)
  obtain ⟨-, -, caller, newest, pc⟩ := (execute_footprint result).popped rfl
  refine ⟨caller, ?_, ?_⟩
  · rw [← CallStack.top?_eq_getLast? bounded.depth]
    exact newest
  · rw [next]
    exact pc

theorem callsAfter_call {machine : Machine} {operation : Operation} {nnn : Word}
    (calls : List Word)
    (called : (machine.perform operation).response = .executed (.call nnn)) :
    machine.callsAfter calls operation = calls ++ [machine.pc] := by
  obtain ⟨turn, same, -⟩ := (machine.perform_transition operation).isTurn
    (by simp [called]) (by simp [called])
  rw [callsAfter_turn calls turn, ← same, called]
  rfl

/-- The call made after `before` is the newest one that is still pending after
`between`. -/
structure NewestPending (start : Machine) (before : List Operation) (call : Operation)
    (between : List Operation) : Prop where
  called : ∃ nnn, ((start.after before).perform call).response = .executed (.call nnn)
  pending : ∀ inner, inner <+: between →
    (start.pendingCalls [] before).length <
      (start.pendingCalls [] (before ++ call :: inner)).length
  newest : (start.pendingCalls [] (before ++ call :: between)).length =
    (start.pendingCalls [] before).length + 1

theorem NewestPending.getLast? {start : Machine} {before between : List Operation}
    {call : Operation} (pending : NewestPending start before call between) :
    (start.pendingCalls [] (before ++ call :: between)).getLast? =
      some (start.after before).pc := by
  obtain ⟨⟨nnn, called⟩, deep, newest⟩ := pending
  let base := start.pendingCalls [] before
  let caller := start.after before
  have split : ∀ inner, start.pendingCalls [] (before ++ call :: inner) =
      (caller.perform call).machine.pendingCalls (base ++ [caller.pc]) inner := by
    intro inner
    rw [pendingCalls_append, pendingCalls, callsAfter_call base called]
  have kept : (start.pendingCalls [] (before ++ call :: between)).take (base.length + 1) =
      (base ++ [caller.pc]).take (base.length + 1) := by
    rw [split between]
    apply take_pendingCalls
    intro inner shorter
    rw [← split inner]
    exact deep inner shorter
  have whole : start.pendingCalls [] (before ++ call :: between) = base ++ [caller.pc] := by
    rw [List.take_of_length_le (Nat.le_of_eq newest), List.take_of_length_le (by simp)] at kept
    exact kept
  rw [whole]
  simp [caller]

/-- The call stack of every run holds the pending calls: as many slots are in
use as there are calls, in their order; a call fails exactly when sixteen are
pending and a return exactly when none is; and a return goes to the word after
the newest pending call, which is the call it matches. -/
theorem call_stack_holds_pending_calls (random : RandomStream) (operations : List Operation) :
    let start := powerOn random
    let machine := start.after operations
    let calls := start.pendingCalls [] operations
    machine.stack.depth.toNat = calls.length ∧
      machine.stack.slots.toList.take calls.length = calls ∧
      (∀ operation, operation = .cycle ∨ operation = .step →
        ((machine.perform operation).response = .failed (.stackOverflow machine.pc) ↔
          machine.fetch.family = 0x2 ∧ calls.length = 16) ∧
        ((machine.perform operation).response = .failed (.stackUnderflow machine.pc) ↔
          machine.fetch = 0x00EE ∧ calls = []) ∧
        ((machine.perform operation).response = .executed .ret →
          ∃ caller, calls.getLast? = some caller ∧
            (machine.perform operation).machine.pc = (caller + 2) &&& 0x0FFF)) ∧
      ∀ before call between, operations = before ++ call :: between →
        NewestPending start before call between →
        ∀ operation, (machine.perform operation).response = .executed .ret →
          (machine.perform operation).machine.pc =
            ((start.after before).pc + 2) &&& 0x0FFF := by
  intro start machine calls
  have bounded : machine.Bounded := after_bounded random operations
  have held : machine.stack.addresses = calls :=
    after_addresses (powerOn_bounded random) operations
  have depth : machine.stack.depth.toNat = calls.length := by
    rw [← held, CallStack.length_addresses bounded.depth]
  have contract := (cycle_verdict bounded).contract
  have returns : ∀ operation, (machine.perform operation).response = .executed .ret →
      ∃ caller, calls.getLast? = some caller ∧
        (machine.perform operation).machine.pc = (caller + 2) &&& 0x0FFF := by
    intro operation returned
    rw [← held]
    exact perform_returned bounded returned
  refine ⟨depth, ?_, ?_, ?_⟩
  · rw [← depth]
    exact held
  · intro operation turn
    rw [← depth, ← List.length_eq_zero_iff, ← depth]
    refine ⟨?_, ?_, returns operation⟩
    · rw [perform_turn_response turn]
      exact contract.overflow
    · rw [perform_turn_response turn]
      exact contract.underflow
  · intro before call between split pending operation returned
    subst split
    obtain ⟨caller, newest, pc⟩ := returns operation returned
    rw [pending.getLast?] at newest
    cases newest
    exact pc

end Machine

end Chip8Vm
