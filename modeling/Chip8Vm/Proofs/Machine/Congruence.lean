import Chip8Vm.Machine.Cycle

/-!
# Two machines seen through the same glass

Two machines may differ in a part that is of no interest, and a view of a machine
leaves that part out.  If the machines agree on what decides the course of an
instruction or of a cycle, and their next machines look the same, then the whole
outcome looks the same.  The view is a parameter, so each theory of machines that
differ in one part only has to look at the instructions that touch it.
-/

namespace Chip8Vm

theorem map_bind_congr_of_ok {ε α β γ : Type} {first : Except ε α}
    {left right : α → Except ε β} {view : β → γ}
    (agree : ∀ value, first = .ok value → (left value).map view = (right value).map view) :
    (first >>= left).map view = (first >>= right).map view := by
  cases first with
  | error failure => rfl
  | ok value => exact agree value rfl

theorem map_bind_congr {ε α β γ : Type} {first : Except ε α} {left right : α → Except ε β}
    {view : β → γ} (agree : ∀ value, (left value).map view = (right value).map view) :
    (first >>= left).map view = (first >>= right).map view :=
  map_bind_congr_of_ok fun value _ => agree value

/-- Results that look the same are the same failure, or two values that look the same. -/
theorem eq_or_alike_of_map_eq {ε α β : Type} {left right : Except ε α} {view : α → β}
    (agree : left.map view = right.map view) :
    (∃ failure, left = .error failure ∧ right = .error failure) ∨
      ∃ value other, left = .ok value ∧ right = .ok other ∧ view value = view other := by
  cases left with
  | error failure =>
      cases right with
      | error failure' =>
          have same : failure = failure' := Except.error.inj agree
          exact .inl ⟨failure, rfl, congrArg Except.error same.symm⟩
      | ok other => cases agree
  | ok value =>
      cases right with
      | error failure => cases agree
      | ok other => exact .inr ⟨value, other, rfl, rfl, Except.ok.inj agree⟩

/-- The reply with its machine seen through a view. -/
def Reply.seen (reply : Reply) (view : Machine → Machine) : Reply :=
  { reply with machine := view reply.machine }

namespace Machine

section

variable {left right : Machine} {view : Machine → Machine}

/-! ## Instructions whose course depends on the machine -/

theorem map_enter_congr {nnn : Word} (callStacks : left.stack = right.stack)
    (pcs : left.pc = right.pc)
    (agree : ∀ stack, view { left.goTo nnn with stack := stack } =
      view { right.goTo nnn with stack := stack }) :
    (left.enter nnn).map view = (right.enter nnn).map view := by
  simp only [enter, callStacks, pcs]
  cases right.stack.push? right.pc with
  | none => rfl
  | some stack => exact congrArg Except.ok (agree stack)

theorem map_leave_congr (callStacks : left.stack = right.stack) (pcs : left.pc = right.pc)
    (agree : ∀ pc stack, view { left with pc := pc, stack := stack } =
      view { right with pc := pc, stack := stack }) :
    left.leave.map view = right.leave.map view := by
  simp only [leave, callStacks, pcs]
  split
  · rfl
  · cases right.stack.top? with
    | none => rfl
    | some address => exact congrArg Except.ok (agree _ _)

theorem map_waitKey_congr {number : Nat} (keys : left.keypad = right.keypad)
    (agree : ∀ x value, view (left.setRegister x value) = view (right.setRegister x value)) :
    (left.execute (.waitKey number)).map view = (right.execute (.waitKey number)).map view := by
  simp only [execute, keys]
  cases right.keypad.lowest? with
  | none => rfl
  | some key =>
      apply map_bind_congr
      intro x
      exact congrArg Except.ok (agree x _)

/-! ## Cycles -/

theorem attempt_congr {instruction : Instruction} (kept : view left = view right)
    (traces : left.trace instruction = right.trace instruction)
    (agree : (left.execute instruction).map view = (right.execute instruction).map view) :
    (left.attempt instruction).seen view = (right.attempt instruction).seen view := by
  unfold attempt Reply.seen
  rw [traces]
  rcases eq_or_alike_of_map_eq agree with
    ⟨stop, leftStops, rightStops⟩ | ⟨next, other, leftNext, rightNext, alike⟩
  · simp only [leftStops, rightStops, kept]
  · simp only [leftNext, rightNext, alike]

theorem skipMalformed_congr {failure : Failure} (kept : view left = view right)
    (agree : left.passOver.map view = right.passOver.map view) :
    (left.skipMalformed failure).seen view = (right.skipMalformed failure).seen view := by
  unfold skipMalformed Reply.seen
  rcases eq_or_alike_of_map_eq agree with
    ⟨stop, leftStops, rightStops⟩ | ⟨next, other, leftNext, rightNext, alike⟩
  · simp only [leftStops, rightStops, kept]
  · simp only [leftNext, rightNext, alike]

/-- A cycle looks the same on two machines that look the same, fetch the same word and
log the same, if its instruction does. -/
theorem cycle_congr (kept : view left = view right) (words : left.fetch = right.fetch)
    (pcs : left.pc = right.pc)
    (traces : ∀ instruction, left.trace instruction = right.trace instruction)
    (passes : left.passOver.map view = right.passOver.map view)
    (agree : ∀ instruction, Instruction.decode? right.fetch = some instruction →
      (left.execute instruction).map view = (right.execute instruction).map view) :
    left.cycle.seen view = right.cycle.seen view := by
  unfold cycle Instruction.decode
  rw [words, pcs]
  cases decoded : Instruction.decode? right.fetch with
  | none => exact skipMalformed_congr kept passes
  | some instruction =>
      exact attempt_congr kept (traces instruction) (agree instruction decoded)

end

end Machine

end Chip8Vm
