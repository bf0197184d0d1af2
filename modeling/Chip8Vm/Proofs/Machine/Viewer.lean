import Chip8Vm.Proofs.Machine.Run

/-!
# Following the screen through the redraw flag

A viewer keeps a copy of the screen.  After each operation it looks at the
redraw flag, and only when the flag is up does it take a new copy and lower
the flag.  Every instruction that changes the screen raises the flag, so the
copy is right after every operation but a reset: a reset turns the screen dark
and puts the flag back to what it is at power-on, which is down.
-/

namespace Chip8Vm

namespace Machine

/-- The operation executes an instruction that changes the screen. -/
def Redraws (machine : Machine) (operation : Operation) : Prop :=
  ∃ instruction, (machine.perform operation).response = .executed instruction ∧
    instruction.redraws = true

theorem Outcome.screen {machine next : Machine} {response : Response}
    (outcome : Outcome machine response next) :
    ((∃ instruction, response = .executed instruction ∧ instruction.redraws = true) ∧
        next.redraw = true) ∨
      ((¬∃ instruction, response = .executed instruction ∧ instruction.redraws = true) ∧
        next.screen = machine.screen ∧ next.redraw = machine.redraw) := by
  cases outcome with
  | @executed instruction _ decoded result =>
      have footprint := execute_footprint result
      cases kind : instruction.redraws with
      | true =>
          refine .inl ⟨⟨instruction, rfl, kind⟩, ?_⟩
          rw [footprint.redraw, kind, Bool.or_true]
      | false =>
          refine .inr ⟨?_, footprint.screen kind, ?_⟩
          · intro ⟨other, same, redraws⟩
            cases same
            cases kind.symm.trans redraws
          · rw [footprint.redraw, kind, Bool.or_false]
  | @stopped instruction stop decoded result =>
      refine .inr ⟨?_, rfl, rfl⟩
      intro ⟨other, answered, _⟩
      cases stop <;> cases answered
  | skipped undecoded fits => exact .inr ⟨nofun, rfl, rfl⟩
  | lost undecoded overflow => exact .inr ⟨nofun, rfl, rfl⟩

theorem Transition.screen {machine next : Machine} {operation : Operation}
    {response : Response} (transition : Transition machine operation response next)
    (lowered : machine.redraw = false) (kept : operation ≠ .reset) :
    ((∃ instruction, response = .executed instruction ∧ instruction.redraws = true) ∧
        next.redraw = true) ∨
      ((¬∃ instruction, response = .executed instruction ∧ instruction.redraws = true) ∧
        next.screen = machine.screen ∧ next.redraw = false) := by
  cases transition with
  | reset isReset => exact absurd isReset kept
  | turn isTurn timers =>
      rcases machine.cycle_outcome.screen with ⟨redraws, raised⟩ | ⟨quiet, screen, flag⟩
      · exact .inl ⟨redraws, raised⟩
      · exact .inr ⟨quiet, screen, flag.trans lowered⟩
  | outside isOutside answered memory keypad timers redraw flag =>
      refine .inr ⟨?_, rfl, ?_⟩
      · intro ⟨instruction, executed, _⟩
        rcases answered with done | ⟨failure, failed⟩
        · cases done.symm.trans executed
        · cases failed.symm.trans executed
      · rcases flag with same | down
        · exact same.trans lowered
        · exact down

/-- A lowered flag stays down and the screen stays the same, unless the machine
is reset or the screen is redrawn. -/
theorem perform_screen {machine : Machine} (lowered : machine.redraw = false)
    {operation : Operation} (kept : operation ≠ .reset) :
    (machine.Redraws operation ∧ (machine.perform operation).machine.redraw = true) ∨
      (¬machine.Redraws operation ∧
        (machine.perform operation).machine.screen = machine.screen ∧
        (machine.perform operation).machine.redraw = false) :=
  (machine.perform_transition operation).screen lowered kept

end Machine

/-- A machine and the copy of its screen that somebody keeps. -/
structure Viewer where
  machine : Machine
  copy : Screen

namespace Viewer

/-- A viewer that starts with the screen of a machine just switched on. -/
def atPowerOn (random : RandomStream) : Viewer where
  machine := .powerOn random
  copy := (Machine.powerOn random).screen

/-- Takes a new copy and lowers the flag if the flag is up. -/
def refresh (viewer : Viewer) : Viewer :=
  if viewer.machine.redraw then
    { machine := viewer.machine.clearRedraw, copy := viewer.machine.screen }
  else
    viewer

/-- Lets the machine perform an operation and looks at the flag. -/
def observe (viewer : Viewer) (operation : Operation) : Viewer :=
  refresh { viewer with machine := (viewer.machine.perform operation).machine }

def after (viewer : Viewer) (operations : List Operation) : Viewer :=
  operations.foldl observe viewer

def Stale (viewer : Viewer) : Prop :=
  viewer.copy ≠ viewer.machine.screen

/-- No operation of the run executes an instruction that changes the screen. -/
def Quiet (viewer : Viewer) : List Operation → Prop
  | [] => True
  | operation :: rest =>
      ¬viewer.machine.Redraws operation ∧ (viewer.observe operation).Quiet rest

/-- What holds after every look at the flag: it is down, and a copy that is not
right belongs to a dark screen. -/
structure Settled (viewer : Viewer) : Prop where
  lowered : viewer.machine.redraw = false
  dark : viewer.Stale → viewer.machine.screen = .blank

theorem atPowerOn_settled (random : RandomStream) : (atPowerOn random).Settled where
  lowered := rfl
  dark := fun stale => absurd rfl stale

theorem refresh_lowered (viewer : Viewer) : viewer.refresh.machine.redraw = false := by
  unfold refresh
  split
  · rfl
  · rename_i down
    exact Bool.eq_false_iff.mpr down

theorem observe_raised {viewer : Viewer} {operation : Operation}
    (raised : (viewer.machine.perform operation).machine.redraw = true) :
    ¬(viewer.observe operation).Stale := by
  simp [observe, refresh, raised, Stale, Machine.clearRedraw]

theorem observe_lowered {viewer : Viewer} {operation : Operation}
    (lowered : (viewer.machine.perform operation).machine.redraw = false) :
    viewer.observe operation =
      { viewer with machine := (viewer.machine.perform operation).machine } := by
  simp [observe, refresh, lowered]

/-- One operation: a copy gets stale by a reset when it is not dark itself, and
stays stale until the screen is redrawn. -/
theorem observe_stale_iff {viewer : Viewer} (settled : viewer.Settled)
    (operation : Operation) :
    (viewer.observe operation).Stale ↔
      (operation = .reset ∧ viewer.copy ≠ .blank) ∨
        (viewer.Stale ∧ ¬viewer.machine.Redraws operation) := by
  by_cases reset : operation = .reset
  · subst reset
    constructor
    · intro stale
      exact .inl ⟨rfl, stale⟩
    · intro reasons
      rcases reasons with ⟨-, lit⟩ | ⟨stale, -⟩
      · exact lit
      · intro dark
        exact stale (dark.trans (settled.dark stale).symm)
  · rcases Machine.perform_screen settled.lowered reset with ⟨redraws, raised⟩ |
      ⟨quiet, screen, lowered⟩
    · exact iff_of_false (observe_raised raised) (by simp [reset, redraws])
    · rw [observe_lowered lowered]
      simp [Stale, screen, reset, quiet]

theorem observe_settled {viewer : Viewer} (settled : viewer.Settled)
    (operation : Operation) : (viewer.observe operation).Settled := by
  refine ⟨refresh_lowered _, ?_⟩
  intro stale
  by_cases reset : operation = .reset
  · subst reset
    rfl
  · rcases Machine.perform_screen settled.lowered reset with ⟨redraws, raised⟩ |
      ⟨quiet, screen, lowered⟩
    · exact absurd stale (observe_raised raised)
    · rw [observe_lowered lowered] at stale ⊢
      simp only [Stale, screen] at stale ⊢
      exact settled.dark stale

/-! ## Whole runs -/

theorem after_cons (viewer : Viewer) (operation : Operation) (rest : List Operation) :
    viewer.after (operation :: rest) = (viewer.observe operation).after rest := rfl

/-- A reset of the run found a copy that was not dark, and the screen was not
redrawn since. -/
def LeftBehind (viewer : Viewer) (operations : List Operation) : Prop :=
  ∃ before rest, operations = before ++ .reset :: rest ∧
    (viewer.after before).copy ≠ .blank ∧
    (viewer.after (before ++ [.reset])).Quiet rest

theorem leftBehind_cons (viewer : Viewer) (operation : Operation) (rest : List Operation) :
    viewer.LeftBehind (operation :: rest) ↔
      ((operation = .reset ∧ viewer.copy ≠ .blank) ∧ (viewer.observe operation).Quiet rest) ∨
        (viewer.observe operation).LeftBehind rest := by
  constructor
  · intro ⟨before, later, shape, lit, quiet⟩
    cases before with
    | nil =>
        cases shape
        exact .inl ⟨⟨rfl, lit⟩, quiet⟩
    | cons first before =>
        cases shape
        exact .inr ⟨before, later, rfl, lit, quiet⟩
  · intro behind
    rcases behind with ⟨⟨rfl, lit⟩, quiet⟩ | ⟨before, later, rfl, lit, quiet⟩
    · exact ⟨[], rest, rfl, lit, quiet⟩
    · exact ⟨operation :: before, later, rfl, lit, quiet⟩

theorem after_stale_iff {viewer : Viewer} (settled : viewer.Settled)
    (operations : List Operation) :
    (viewer.after operations).Stale ↔
      viewer.LeftBehind operations ∨ (viewer.Stale ∧ viewer.Quiet operations) := by
  induction operations generalizing viewer with
  | nil =>
      constructor
      · intro stale
        exact .inr ⟨stale, trivial⟩
      · intro reasons
        rcases reasons with ⟨before, rest, shape, -⟩ | ⟨stale, -⟩
        · simp at shape
        · exact stale
  | cons operation rest ih =>
      rw [after_cons, ih (observe_settled settled operation), observe_stale_iff settled,
        leftBehind_cons, Quiet]
      constructor
      · intro stale
        rcases stale with behind | ⟨reset | ⟨stale, still⟩, quiet⟩
        · exact .inl (.inr behind)
        · exact .inl (.inl ⟨reset, quiet⟩)
        · exact .inr ⟨stale, still, quiet⟩
      · intro reasons
        rcases reasons with (⟨reset, quiet⟩ | behind) | ⟨stale, still, quiet⟩
        · exact .inr ⟨.inl reset, quiet⟩
        · exact .inl behind
        · exact .inr ⟨.inr ⟨stale, still⟩, quiet⟩

theorem after_settled {viewer : Viewer} (settled : viewer.Settled)
    (operations : List Operation) : (viewer.after operations).Settled := by
  induction operations generalizing viewer with
  | nil => exact settled
  | cons operation rest ih => exact ih (observe_settled settled operation)

/-- From power-on the copy of a viewer differs from the screen exactly when a
reset left it behind, and then the screen is dark; without a reset it is right
after every operation. -/
theorem copy_right_unless_left_behind (random : RandomStream)
    (operations : List Operation) :
    let viewer := (atPowerOn random).after operations
    (viewer.copy ≠ viewer.machine.screen ↔ (atPowerOn random).LeftBehind operations) ∧
      (viewer.copy ≠ viewer.machine.screen → viewer.machine.screen = .blank) ∧
      (.reset ∉ operations → viewer.copy = viewer.machine.screen) := by
  intro viewer
  have settled := atPowerOn_settled random
  have exact_iff : viewer.Stale ↔ (atPowerOn random).LeftBehind operations := by
    rw [after_stale_iff settled operations]
    exact or_iff_left fun behind => behind.1 rfl
  refine ⟨exact_iff, (after_settled settled operations).dark, ?_⟩
  intro absent
  apply Classical.byContradiction
  intro stale
  obtain ⟨before, rest, rfl, -⟩ := exact_iff.mp stale
  exact absent (by simp)

/-- A row of pixels is drawn and copied; the reset that follows leaves the copy
behind. -/
theorem reset_leaves_copy_behind :
    let viewer := (atPowerOn (.progression 0 0)).after
      [.loadProgram [0xA2, 0x00, 0xD0, 0x01], .cycle, .cycle, .reset]
    viewer.copy ≠ viewer.machine.screen := by
  decide +kernel

end Viewer

end Chip8Vm
