import Chip8Vm.Host.Session
import Chip8Vm.Proofs.ByteSource
import Chip8Vm.Proofs.Machine.CycleContract

/-!
# The timeline of a session

The actions of a session do not show its machine.  Its timeline does: it lists
the actions together with the cycles between them, each with the machine of
that moment.  Leaving the machines and the cycles out gives the actions back.
A turn is described once, by the two ways in which it can go, and whatever
holds of every turn holds along the session.
-/

namespace Chip8Vm

namespace Host

/-- A moment of a session and its machine: an action, or a cycle with the
response that it gets. -/
inductive Moment where
  | acts (machine : Machine) (action : Action)
  | cycles (machine : Machine) (response : Response)

def Moment.action? : Moment → Option Action
  | .acts _ action => some action
  | .cycles _ _ => none

/-- The actions of a stretch of a timeline. -/
def actionsOf (moments : List Moment) : List Action :=
  moments.filterMap Moment.action?

@[simp] theorem actionsOf_nil : actionsOf [] = [] := rfl

theorem actionsOf_append (earlier later : List Moment) :
    actionsOf (earlier ++ later) = actionsOf earlier ++ actionsOf later :=
  List.filterMap_append

theorem actionsOf_acts (machine : Machine) (actions : List Action) :
    actionsOf (actions.map (.acts machine)) = actions := by
  induction actions with
  | nil => rfl
  | cons action rest ih => exact congrArg (action :: ·) ih

/-- The moments up to the poll of a turn and the poll itself, which finds the
redraw flag lowered. -/
def momentsToPoll (machine : Machine) : List Moment :=
  (refreshing machine).map (.acts machine) ++ [.acts machine.clearRedraw .poll]

/-- The machine of a turn after the events of its poll. -/
def handled (machine : Machine) (turn : Turn) : Machine :=
  (handleAll machine.clearRedraw turn.events).1

def momentsOfTurn (machine : Machine) (turn : Turn) : List Moment :=
  momentsToPoll machine ++
    if turn.events.any Event.closes then
      [.acts (handled machine turn) (.log .windowClosed)]
    else
      .cycles (handled machine turn) (handled machine turn).cycle.response
        :: (advance (handled machine turn) turn.ticks).actions.map
          (.acts (handled machine turn).cycle.machine)

namespace Session

/-- The timeline of a session from its first turn on. -/
def timeline (machine : Machine) : List Turn → List Moment
  | [] => momentsToPoll machine ++ [.acts machine.clearRedraw (.log .windowClosed)]
  | turn :: rest =>
      let stretch := takeTurn machine turn
      momentsOfTurn machine turn ++
        match stretch.ending with
        | some _ => []
        | none => timeline stretch.machine rest

/-- The timeline of a whole session. -/
def playTimeline (name : String) (file : Except String ByteSource) (scale : UInt32)
    (random : RandomStream) (turns : List Turn) : List Moment :=
  let prepared := prepare name file scale (.powerOn random)
  prepared.actions.map (.acts prepared.machine) ++
    match prepared.ending with
    | some _ => []
    | none => timeline prepared.machine turns

end Session

/-! ## Events, cycles and ticks -/

theorem handle_keypad (machine : Machine) (event : Event) :
    ∃ keypad, handle machine event = { machine with keypad := keypad } := by
  unfold handle
  split
  · split
    · exact ⟨_, rfl⟩
    · exact ⟨_, rfl⟩
  · split
    · exact ⟨_, rfl⟩
    · exact ⟨_, rfl⟩
  all_goals exact ⟨_, rfl⟩

theorem handleAll_keypad (machine : Machine) (events : List Event) :
    ∃ keypad, (handleAll machine events).1 = { machine with keypad := keypad } := by
  induction events generalizing machine with
  | nil => exact ⟨machine.keypad, rfl⟩
  | cons event rest ih =>
      unfold handleAll
      split
      · exact ⟨machine.keypad, rfl⟩
      · obtain ⟨keypad, next⟩ := handle_keypad machine event
        rw [next]
        exact ih _

theorem handleAll_closed (machine : Machine) (events : List Event) :
    (handleAll machine events).2 = events.any Event.closes := by
  induction events generalizing machine with
  | nil => rfl
  | cons event rest ih =>
      unfold handleAll
      split
      · rename_i closes
        simp [closes]
      · rename_i unclosed
        simp [unclosed, ih]

theorem handled_keypad (machine : Machine) (turn : Turn) :
    ∃ keypad, handled machine turn = { machine.clearRedraw with keypad := keypad } :=
  handleAll_keypad machine.clearRedraw turn.events

theorem ticked_timers (machine : Machine) (count : Nat) :
    ∃ timers, ticked machine count = { machine with timers := timers } := by
  induction count generalizing machine with
  | zero => exact ⟨machine.timers, rfl⟩
  | succ count ih => exact ih machine.tick

/-- A cycle lets the session go on, or ends it by a fatal failure or a fault. -/
theorem advance_cases (machine : Machine) (ticks : Nat) :
    (machine.cycle.response.isFatal = false ∧
        (advance machine ticks).ending = none ∧
        (advance machine ticks).machine = ticked machine.cycle.machine ticks) ∨
      (∃ failure, failure.isFatal = true ∧
        machine.cycle.response = .failed failure ∧
        (advance machine ticks).ending = some (.halted failure) ∧
        (advance machine ticks).machine = machine.cycle.machine) ∨
      ∃ fault, machine.cycle.response = .faulted fault ∧
        (advance machine ticks).ending = some (.faulted fault) ∧
        (advance machine ticks).machine = machine.cycle.machine := by
  simp only [advance]
  cases response : machine.cycle.response with
  | failed failure =>
      by_cases fatal : failure.isFatal = true
      · exact .inr (.inl ⟨failure, fatal, rfl, by simp [fatal], by simp [fatal]⟩)
      · exact .inl (by simp [fatal, Response.isFatal])
  | faulted fault => exact .inr (.inr ⟨fault, rfl, rfl, rfl⟩)
  | done | executed _ | awaitingKey => exact .inl ⟨rfl, rfl, rfl⟩

theorem advance_logs (machine : Machine) (ticks : Nat) :
    ∃ records : List LogRecord, (advance machine ticks).actions = records.map Action.log := by
  simp only [advance]
  cases machine.cycle.response with
  | failed failure =>
      by_cases fatal : failure.isFatal = true
      · exact ⟨machine.cycle.log ++ [.halting failure], by simp [fatal]⟩
      · exact ⟨machine.cycle.log, by simp [fatal]⟩
  | faulted _ | done | executed _ | awaitingKey => exact ⟨machine.cycle.log, rfl⟩

theorem advance_timers (machine : Machine) (ticks : Nat) :
    ∃ timers, (advance machine ticks).machine =
      { machine.cycle.machine with timers := timers } := by
  rcases advance_cases machine ticks with ⟨-, -, next⟩ | ⟨failure, -, -, -, next⟩ |
    ⟨fault, -, -, next⟩
  · rw [next]
    exact ticked_timers machine.cycle.machine ticks
  · exact ⟨machine.cycle.machine.timers, next⟩
  · exact ⟨machine.cycle.machine.timers, next⟩

/-! ## What a turn can do -/

/-- A turn closes the window at its poll, or goes on to a cycle. -/
inductive Taken (machine : Machine) (turn : Turn) : Stretch → List Moment → Prop where
  | closed (closes : turn.events.any Event.closes = true) :
      Taken machine turn
        { actions := refreshing machine ++ [.poll] ++ [.log .windowClosed]
          machine := handled machine turn
          ending := some .closed }
        (momentsToPoll machine ++ [.acts (handled machine turn) (.log .windowClosed)])
  | advanced (unclosed : turn.events.any Event.closes = false) :
      Taken machine turn
        { advance (handled machine turn) turn.ticks with
          actions := refreshing machine ++ [.poll]
            ++ (advance (handled machine turn) turn.ticks).actions }
        (momentsToPoll machine ++
          .cycles (handled machine turn) (handled machine turn).cycle.response
            :: (advance (handled machine turn) turn.ticks).actions.map
              (.acts (handled machine turn).cycle.machine))

theorem takeTurn_taken (machine : Machine) (turn : Turn) :
    Taken machine turn (takeTurn machine turn) (momentsOfTurn machine turn) := by
  simp only [takeTurn, momentsOfTurn, handleAll_closed]
  cases closes : turn.events.any Event.closes with
  | true => exact .closed closes
  | false => exact .advanced closes

theorem actionsOf_momentsToPoll (machine : Machine) :
    actionsOf (momentsToPoll machine) = refreshing machine ++ [.poll] := by
  rw [momentsToPoll, actionsOf_append, actionsOf_acts]
  rfl

theorem Taken.actions {machine : Machine} {turn : Turn} {stretch : Stretch}
    {moments : List Moment} (taken : Taken machine turn stretch moments) :
    actionsOf moments = stretch.actions := by
  cases taken with
  | closed closes =>
      rw [actionsOf_append, actionsOf_momentsToPoll]
      rfl
  | advanced unclosed =>
      rw [actionsOf_append, actionsOf_momentsToPoll]
      exact congrArg _ (actionsOf_acts _ _)

/-! ## Sessions -/

namespace Session

theorem actionsOf_timeline (machine : Machine) (turns : List Turn) :
    actionsOf (timeline machine turns) = (ofTurns machine turns).actions := by
  induction turns generalizing machine with
  | nil =>
      rw [timeline, actionsOf_append, actionsOf_momentsToPoll]
      simp [ofTurns, actionsOf, Moment.action?]
  | cons turn rest ih =>
      simp only [timeline, ofTurns, actionsOf_append, (takeTurn_taken machine turn).actions]
      cases (takeTurn machine turn).ending with
      | some ending => simp
      | none => simp [precededBy, ih]

theorem actionsOf_playTimeline (name : String) (file : Except String ByteSource)
    (scale : UInt32) (random : RandomStream) (turns : List Turn) :
    actionsOf (playTimeline name file scale random turns) =
      (play name file scale random turns).actions := by
  simp only [playTimeline, play, actionsOf_append, actionsOf_acts]
  cases (prepare name file scale (.powerOn random)).ending with
  | some ending => simp
  | none => simp [precededBy, actionsOf_timeline]

theorem on_reliable (session : Session) :
    session.on .reliable =
      { actions := session.actions
        ending := session.ending } := by
  simp [on, Performance.ofActions, Device.carryOut_reliable]

end Session

/-! ## The start of a session -/

/-- The machine of a session before its first turn. -/
def startMachine (random : RandomStream) (rom : List UInt8) : Machine :=
  { Machine.powerOn random with
    memory := Memory.powerOn.writeAll Memory.programStart rom }

/-- What a session does before its first turn. -/
def startActions (name : String) (scale : UInt32) (rom : List UInt8) : List Action :=
  [.log (.programLoaded rom.length), .log (.romLoaded name)] ++ opening scale ++ [.openEvents]
    ++ showing .blank

section Start

variable {source : ByteSource} {rom : List UInt8} (whole : source.content = .ok rom)
  (fits : rom.length ≤ Memory.maxProgramSize)

include whole fits

theorem prepare_of_content (name : String) (scale : UInt32) (random : RandomStream) :
    prepare name (.ok source) scale (.powerOn random) =
      { actions := startActions name scale rom
        machine := startMachine random rom
        ending := none } := by
  simp only [prepare, Machine.loadRom_of_content whole fits, Machine.loadProgram, if_pos fits]
  rfl

theorem play_of_content (name : String) (scale : UInt32) (random : RandomStream)
    (turns : List Turn) :
    Session.play name (.ok source) scale random turns =
      (Session.ofTurns (startMachine random rom) turns).precededBy
        (startActions name scale rom) := by
  simp only [Session.play, prepare_of_content whole fits]

theorem playTimeline_of_content (name : String) (scale : UInt32) (random : RandomStream)
    (turns : List Turn) :
    Session.playTimeline name (.ok source) scale random turns =
      (startActions name scale rom).map (.acts (startMachine random rom)) ++
        Session.timeline (startMachine random rom) turns := by
  simp only [Session.playTimeline, prepare_of_content whole fits]

end Start

theorem startMachine_bounded (random : RandomStream) (rom : List UInt8) :
    (startMachine random rom).Bounded :=
  (Machine.powerOn_bounded random).congr rfl rfl rfl

/-! ## How a session ends -/

/-- The window was closed or the program failed fatally. -/
def Ending.IsRegular (ending : Ending) : Prop :=
  ending = .closed ∨ ∃ failure, failure.isFatal = true ∧ ending = .halted failure

theorem handled_bounded {machine : Machine} (bounded : machine.Bounded) (turn : Turn) :
    (handled machine turn).Bounded := by
  obtain ⟨keypad, next⟩ := handled_keypad machine turn
  rw [next]
  exact bounded.congr rfl rfl rfl

theorem Taken.bounded {machine : Machine} {turn : Turn} {stretch : Stretch}
    {moments : List Moment} (taken : Taken machine turn stretch moments)
    (bounded : machine.Bounded) : stretch.machine.Bounded := by
  have before := handled_bounded bounded turn
  cases taken with
  | closed closes => exact before
  | advanced unclosed =>
      obtain ⟨timers, next⟩ := advance_timers (handled machine turn) turn.ticks
      rw [next]
      exact ((handled machine turn).cycle_outcome.bounded before).congr rfl rfl rfl

theorem advance_ending {machine : Machine} (bounded : machine.Bounded) {ticks : Nat}
    {ending : Ending} (ended : (advance machine ticks).ending = some ending) :
    ending.IsRegular := by
  rcases advance_cases machine ticks with ⟨-, ongoing, -⟩ | ⟨failure, fatal, -, halted, -⟩ |
    ⟨fault, faulted, -, -⟩
  · cases ongoing.symm.trans ended
  · cases halted.symm.trans ended
    exact .inr ⟨failure, fatal, rfl⟩
  · -- A machine within its bounds does not end a cycle in a fault.
    have verdict := Machine.cycle_verdict bounded
    rw [faulted] at verdict
    cases verdict

theorem Taken.ending {machine : Machine} {turn : Turn} {stretch : Stretch}
    {moments : List Moment} (taken : Taken machine turn stretch moments)
    (bounded : machine.Bounded) {ending : Ending} (ended : stretch.ending = some ending) :
    ending.IsRegular := by
  cases taken with
  | closed closes =>
      cases ended
      exact .inl rfl
  | advanced unclosed => exact advance_ending (handled_bounded bounded turn) ended

theorem Session.ofTurns_ending {machine : Machine} (bounded : machine.Bounded)
    (turns : List Turn) : (Session.ofTurns machine turns).ending.IsRegular := by
  induction turns generalizing machine with
  | nil => exact .inl rfl
  | cons turn rest ih =>
      have taken := takeTurn_taken machine turn
      simp only [Session.ofTurns]
      cases ended : (takeTurn machine turn).ending with
      | some ending => exact taken.ending bounded ended
      | none => exact ih (taken.bounded bounded)

end Host

end Chip8Vm
