import Chip8Vm.Proofs.Host.Finish
import Chip8Vm.Proofs.Host.Refusal
import Chip8Vm.Proofs.Machine.KeyTiming

/-!
# The keypad mirrors the keyboard

A key of the keypad is held down exactly if its key of the keyboard was last
heard to go down.  One event keeps this, since the layout gives every key of the
keypad a key of its own; cycles and ticks leave the keypad alone.  So it holds at
every moment of a session, whatever program runs and however the events are
spread over the polls.
-/

namespace Chip8Vm

namespace Keypad

theorem key_ofNat (padKey : Fin 16) : key (UInt8.ofNat padKey.val) = padKey := by
  apply Fin.ext
  have small : padKey.val < 256 := by omega
  simp [key, Nat.mod_eq_of_lt small]

theorem get_press (keypad : Keypad) (pressed padKey : Fin 16) :
    (keypad.press (UInt8.ofNat pressed.val)).get padKey =
      if pressed = padKey then true else keypad.get padKey := by
  have press := keypad.isDown_press (UInt8.ofNat pressed.val) (UInt8.ofNat padKey.val)
  simp only [isDown, key_ofNat] at press
  exact press

theorem get_release (keypad : Keypad) (released padKey : Fin 16) :
    (keypad.release (UInt8.ofNat released.val)).get padKey =
      if released = padKey then false else keypad.get padKey := by
  have release := keypad.isDown_release (UInt8.ofNat released.val) (UInt8.ofNat padKey.val)
  simp only [isDown, key_ofNat] at release
  exact release

end Keypad

namespace Host

/-! ## The layout -/

theorem layout_injective {first second : Fin 16}
    (same : layout.get first = layout.get second) : first = second := by
  revert first second
  decide

/-- A key of the keyboard stands for the key of the keypad that the layout puts
on it, and for no other. -/
theorem padKey?_eq_some_iff {key : Key} {padKey : Fin 16} :
    padKey? key = some padKey ↔ layout.get padKey = key := by
  constructor
  · intro found
    simpa using List.find?_some found
  · intro placed
    cases found : padKey? key with
    | none =>
        have nowhere := List.find?_eq_none.mp found padKey (List.mem_finRange padKey)
        simp [placed] at nowhere
    | some other =>
        have same : layout.get other = key := by simpa using List.find?_some found
        rw [layout_injective (same.trans placed.symm)]

/-! ## Events of a key -/

namespace Event

/-- The key of the keyboard that an event names. -/
def key? : Event → Option Key
  | .keyDown key | .keyUp key => key
  | .quit | .other => none

def presses : Event → Bool
  | .keyDown _ => true
  | .keyUp _ | .quit | .other => false

theorem presses_iff {event : Event} {key : Key} (named : event.key? = some key) :
    event.presses = true ↔ event = .keyDown (some key) := by
  cases event with
  | keyDown reported =>
      cases named
      simp [presses]
  | keyUp reported => simp [presses]
  | quit => cases named
  | other => cases named

end Event

/-- The last of the events of a key, if there was one. -/
def lastOf? (key : Key) (events : List Event) : Option Event :=
  (events.filter fun event => event.key? = some key).getLast?

theorem lastOf?_concat (key : Key) (events : List Event) (event : Event) :
    lastOf? key (events ++ [event]) =
      if event.key? = some key then some event else lastOf? key events := by
  unfold lastOf?
  rw [List.filter_append]
  by_cases named : event.key? = some key
  · simp [named]
  · simp [named]

/-- Whatever is done to the key of the keypad that a key of the keyboard stands for
can be told from the layout. -/
theorem get_of_padKey? {key : Key} {machine next : Machine} {down : Bool}
    (kept : padKey? key = none → next = machine)
    (set : ∀ found, padKey? key = some found → ∀ padKey : Fin 16,
      next.keypad.get padKey = if found = padKey then down else machine.keypad.get padKey)
    (padKey : Fin 16) :
    next.keypad.get padKey =
      if some key = some (layout.get padKey) then down else machine.keypad.get padKey := by
  have placed : some key = some (layout.get padKey) ↔ padKey? key = some padKey := by
    rw [padKey?_eq_some_iff, Option.some_inj, eq_comm]
  cases stands : padKey? key with
  | none =>
      rw [kept stands, if_neg]
      rw [placed, stands]
      nofun
  | some found =>
      rw [stands, Option.some_inj (a := found)] at placed
      simp only [set found stands, placed]

/-- An event sets the key of the keypad whose key of the keyboard it names, and
leaves every other one as it was. -/
theorem get_handle (machine : Machine) (event : Event) (padKey : Fin 16) :
    (handle machine event).keypad.get padKey =
      if event.key? = some (layout.get padKey) then event.presses
      else machine.keypad.get padKey := by
  cases event with
  | quit | other => rfl
  | keyDown reported =>
      cases reported with
      | none => rfl
      | some key =>
          apply get_of_padKey?
          · intro nowhere
            simp only [handle, nowhere]
          · intro pressed stands padKey
            simp only [handle, stands]
            exact machine.keypad.get_press pressed padKey
  | keyUp reported =>
      cases reported with
      | none => rfl
      | some key =>
          apply get_of_padKey?
          · intro nowhere
            simp only [handle, nowhere]
          · intro released stands padKey
            simp only [handle, stands]
            exact machine.keypad.get_release released padKey

/-! ## Handling events -/

/-- A key of the keypad is held down exactly if the keyboard reported its key and
did so last by a press. -/
def Mirrors (keypad : Keypad) (events : List Event) : Prop :=
  ∀ padKey : Fin 16,
    keypad.get padKey = true ↔
      lastOf? (layout.get padKey) events = some (.keyDown (some (layout.get padKey)))

/-- The events of a poll that are handled: those before one that closes the
window. -/
def heard (events : List Event) : List Event :=
  events.takeWhile fun event => !event.closes

namespace Mirrors

theorem released : Mirrors .released [] := by
  intro padKey
  have up : Keypad.released.get padKey = false := Vector.getElem_replicate padKey.isLt
  simp [up, lastOf?]

theorem handle {machine : Machine} {events : List Event}
    (mirrors : Mirrors machine.keypad events) (event : Event) :
    Mirrors (Host.handle machine event).keypad (events ++ [event]) := by
  intro padKey
  rw [get_handle, lastOf?_concat]
  by_cases named : event.key? = some (layout.get padKey)
  · rw [if_pos named, if_pos named, Option.some_inj]
    exact Event.presses_iff named
  · rw [if_neg named, if_neg named]
    exact mirrors padKey

theorem handleAll {machine : Machine} {earlier : List Event}
    (mirrors : Mirrors machine.keypad earlier) (events : List Event) :
    Mirrors (Host.handleAll machine events).1.keypad (earlier ++ heard events) := by
  induction events generalizing machine earlier with
  | nil =>
      rw [heard, List.takeWhile_nil, List.append_nil]
      exact mirrors
  | cons event rest ih =>
      unfold Host.handleAll heard
      by_cases closes : event.closes = true
      · rw [if_pos closes, List.takeWhile_cons_of_neg (by simp [closes]), List.append_nil]
        exact mirrors
      · rw [if_neg closes, List.takeWhile_cons_of_pos (by simp [closes]), ← List.singleton_append,
          ← List.append_assoc]
        exact ih (mirrors.handle event)

end Mirrors

theorem advance_keypad (machine : Machine) (ticks : Nat) :
    (advance machine ticks).machine.keypad = machine.keypad := by
  obtain ⟨timers, next⟩ := advance_timers machine ticks
  rw [next]
  exact machine.cycle_outcome.keypad

/-! ## The moments of a session -/

def Moment.machine : Moment → Machine
  | .acts machine _ => machine
  | .cycles machine _ => machine

/-- The polls among moments. -/
def pollsIn (moments : List Moment) : Nat :=
  Action.polls (actionsOf moments)

theorem pollsIn_append (earlier later : List Moment) :
    pollsIn (earlier ++ later) = pollsIn earlier + pollsIn later := by
  rw [pollsIn, actionsOf_append, Action.polls_append]
  rfl

/-- A law holds at every moment, given the number of polls before it. -/
def AtMoments (law : Nat → Machine → Prop) (moments : List Moment) : Prop :=
  ∀ earlier moment later, moments = earlier ++ moment :: later →
    law (pollsIn earlier) moment.machine

namespace AtMoments

variable {law : Nat → Machine → Prop}

theorem append {first second : List Moment} (before : AtMoments law first)
    (after : AtMoments (fun polls => law (pollsIn first + polls)) second) :
    AtMoments law (first ++ second) := by
  intro earlier moment later split
  rcases List.append_eq_append_iff.mp split with ⟨rest, rfl, inside⟩ | ⟨rest, whole, inside⟩
  · rw [pollsIn_append]
    exact after rest moment later inside
  · cases rest with
    | nil =>
        rw [List.append_nil] at whole
        subst whole
        exact after [] moment later inside.symm
    | cons found rest =>
        cases inside
        exact before earlier moment rest whole

/-- Without polls it is enough to look at the moments one by one. -/
theorem of_pollless {moments : List Moment} (pollless : pollsIn moments = 0)
    (each : ∀ moment, moment ∈ moments → law 0 moment.machine) : AtMoments law moments := by
  intro earlier moment later split
  have none : pollsIn earlier = 0 := by
    rw [split, pollsIn_append] at pollless
    omega
  rw [none]
  apply each
  rw [split]
  exact List.mem_append_right earlier List.mem_cons_self

theorem single {moment : Moment} (here : law 0 moment.machine) : AtMoments law [moment] := by
  intro earlier found later split
  cases earlier with
  | nil =>
      cases split
      exact here
  | cons first rest => simp at split

end AtMoments

/-! ## Sessions -/

/-- The events handled at the first polls. -/
def heardBy (turns : List Turn) (polls : Nat) : List Event :=
  (turns.take polls).flatMap fun turn => heard turn.events

theorem heardBy_zero (turns : List Turn) : heardBy turns 0 = [] := rfl

theorem heardBy_succ (turn : Turn) (rest : List Turn) (polls : Nat) :
    heardBy (turn :: rest) (polls + 1) = heard turn.events ++ heardBy rest polls := by
  rw [heardBy, List.take_succ_cons, List.flatMap_cons]
  rfl

/-- The keypad mirrors the events handled before some turns and those handled at
their first polls. -/
def MirrorsAt (past : List Event) (turns : List Turn) (polls : Nat) (machine : Machine) :
    Prop :=
  Mirrors machine.keypad (past ++ heardBy turns polls)

section

variable {past : List Event} {machine : Machine}

theorem Mirrors.atZero (mirrors : Mirrors machine.keypad past) (turns : List Turn) :
    MirrorsAt past turns 0 machine := by
  rw [MirrorsAt, heardBy_zero, List.append_nil]
  exact mirrors

theorem Mirrors.atEnd (mirrors : Mirrors machine.keypad past) (polls : Nat) :
    MirrorsAt past [] polls machine := by
  rw [MirrorsAt, heardBy, List.take_nil, List.flatMap_nil, List.append_nil]
  exact mirrors

theorem mirrorsAt_succ (past : List Event) (turn : Turn) (rest : List Turn) (polls : Nat)
    (machine : Machine) :
    MirrorsAt past (turn :: rest) (1 + polls) machine ↔
      MirrorsAt (past ++ heard turn.events) rest polls machine := by
  rw [MirrorsAt, MirrorsAt, Nat.add_comm, heardBy_succ, List.append_assoc]

theorem Mirrors.atOne {turn : Turn}
    (mirrors : Mirrors machine.keypad (past ++ heard turn.events)) (rest : List Turn) :
    MirrorsAt past (turn :: rest) 1 machine :=
  (mirrorsAt_succ past turn rest 0 machine).mpr (mirrors.atZero rest)

theorem pollsIn_momentsToPoll (machine : Machine) : pollsIn (momentsToPoll machine) = 1 := by
  rw [pollsIn, actionsOf_momentsToPoll, Action.polls_append, Action.polls_refreshing]
  rfl

theorem pollsIn_acts (machine : Machine) (actions : List Action) :
    pollsIn (actions.map (.acts machine)) = Action.polls actions := by
  rw [pollsIn, actionsOf_acts]

theorem momentsToPoll_mirrors (mirrors : Mirrors machine.keypad past) (turns : List Turn) :
    AtMoments (MirrorsAt past turns) (momentsToPoll machine) := by
  have refreshed : pollsIn ((refreshing machine).map (.acts machine)) = 0 := by
    rw [pollsIn_acts, Action.polls_refreshing]
  apply AtMoments.append
  · refine AtMoments.of_pollless refreshed ?_
    intro moment member
    obtain ⟨action, -, rfl⟩ := List.mem_map.mp member
    exact mirrors.atZero turns
  · apply AtMoments.single
    rw [refreshed]
    exact mirrors.atZero turns

theorem handled_mirrors (mirrors : Mirrors machine.keypad past) (turn : Turn) :
    Mirrors (handled machine turn).keypad (past ++ heard turn.events) := by
  have cleared : Mirrors machine.clearRedraw.keypad past := mirrors
  exact cleared.handleAll turn.events

theorem Taken.mirrors {turn : Turn} {stretch : Stretch} {moments : List Moment}
    (taken : Taken machine turn stretch moments) (mirrors : Mirrors machine.keypad past) :
    Mirrors stretch.machine.keypad (past ++ heard turn.events) := by
  have held := handled_mirrors mirrors turn
  cases taken with
  | closed closes => exact held
  | advanced unclosed =>
      rw [advance_keypad]
      exact held

theorem Taken.mirrorsAt {turn : Turn} {stretch : Stretch} {moments : List Moment}
    (taken : Taken machine turn stretch moments) (mirrors : Mirrors machine.keypad past)
    (rest : List Turn) : AtMoments (MirrorsAt past (turn :: rest)) moments := by
  have polled := momentsToPoll_mirrors mirrors (turn :: rest)
  have held := handled_mirrors mirrors turn
  cases taken with
  | closed closes =>
      apply polled.append
      rw [pollsIn_momentsToPoll]
      exact AtMoments.single (held.atOne rest)
  | advanced unclosed =>
      obtain ⟨records, logs⟩ := advance_logs (handled machine turn) turn.ticks
      apply polled.append
      rw [pollsIn_momentsToPoll, logs]
      apply AtMoments.of_pollless
      · have logged : pollsIn ((records.map Action.log).map
            (.acts (handled machine turn).cycle.machine)) = 0 := by
          rw [pollsIn_acts, Action.polls_of_logs]
        exact logged
      · intro moment member
        rcases List.mem_cons.mp member with rfl | later
        · exact held.atOne rest
        · obtain ⟨action, -, rfl⟩ := List.mem_map.mp later
          -- The log is written after the cycle, which has left the keypad alone.
          apply Mirrors.atOne
          rw [Moment.machine, (handled machine turn).cycle_outcome.keypad]
          exact held

end

namespace Session

theorem timeline_mirrors {past : List Event} {machine : Machine}
    (mirrors : Mirrors machine.keypad past) (turns : List Turn) :
    AtMoments (MirrorsAt past turns) (timeline machine turns) := by
  induction turns generalizing past machine with
  | nil =>
      apply (momentsToPoll_mirrors mirrors []).append
      exact AtMoments.single (mirrors.atEnd _)
  | cons turn rest ih =>
      have taken := takeTurn_taken machine turn
      apply (taken.mirrorsAt mirrors rest).append
      cases (takeTurn machine turn).ending with
      | some ending => exact AtMoments.of_pollless rfl (by simp)
      | none =>
          have once : pollsIn (momentsOfTurn machine turn) = 1 := taken.polls
          intro earlier moment later split
          rw [once, mirrorsAt_succ]
          exact ih (taken.mirrors mirrors) earlier moment later split

theorem ofTurns_mirrors {past : List Event} {machine : Machine}
    (mirrors : Mirrors machine.keypad past) (turns : List Turn) :
    MirrorsAt past turns (pollsIn (timeline machine turns)) (ofTurns machine turns).machine := by
  induction turns generalizing past machine with
  | nil => exact mirrors.atEnd _
  | cons turn rest ih =>
      have taken := takeTurn_taken machine turn
      have once : pollsIn (momentsOfTurn machine turn) = 1 := taken.polls
      have after := taken.mirrors mirrors
      simp only [timeline, ofTurns, pollsIn_append, once, mirrorsAt_succ]
      cases (takeTurn machine turn).ending with
      | some ending => exact after.atZero rest
      | none => exact ih after

end Session

theorem prepare_mirrors (name : String) (file : Except String ByteSource) (scale : UInt32)
    (random : RandomStream) :
    Mirrors (prepare name file scale (.powerOn random)).machine.keypad [] := by
  cases file with
  | error reason => exact .released
  | ok source =>
      have loaded : Mirrors ((Machine.powerOn random).loadRom source).machine.keypad [] := by
        have kept := (Machine.powerOn random).perform_keypad (.loadRom source)
        rw [Machine.perform] at kept
        rw [kept]
        exact .released
      simp only [prepare]
      cases ((Machine.powerOn random).loadRom source).response with
      | failed _ | done | executed _ | awaitingKey | faulted _ => exact loaded

theorem prepare_polls (name : String) (file : Except String ByteSource) (scale : UInt32)
    (machine : Machine) : Action.polls (prepare name file scale machine).actions = 0 := by
  cases file with
  | error reason => rfl
  | ok source =>
      simp only [prepare]
      cases (machine.loadRom source).response with
      | failed failure => exact Action.polls_of_logs _
      | done | executed _ | awaitingKey | faulted _ =>
          simp only [Action.polls_append, Action.polls_of_logs]
          rfl

namespace Session

theorem on_initial (session : Session) (device : Device) :
    (session.on device).actions <+: session.actions := by
  have initial := carryOut_initial device session.actions
  rcases carried : device.carryOut session.actions with ⟨done, _ | reason⟩
  all_goals
    rw [carried] at initial
    simpa only [on, Performance.ofActions, carried] using initial

section

variable (name : String) (file : Except String ByteSource) (scale : UInt32)
  (random : RandomStream) (turns : List Turn)

theorem playTimeline_mirrors :
    AtMoments (MirrorsAt [] turns) (playTimeline name file scale random turns) := by
  have start := prepare_mirrors name file scale random
  have pollless : pollsIn ((prepare name file scale (.powerOn random)).actions.map
      (.acts (prepare name file scale (.powerOn random)).machine)) = 0 := by
    rw [pollsIn_acts, prepare_polls]
  simp only [playTimeline]
  apply AtMoments.append
  · refine AtMoments.of_pollless pollless ?_
    intro moment member
    obtain ⟨action, -, rfl⟩ := List.mem_map.mp member
    exact start.atZero turns
  · simp only [pollless, Nat.zero_add]
    cases (prepare name file scale (.powerOn random)).ending with
    | some ending => exact AtMoments.of_pollless rfl (by simp)
    | none => exact timeline_mirrors start turns

theorem play_mirrors :
    MirrorsAt [] turns (pollsIn (playTimeline name file scale random turns))
      (play name file scale random turns).machine := by
  have start := prepare_mirrors name file scale random
  simp only [playTimeline, play, pollsIn_append, pollsIn_acts, prepare_polls, Nat.zero_add]
  cases (prepare name file scale (.powerOn random)).ending with
  | some ending => exact start.atZero turns
  | none => exact ofTurns_mirrors start turns

/-- The keypad follows the keyboard through a whole session, on any device, with any
file and any turns.  At every moment, at its end and at any place within the events
of a poll, a key of the keypad is held down exactly if the keyboard reported its key
and did so last by a press.  An event changes no key of the keypad but the one whose
key of the keyboard it names, and no two keys of the keyboard stand for the same key
of the keypad. -/
theorem keypad_follows_keyboard :
    let session := play name file scale random turns
    let moments := playTimeline name file scale random turns
    (session.actions = actionsOf moments ∧
        ∀ device, (session.on device).actions <+: actionsOf moments) ∧
      (∀ earlier moment later, moments = earlier ++ moment :: later →
        Mirrors moment.machine.keypad (heardBy turns (pollsIn earlier))) ∧
      (∀ earlier machine later, moments = earlier ++ .acts machine .poll :: later →
        ∀ events, Mirrors (handleAll machine events).1.keypad
          (heardBy turns (pollsIn earlier) ++ heard events)) ∧
      Mirrors session.machine.keypad (heardBy turns (pollsIn moments)) ∧
      (∀ (machine : Machine) (event : Event) (padKey : Fin 16),
        event.key? ≠ some (layout.get padKey) →
          (handle machine event).keypad.get padKey = machine.keypad.get padKey) ∧
      ∀ (first second : Key) (padKey : Fin 16), padKey? first = some padKey →
        padKey? second = some padKey → first = second := by
  intro session moments
  have erased : actionsOf moments = session.actions :=
    actionsOf_playTimeline name file scale random turns
  have along : AtMoments (MirrorsAt [] turns) moments :=
    playTimeline_mirrors name file scale random turns
  refine ⟨⟨erased.symm, ?_⟩, along, ?_, play_mirrors name file scale random turns, ?_, ?_⟩
  · intro device
    rw [erased]
    exact session.on_initial device
  · intro earlier machine later split events
    have polled : Mirrors machine.keypad (heardBy turns (pollsIn earlier)) :=
      along earlier (.acts machine .poll) later split
    exact polled.handleAll events
  · intro machine event padKey unnamed
    rw [get_handle, if_neg unnamed]
  · intro first second padKey firstStands secondStands
    rw [← padKey?_eq_some_iff.mp firstStands, ← padKey?_eq_some_iff.mp secondStands]

end

end Session

end Host

end Chip8Vm
