import Chip8Vm.Proofs.Host.Live
import Chip8Vm.Proofs.Machine.Outputs

/-!
# How a session ends

On a reliable device a session drives its machine by operations from outside: in
each turn the keys of its poll, one cycle and the ticks that are due.  It ends in
the first turn whose poll closes the window, unless a cycle of an earlier turn
fails fatally; nothing else ends it.  Turns come from an unending sequence, and
the session is looked at after any number of them.
-/

namespace Chip8Vm

theorem Machine.after_append (machine : Machine) (earlier later : List Operation) :
    machine.after (earlier ++ later) = (machine.after earlier).after later :=
  List.foldl_append

namespace Host

/-! ## Turns as operations -/

/-- The operation that an event asks for, if it names a key of the keypad. -/
def Event.operation? : Event → Option Operation
  | .keyDown (some key) =>
      (padKey? key).map fun padKey => .pressKey (UInt8.ofNat padKey.val)
  | .keyUp (some key) =>
      (padKey? key).map fun padKey => .releaseKey (UInt8.ofNat padKey.val)
  | .keyDown none | .keyUp none | .quit | .other => none

namespace Turn

def closes (turn : Turn) : Bool :=
  turn.events.any Event.closes

def keyOperations (turn : Turn) : List Operation :=
  turn.events.filterMap Event.operation?

/-- What a turn that does not close the window asks of its machine. -/
def operations (turn : Turn) : List Operation :=
  turn.keyOperations ++ .cycle :: List.replicate turn.ticks .tick

end Turn

theorem handle_eq_after (machine : Machine) (event : Event) :
    handle machine event = machine.after event.operation?.toList := by
  cases event with
  | quit => rfl
  | other => rfl
  | keyDown key =>
      cases key with
      | none => rfl
      | some key =>
          simp only [handle, Event.operation?]
          cases padKey? key with
          | none => rfl
          | some padKey => rfl
  | keyUp key =>
      cases key with
      | none => rfl
      | some key =>
          simp only [handle, Event.operation?]
          cases padKey? key with
          | none => rfl
          | some padKey => rfl

theorem handleAll_eq_after {events : List Event} (unclosed : events.any Event.closes = false)
    (machine : Machine) :
    (handleAll machine events).1 = machine.after (events.filterMap Event.operation?) := by
  induction events generalizing machine with
  | nil => rfl
  | cons event rest ih =>
      rw [List.any_cons, Bool.or_eq_false_iff] at unclosed
      have split : (event :: rest).filterMap Event.operation? =
          event.operation?.toList ++ rest.filterMap Event.operation? := by
        cases asked : event.operation? with
        | none => simp [asked]
        | some operation => simp [asked]
      rw [handleAll, if_neg (by simp [unclosed.1]), ih unclosed.2, handle_eq_after, split,
        Machine.after_append]

theorem ticked_eq_after (machine : Machine) (count : Nat) :
    ticked machine count = machine.after (List.replicate count .tick) := by
  induction count generalizing machine with
  | zero => rfl
  | succ count ih => exact ih machine.tick

/-! ## What a scene shows of its session -/

def Moment.isCycle : Moment → Bool
  | .cycles _ _ => true
  | .acts _ _ => false

namespace Scene

/-- The number of cycles made so far. -/
def cycles (scene : Scene) : Nat :=
  scene.past.countP Moment.isCycle

/-- The number of polls made so far. -/
def polls (scene : Scene) : Nat :=
  Action.polls scene.actions

/-- The text of the last line of the log. -/
def lastLine? (scene : Scene) : Option String :=
  (Action.records scene.actions).getLast?.map LogRecord.message

end Scene

theorem cycles_of_acts (machine : Machine) (actions : List Action) :
    (actions.map (Moment.acts machine)).countP Moment.isCycle = 0 := by
  simp [Moment.isCycle]

theorem cycles_momentsToPoll (machine : Machine) :
    (momentsToPoll machine).countP Moment.isCycle = 0 := by
  rw [momentsToPoll, List.countP_append, cycles_of_acts]
  rfl

namespace Action

theorem polls_append (earlier later : List Action) :
    polls (earlier ++ later) = polls earlier + polls later :=
  List.countP_append

theorem polls_of_logs (records : List LogRecord) : polls (records.map .log) = 0 := by
  simp [polls]

theorem polls_refreshing (machine : Machine) : polls (refreshing machine) = 0 := by
  unfold refreshing
  split
  · rfl
  · rfl

theorem records_concat (actions : List Action) (record : LogRecord) :
    records (actions ++ [.log record]) = records actions ++ [record] := by
  simp [records]

end Action

theorem Scene.lastLine?_concat (device : Device) (earlier : List Moment) (machine : Machine)
    (record : LogRecord) :
    lastLine? { device := device, past := earlier ++ [.acts machine (.log record)] } =
      some record.message := by
  have last : actionsOf [.acts machine (.log record)] = [.log record] := rfl
  rw [lastLine?, Scene.actions, actionsOf_append, last, Action.records_concat,
    List.getLast?_concat]
  rfl

theorem Taken.polls {machine : Machine} {turn : Turn} {stretch : Stretch}
    {moments : List Moment} (taken : Taken machine turn stretch moments) :
    Action.polls (actionsOf moments) = 1 := by
  rw [taken.actions]
  cases taken with
  | closed closes =>
      simp only [Action.polls_append, Action.polls_refreshing]
      rfl
  | advanced unclosed =>
      obtain ⟨records, logs⟩ := advance_logs (handled machine turn) turn.ticks
      simp only [logs, Action.polls_append, Action.polls_refreshing, Action.polls_of_logs]
      rfl

theorem advance_halting {machine : Machine} {failure : Failure}
    (failed : machine.cycle.response = .failed failure) (fatal : failure.isFatal = true)
    (ticks : Nat) :
    (advance machine ticks).ending = some (.halted failure) ∧
      (advance machine ticks).actions =
        machine.cycle.log.map .log ++ [.log (.halting failure)] := by
  simp [advance, failed, fatal]

/-! ## One turn -/

section

variable {turn : Turn} (machine : Machine)

theorem takeTurn_closed (closes : turn.closes = true) :
    (takeTurn machine turn).result = .error .closed ∧
      momentsOfTurn machine turn =
        momentsToPoll machine ++ [.acts (handled machine turn) (.log .windowClosed)] := by
  have closing : turn.events.any Event.closes = true := closes
  simp only [takeTurn, momentsOfTurn, handleAll_closed, closing]
  exact ⟨rfl, rfl⟩

theorem takeTurn_advanced (unclosed : turn.closes = false) :
    (takeTurn machine turn).result = (advance (handled machine turn) turn.ticks).result ∧
      momentsOfTurn machine turn =
        momentsToPoll machine ++
          .cycles (handled machine turn) (handled machine turn).cycle.response
            :: (advance (handled machine turn) turn.ticks).actions.map
              (.acts (handled machine turn).cycle.machine) := by
  have going : turn.events.any Event.closes = false := unclosed
  simp only [takeTurn, momentsOfTurn, handleAll_closed, going]
  exact ⟨rfl, rfl⟩

end

/-- A session that goes on after a number of turns: its machine is the driven one,
their outputs apart, and each turn had its poll and its cycle. -/
structure Going (driven : Machine) (count : Nat) (machine : Machine) (scene : Scene) :
    Prop where
  device : scene.device = .reliable
  same : Machine.SameButOutputs driven machine
  cycles : scene.cycles = count
  polls : scene.polls = count

/-- A session that has ended: how, after how many cycles and polls, and with which
last line in its log. -/
structure EndsBy (outcome : Except Ending Machine × Scene) (ending : Ending)
    (cycles polls : Nat) (lastLine : String) : Prop where
  ended : outcome.1 = .error ending
  cycles : outcome.2.cycles = cycles
  polls : outcome.2.polls = polls
  lastLine : outcome.2.lastLine? = some lastLine

theorem handled_sameButOutputs {driven machine : Machine} {turn : Turn}
    (same : Machine.SameButOutputs driven machine) (unclosed : turn.closes = false) :
    Machine.SameButOutputs (driven.after turn.keyOperations) (handled machine turn) := by
  -- Only the session lowers its flag before the poll; the flag is an output.
  have cleared : Machine.SameButOutputs driven machine.clearRedraw := by
    rw [Machine.sameButOutputs_iff] at same ⊢
    exact same
  rw [handled, handleAll_eq_after unclosed]
  exact cleared.after turn.keyOperations

namespace Going

variable {driven machine : Machine} {count : Nat} {scene : Scene} {turn : Turn}

theorem on_turn (going : Going driven count machine scene) (turn : Turn) :
    (Live.turn machine turn).on scene =
      ((takeTurn machine turn).result,
        { device := .reliable, past := scene.past ++ momentsOfTurn machine turn }) := by
  have reliable : scene = { device := .reliable, past := scene.past } := by
    rw [← going.device]
  rw [reliable]
  exact (turn_follows machine turn).on_reliable scene.past

/-- Every turn polls once. -/
theorem polls_turn (going : Going driven count machine scene) (turn : Turn) :
    ((Live.turn machine turn).on scene).2.polls = count + 1 := by
  rw [going.on_turn, ← going.polls]
  simp only [Scene.polls, Scene.actions, actionsOf_append, Action.polls_append,
    (takeTurn_taken machine turn).polls]

theorem closed (going : Going driven count machine scene) (closes : turn.closes = true) :
    EndsBy ((Live.turn machine turn).on scene) .closed count (count + 1)
      "window closed, exiting" := by
  obtain ⟨result, moments⟩ := takeTurn_closed machine closes
  have polled := going.polls_turn turn
  rw [going.on_turn, result, moments] at polled ⊢
  refine ⟨rfl, ?_, polled, ?_⟩
  · rw [← going.cycles]
    simp only [Scene.cycles, List.countP_append, cycles_momentsToPoll]
    rfl
  · rw [← List.append_assoc]
    exact Scene.lastLine?_concat _ _ _ .windowClosed

/-- A turn that goes on to its cycle makes one. -/
theorem cycles_turn (going : Going driven count machine scene) (unclosed : turn.closes = false) :
    ((Live.turn machine turn).on scene).2.cycles = count + 1 := by
  rw [going.on_turn, (takeTurn_advanced machine unclosed).2, ← going.cycles]
  simp only [Scene.cycles, List.countP_append, List.countP_cons, cycles_momentsToPoll,
    cycles_of_acts]
  rfl

theorem halted (going : Going driven count machine scene) (unclosed : turn.closes = false)
    {failure : Failure} (fatal : failure.isFatal = true)
    (failed : (driven.after turn.keyOperations).cycle.response = .failed failure) :
    EndsBy ((Live.turn machine turn).on scene) (.halted failure) (count + 1) (count + 1)
      ("halting: " ++ failure.message) := by
  have same := handled_sameButOutputs going.same unclosed
  have failed' : (handled machine turn).cycle.response = .failed failure :=
    (same.perform .cycle).1.trans failed
  obtain ⟨ending, actions⟩ := advance_halting failed' fatal turn.ticks
  obtain ⟨result, moments⟩ := takeTurn_advanced machine unclosed
  have polled := going.polls_turn turn
  have cycled := going.cycles_turn unclosed
  rw [going.on_turn] at polled cycled ⊢
  refine ⟨?_, cycled, polled, ?_⟩
  · rw [result]
    exact Stretch.result_of_ended ending
  · rw [moments, actions, List.map_append, ← List.cons_append, ← List.append_assoc,
      ← List.append_assoc]
    exact Scene.lastLine?_concat _ _ _ (.halting failure)

/-- A session goes on when no event closes the window and the cycle does not fail
fatally. -/
theorem next (going : Going driven count machine scene) (unclosed : turn.closes = false)
    (unfailed : (driven.after turn.keyOperations).cycle.response.isFatal = false) :
    ∃ machine' scene',
      (Live.turn machine turn).on scene = (.ok machine', scene') ∧
        Going (driven.after turn.operations) (count + 1) machine' scene' := by
  have same := handled_sameButOutputs going.same unclosed
  obtain ⟨response, -, cycled⟩ := same.perform .cycle
  have goesOn : (handled machine turn).cycle.response.isFatal = false := by
    rw [← unfailed]
    exact congrArg Response.isFatal response
  rcases advance_cases (handled machine turn) turn.ticks with ⟨-, ending, after⟩ |
    ⟨failure, fatal, failed, -, -⟩ | ⟨fault, faulted, -, -⟩
  · have polls := going.polls_turn turn
    have cycles := going.cycles_turn unclosed
    rw [going.on_turn] at polls cycles ⊢
    rw [(takeTurn_advanced machine unclosed).1, Stretch.result_of_going ending, after]
    refine ⟨_, _, rfl, rfl, ?_, cycles, polls⟩
    rw [Turn.operations, Machine.after_append, ticked_eq_after]
    exact cycled.after (.replicate turn.ticks .tick)
  · rw [failed] at goesOn
    cases fatal.symm.trans goesOn
  · rw [faulted] at goesOn
    cases goesOn

end Going

/-! ## Sessions over an unending sequence of turns -/

section Sequence

variable (turns : Nat → Turn)

def firstTurns (count : Nat) : List Turn :=
  (List.range count).map turns

theorem firstTurns_succ (count : Nat) :
    firstTurns turns (count + 1) = firstTurns turns count ++ [turns count] := by
  rw [firstTurns, List.range_succ, List.map_append]
  rfl

theorem firstTurns_add (count more : Nat) :
    firstTurns turns (count + more) =
      firstTurns turns count ++ firstTurns (fun index => turns (count + index)) more := by
  rw [firstTurns, List.range_add, List.map_append, List.map_map]
  rfl

variable (random : RandomStream) (source : ByteSource)

/-- A machine that is driven by the operations of the first turns alone, as if
none of them closed a window and no cycle ended the session. -/
def drivenThrough (count : Nat) : Machine :=
  (Machine.powerOn random).after
    (.loadRom source :: (firstTurns turns count).flatMap Turn.operations)

/-- What the cycle of a turn answers when all turns up to it are taken. -/
def answerAt (index : Nat) : Response :=
  ((drivenThrough turns random source index).after (turns index).keyOperations).cycle.response

/-- The cycle of a turn fails fatally. -/
def FailsAt (index : Nat) (failure : Failure) : Prop :=
  answerAt turns random source index = .failed failure ∧ failure.isFatal = true

theorem drivenThrough_succ (count : Nat) :
    drivenThrough turns random source (count + 1) =
      (drivenThrough turns random source count).after (turns count).operations := by
  rw [drivenThrough, firstTurns_succ, List.flatMap_append, ← List.cons_append,
    Machine.after_append, List.flatMap_singleton]
  rfl

theorem not_isFatal_answerAt {index : Nat}
    (unfailed : ∀ failure, ¬FailsAt turns random source index failure) :
    (answerAt turns random source index).isFatal = false := by
  have bounded : ((drivenThrough turns random source index).after
      (turns index).keyOperations).Bounded := by
    rw [drivenThrough, ← Machine.after_append]
    exact Machine.after_bounded random _
  have verdict := Machine.cycle_verdict bounded
  cases answer : answerAt turns random source index with
  | failed failure =>
      exact Bool.eq_false_iff.mpr fun fatal => unfailed failure ⟨answer, fatal⟩
  | faulted fault =>
      rw [answerAt] at answer
      rw [answer] at verdict
      cases verdict
  | done | executed _ | awaitingKey => rfl

variable (name : String) (scale : UInt32)

/-- A session after its first turns, on a device that refuses nothing. -/
def stage (count : Nat) : Except Ending Machine × Scene :=
  (Live.session name (.ok source) scale random (firstTurns turns count)).on
    (.fresh .reliable)

variable {turns random source name scale}

theorem stage_succ {count : Nat} {machine : Machine} {scene : Scene}
    (going : stage turns random source name scale count = (.ok machine, scene)) :
    stage turns random source name scale (count + 1) =
      (Live.turn machine (turns count)).on scene := by
  rw [stage] at going
  rw [stage, firstTurns_succ, Live.on_session_append, going]
  simp only [Live.turns, Live.on_bind]
  rcases (Live.turn machine (turns count)).on scene with ⟨ending | next, after⟩
  · rfl
  · rfl

theorem stage_of_ended {count : Nat} {ending : Ending}
    (ended : (stage turns random source name scale count).1 = .error ending) (more : Nat) :
    stage turns random source name scale (count + more) =
      stage turns random source name scale count := by
  rw [stage, firstTurns_add]
  exact Live.on_session_ended name (.ok source) scale random _ ended _

theorem EndsBy.later {count cycles polls : Nat} {ending : Ending} {lastLine : String}
    (ends : EndsBy (stage turns random source name scale (count + 1)) ending cycles polls
      lastLine) {later : Nat} (past : count < later) :
    EndsBy (stage turns random source name scale later) ending cycles polls lastLine := by
  obtain ⟨more, rfl⟩ := Nat.exists_eq_add_of_le past
  rw [stage_of_ended ends.ended]
  exact ends

theorem stage_played {count : Nat} {ending : Ending}
    (ended : (stage turns random source name scale count).1 = .error ending) :
    let session := Session.play name (.ok source) scale random (firstTurns turns count)
    (stage turns random source name scale count).1 = .error session.ending ∧
      (stage turns random source name scale count).2.actions = session.actions := by
  intro session
  have closing := Live.on_session_closing name (.ok source) scale random
    (firstTurns turns count) .reliable
  rw [Live.on_session_ended name (.ok source) scale random _ ended, Session.on_reliable] at closing
  exact closing

section Loaded

variable {rom : List UInt8} (whole : source.content = .ok rom)
  (fits : rom.length ≤ Memory.maxProgramSize)

include whole fits

theorem stage_zero :
    ∃ machine scene, stage turns random source name scale 0 = (.ok machine, scene) ∧
      Going (drivenThrough turns random source 0) 0 machine scene := by
  have loaded : drivenThrough turns random source 0 = startMachine random rom := by
    have read := Machine.loadRom_of_content whole fits (.powerOn random)
    rw [Machine.loadProgram, if_pos fits] at read
    exact congrArg Reply.machine read
  have started := start_follows name (.ok source) scale (.powerOn random)
  rw [prepare_of_content whole fits] at started
  have reached := (started.bind (Follows.pure _)).on_reliable []
  rw [List.nil_append, List.append_nil] at reached
  refine ⟨_, _, reached, rfl, ?_, cycles_of_acts _ _, ?_⟩
  · rw [loaded]
    rfl
  · rw [Scene.polls, Scene.actions, actionsOf_acts]
    rfl

/-- As long as no poll closes the window and no cycle fails fatally, a session goes
on, each turn with its poll and its cycle. -/
theorem stage_going {count : Nat}
    (unclosed : ∀ index, index < count → (turns index).closes = false)
    (unfailed : ∀ index, index < count →
      ∀ failure, ¬FailsAt turns random source index failure) :
    ∃ machine scene, stage turns random source name scale count = (.ok machine, scene) ∧
      Going (drivenThrough turns random source count) count machine scene := by
  induction count with
  | zero => exact stage_zero whole fits
  | succ count ih =>
      obtain ⟨machine, scene, reached, going⟩ := ih
        (fun index earlier => unclosed index (by omega))
        (fun index earlier => unfailed index (by omega))
      rw [stage_succ reached, drivenThrough_succ]
      exact going.next (unclosed count (by omega))
        (not_isFatal_answerAt turns random source (unfailed count (by omega)))

theorem going_of_stage {count : Nat} {machine : Machine}
    (ongoing : (stage turns random source name scale count).1 = .ok machine) :
    Going (drivenThrough turns random source count) count machine
      (stage turns random source name scale count).2 := by
  induction count generalizing machine with
  | zero =>
      obtain ⟨start, scene, reached, going⟩ := stage_zero whole fits
      rw [reached] at ongoing ⊢
      cases ongoing
      exact going
  | succ count ih =>
      cases before : (stage turns random source name scale count).1 with
      | error ending =>
          rw [stage_of_ended before] at ongoing
          cases before.symm.trans ongoing
      | ok earlier =>
          have going := ih before
          have taken := stage_succ (Prod.ext before rfl)
          rw [taken] at ongoing ⊢
          -- Of the three ways in which a turn can go, one leaves the session going.
          cases closes : (turns count).closes with
          | true => cases (going.closed closes).ended.symm.trans ongoing
          | false =>
              by_cases fails : ∃ failure, FailsAt turns random source count failure
              · obtain ⟨failure, failed, fatal⟩ := fails
                cases (going.halted closes fatal failed).ended.symm.trans ongoing
              · have unfailed := not_isFatal_answerAt turns random source
                  fun failure failed => fails ⟨failure, failed⟩
                obtain ⟨next, scene, reached, goesOn⟩ := going.next closes unfailed
                rw [reached] at ongoing ⊢
                cases ongoing
                rw [drivenThrough_succ]
                exact goesOn

/-- A closing turn ends a session that has not ended before. -/
theorem stage_ends {quit count : Nat} (closes : (turns quit).closes = true)
    (past : quit < count) :
    ∃ ending, (stage turns random source name scale count).1 = .error ending := by
  have ends : ∃ ending, (stage turns random source name scale (quit + 1)).1 = .error ending := by
    cases before : (stage turns random source name scale quit).1 with
    | error ending =>
        rw [stage_of_ended before]
        exact ⟨ending, before⟩
    | ok machine =>
        have going := going_of_stage whole fits before
        rw [stage_succ (Prod.ext before rfl)]
        exact ⟨.closed, (going.closed closes).ended⟩
  obtain ⟨ending, ended⟩ := ends
  obtain ⟨more, rfl⟩ := Nat.exists_eq_add_of_le past
  rw [stage_of_ended ended]
  exact ⟨ending, ended⟩

end Loaded

end Sequence

/-- How a session ends when no call is refused and turn `quit` is the first of an
unending sequence whose poll closes the window.  If no earlier cycle fails fatally, the
closed window ends it, after `quit` cycles and one more poll, whatever the cycle of that
turn would do.  Otherwise the first fatal failure ends it, after the poll and the cycle
of its turn.  No other event, no malformed word and no wait for a key ends a session
that goes on.  The last part ties the sessions to those that are played. -/
theorem session_ends_by_first_cause (name : String) (scale : UInt32) (random : RandomStream)
    {source : ByteSource} {rom : List UInt8} (whole : source.content = .ok rom)
    (fits : rom.length ≤ 3584) (turns : Nat → Turn) {quit : Nat}
    (closes : (turns quit).closes = true)
    (unclosed : ∀ index, index < quit → (turns index).closes = false) :
    let after := stage turns random source name scale
    let fails := FailsAt turns random source
    let answer := answerAt turns random source
    ((∀ index, index < quit → ∀ failure, ¬fails index failure) →
        ∀ count, quit < count →
          EndsBy (after count) .closed quit (quit + 1) "window closed, exiting") ∧
      (∀ index failure, index < quit → fails index failure →
        (∀ earlier, earlier < index → ∀ other, ¬fails earlier other) →
        ∀ count, index < count →
          EndsBy (after count) (.halted failure) (index + 1) (index + 1)
            ("halting: " ++ failure.message)) ∧
      (∀ count machine, (after count).1 = .ok machine →
        (∀ event, event ∈ (turns count).events →
          event ≠ .quit ∧ event ≠ .keyDown (some .escape)) →
        (answer count = .awaitingKey ∨
            (∃ word pc, answer count = .failed (.malformed word pc)) ∨
            ∃ instruction, answer count = .executed instruction) →
        ∃ next, (after (count + 1)).1 = .ok next) ∧
      ∀ count, quit < count →
        let session := Session.play name (.ok source) scale random (firstTurns turns count)
        (after count).1 = .error session.ending ∧
          (after count).2.actions = session.actions := by
  intro after fails answer
  refine ⟨?_, ?_, ?_, ?_⟩
  · intro unfailed count past
    obtain ⟨machine, scene, reached, going⟩ := stage_going whole fits unclosed unfailed
    have ends := going.closed closes
    rw [← stage_succ reached] at ends
    exact ends.later past
  · intro index failure before failed unfailed count past
    obtain ⟨machine, scene, reached, going⟩ :=
      stage_going whole fits (fun earlier first => unclosed earlier (by omega)) unfailed
    have ends := going.halted (unclosed index before) failed.2 failed.1
    rw [← stage_succ reached] at ends
    exact ends.later past
  · intro count machine ongoing harmless answered
    have stays : (turns count).closes = false := by
      apply List.any_eq_false.mpr
      intro event member
      simp [Event.closes, harmless event member]
    have unfailed : (answer count).isFatal = false := by
      rcases answered with awaiting | ⟨word, pc, malformed⟩ | ⟨instruction, executed⟩
      · rw [awaiting]
        rfl
      · rw [malformed]
        rfl
      · rw [executed]
        rfl
    have going := going_of_stage whole fits ongoing
    obtain ⟨next, scene, reached, -⟩ := going.next stays unfailed
    rw [← stage_succ (Prod.ext ongoing rfl)] at reached
    exact ⟨next, congrArg Prod.fst reached⟩
  · intro count past session
    obtain ⟨ending, ended⟩ := stage_ends whole fits closes past
    exact stage_played ended

/-- The program returns from nowhere in its second cycle.  A window that is closed in
that turn hides the failure; one that is closed later comes too late. -/
theorem closing_races_failure :
    let source := ByteSource.ofBytes [0xA2, 0x00, 0x00, 0xEE]
    let idle : Turn := ⟨[.keyUp (some .escape), .keyDown none], 1⟩
    let closing : Turn := ⟨[.keyDown (some (.letter 'X')), .quit, .keyUp none], 0⟩
    let turns := fun quit index => if index = quit then closing else idle
    let after := fun quit => stage (turns quit) (.progression 0 0) source "rom" 10
    EndsBy (after 1 5) .closed 1 2 "window closed, exiting" ∧
      EndsBy (after 2 5) (.halted (.stackUnderflow 0x202)) 2 2
        "halting: Stack underflow: return at 0x202 with an empty call stack" := by
  intro source idle closing turns after
  have whole : source.content = .ok [0xA2, 0x00, 0x00, 0xEE] := rfl
  have fits : [0xA2, 0x00, 0x00, 0xEE].length ≤ 3584 := by decide
  have closes : ∀ quit, (turns quit quit).closes = true := by
    intro quit
    simp [turns, closing, Turn.closes, Event.closes]
  have unclosed : ∀ quit index, index < quit → (turns quit index).closes = false := by
    intro quit index before
    simp [turns, idle, Turn.closes, Event.closes, Nat.ne_of_lt before]
  have begins : (((Machine.powerOn (.progression 0 0)).after [.loadRom source]).after
      idle.keyOperations).cycle.response = .executed (.loadIndex 0x200) := by
    decide +kernel
  have executes : ∀ quit, 0 < quit →
      answerAt (turns quit) (.progression 0 0) source 0 = .executed (.loadIndex 0x200) := by
    intro quit later
    have first : turns quit 0 = idle := if_neg (Nat.ne_of_lt later)
    rw [answerAt, first]
    exact begins
  have unfailed : ∀ quit, 0 < quit → ∀ index, index < 1 → ∀ failure,
      ¬FailsAt (turns quit) (.progression 0 0) source index failure := by
    intro quit later index first failure failed
    obtain rfl : index = 0 := by omega
    cases (executes quit later).symm.trans failed.1
  have fails : FailsAt (turns 2) (.progression 0 0) source 1 (.stackUnderflow 0x202) :=
    ⟨by decide +kernel, rfl⟩
  have hides := session_ends_by_first_cause "rom" 10 (.progression 0 0) whole fits (turns 1)
    (closes 1) (unclosed 1)
  have late := session_ends_by_first_cause "rom" 10 (.progression 0 0) whole fits (turns 2)
    (closes 2) (unclosed 2)
  have line : "halting: " ++ Failure.message (.stackUnderflow 0x202) =
      "halting: Stack underflow: return at 0x202 with an empty call stack" := by
    decide +kernel
  have halts := late.2.1 1 _ (by decide) fails (unfailed 2 (by decide)) 5 (by decide)
  rw [line] at halts
  exact ⟨hides.1 (unfailed 1 (by decide)) 5 (by decide), halts⟩

end Host

end Chip8Vm
