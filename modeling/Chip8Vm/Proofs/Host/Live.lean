import Chip8Vm.Proofs.Host.Timeline

/-!
# Sessions call by call

Here a session is a program that asks its device for every single action at the
moment when the action is due, and a refused call ends it there.  What such a
program does is told by a list of moments and a result: the program goes through
the moments in order and then gives the result, or stops where the device
refuses.  A session played call by call is the session of `Session.play` carried
out on the device.
-/

namespace Chip8Vm

namespace Host

/-- A device, and what a session has done on it so far. -/
structure Scene where
  device : Device
  past : List Moment

namespace Scene

def fresh (device : Device) : Scene where
  device := device
  past := []

/-- The actions carried out so far. -/
def actions (scene : Scene) : List Action :=
  actionsOf scene.past

end Scene

/-- A part of a session that is carried out on a device.  It gives a value and
the session goes on, or an ending. -/
abbrev Live (α : Type) := ExceptT Ending (StateM Scene) α

namespace Live

/-- What comes of a part of a session, and the scene after it. -/
def on {α : Type} (part : Live α) (scene : Scene) : Except Ending α × Scene :=
  (ExceptT.run part).run scene

/-- Asks the device for an action. -/
def act (machine : Machine) (action : Action) : Live Unit := do
  let scene ← get
  match scene.device.accept action with
  | .ok device =>
      set { device := device, past := scene.past ++ [.acts machine action] : Scene }
  | .error reason => throw (.refused reason)

def note (machine : Machine) : List LogRecord → Live Unit
  | [] => return ()
  | record :: rest => do
      act machine (.log record)
      note machine rest

def render (machine : Machine) : Live Unit := do
  act machine (.createTexture Screen.width Screen.height)
  act machine (.writeTexture (.ofScreen machine.screen))
  act machine .copyTexture
  act machine .present

def cycle (machine : Machine) : Live Reply := do
  modify fun scene =>
    { scene with past := scene.past ++ [.cycles machine machine.cycle.response] }
  note machine.cycle.machine machine.cycle.log
  return machine.cycle

/-- Opens a window of the screen's size times a scale, with the sides that `opening`
gives it: they wrap around from a scale of `2 ^ 26` on. -/
def openWindow (machine : Machine) (scale : UInt32) : Live Unit := do
  act machine .initialise
  act machine .openVideo
  act machine
    (.openWindow "Chip-8" (UInt32.ofNat Screen.width * scale)
      (UInt32.ofNat Screen.height * scale))
  act machine .openCanvas

def start (name : String) (file : Except String ByteSource) (scale : UInt32)
    (machine : Machine) : Live Machine :=
  match file with
  | .error reason => throw (.unopened name reason)
  | .ok source => do
      let reply := machine.loadRom source
      note reply.machine reply.log
      match reply.response with
      | .failed failure => throw (.unloaded name failure)
      | _ => do
          act reply.machine (.log (.romLoaded name))
          openWindow reply.machine scale
          act reply.machine .openEvents
          render reply.machine
          return reply.machine

/-- Lets the ticks pass that are due after a cycle, or ends the session. -/
def goOn (reply : Reply) (ticks : Nat) : Live Machine :=
  match reply.response with
  | .failed failure =>
      if failure.isFatal then do
        act reply.machine (.log (.halting failure))
        throw (.halted failure)
      else
        return ticked reply.machine ticks
  | .faulted fault => throw (.faulted fault)
  | .done | .executed _ | .awaitingKey => return ticked reply.machine ticks

def advance (machine : Machine) (ticks : Nat) : Live Machine := do
  let reply ← cycle machine
  goOn reply ticks

/-- Brings the window up to date. -/
def refresh (machine : Machine) : Live Unit :=
  if machine.redraw then render machine else return ()

def turn (machine : Machine) (turn : Turn) : Live Machine := do
  refresh machine
  act machine.clearRedraw .poll
  let (handled, closed) := handleAll machine.clearRedraw turn.events
  if closed then do
    act handled (.log .windowClosed)
    throw .closed
  else
    advance handled turn.ticks

def turns (machine : Machine) : List Turn → Live Machine
  | [] => return machine
  | first :: rest => do
      let next ← turn machine first
      turns next rest

/-- A session as far as its given turns; it may go on after them. -/
def session (name : String) (file : Except String ByteSource) (scale : UInt32)
    (random : RandomStream) (given : List Turn) : Live Machine := do
  let machine ← start name file scale (.powerOn random)
  turns machine given

end Live

/-! ## What a part of a session goes through -/

/-- The device after a moment, or why it refuses; a cycle is not its business. -/
def Device.pass (device : Device) : Moment → Except String Device
  | .acts _ action => device.accept action
  | .cycles _ _ => .ok device

/-- Goes through moments up to a refusal: why there was one, and the scene then. -/
def Scene.through (scene : Scene) : List Moment → Option String × Scene
  | [] => (none, scene)
  | moment :: rest =>
      match scene.device.pass moment with
      | .ok device => Scene.through { device := device, past := scene.past ++ [moment] } rest
      | .error reason => (some reason, scene)

/-- The result, unless there was a refusal. -/
def conclude {α : Type} (result : Except Ending α) :
    Option String × Scene → Except Ending α × Scene
  | (none, scene) => (result, scene)
  | (some reason, scene) => (.error (.refused reason), scene)

/-- On every device the part goes through the moments and gives the result,
unless it is refused a call on the way. -/
def Follows {α : Type} (part : Live α) (moments : List Moment) (result : Except Ending α) :
    Prop :=
  ∀ scene, part.on scene = conclude result (scene.through moments)

theorem Scene.through_append (scene : Scene) (earlier later : List Moment) :
    scene.through (earlier ++ later) =
      match scene.through earlier with
      | (none, after) => after.through later
      | (some reason, after) => (some reason, after) := by
  induction earlier generalizing scene with
  | nil => rfl
  | cons moment rest ih =>
      simp only [List.cons_append, through]
      cases scene.device.pass moment with
      | ok device => exact ih _
      | error reason => rfl

theorem Live.on_bind {α β : Type} (part : Live α) (next : α → Live β) (scene : Scene) :
    (part >>= next).on scene =
      match part.on scene with
      | (.ok value, after) => (next value).on after
      | (.error ending, after) => (.error ending, after) := by
  simp only [Live.on, ExceptT.run_bind, StateT.run_bind]
  obtain ⟨outcome, after⟩ := (ExceptT.run part).run scene
  cases outcome with
  | ok value => rfl
  | error ending => rfl

section Conclude

variable {α : Type} (result : Except Ending α) {gone : Option String × Scene}

theorem conclude_scene (gone : Option String × Scene) : (conclude result gone).2 = gone.2 := by
  match gone with
  | (none, scene) => rfl
  | (some reason, scene) => rfl

theorem conclude_of_none (unrefused : gone.1 = none) : (conclude result gone).1 = result := by
  match gone with
  | (none, scene) => rfl

theorem conclude_of_some {reason : String} (refused : gone.1 = some reason) :
    (conclude result gone).1 = .error (.refused reason) := by
  match gone with
  | (some other, scene) =>
      cases refused
      rfl

end Conclude

namespace Follows

section

variable {α β : Type} {part : Live α} {next : α → Live β} {moments later : List Moment}

theorem pure (value : α) : Follows (Pure.pure value) [] (.ok value) := fun _ => rfl

theorem throw (ending : Ending) :
    Follows (MonadExcept.throw ending : Live α) [] (.error ending) := fun _ => rfl

theorem bind {value : α} {result : Except Ending β} (first : Follows part moments (.ok value))
    (second : Follows (next value) later result) :
    Follows (part >>= next) (moments ++ later) result := by
  intro scene
  rw [Live.on_bind, first scene, scene.through_append]
  match scene.through moments with
  | (none, after) => exact second after
  | (some reason, after) => rfl

theorem andThen {after : Live β} {value : α} {result : Except Ending β}
    (first : Follows part moments (.ok value)) (second : Follows after later result) :
    Follows (part >>= fun _ => after) (moments ++ later) result :=
  first.bind second

theorem stop {ending : Ending} (first : Follows part moments (.error ending)) :
    Follows (part >>= next) moments (.error ending) := by
  intro scene
  rw [Live.on_bind, first scene]
  match scene.through moments with
  | (none, after) => rfl
  | (some reason, after) => rfl

end

theorem act (machine : Machine) (action : Action) :
    Follows (Live.act machine action) [.acts machine action] (.ok ()) := by
  intro scene
  have asked : (get : Live Scene).on scene = (.ok scene, scene) := rfl
  rw [Live.act, Live.on_bind, asked]
  simp only [Scene.through, Device.pass]
  cases scene.device.accept action with
  | ok device => rfl
  | error reason => rfl

theorem note (machine : Machine) (records : List LogRecord) :
    Follows (Live.note machine records) ((records.map Action.log).map (.acts machine))
      (.ok ()) := by
  induction records with
  | nil => exact .pure ()
  | cons record rest ih => exact (act machine (.log record)).bind ih

theorem render (machine : Machine) :
    Follows (Live.render machine) ((showing machine.screen).map (.acts machine)) (.ok ()) := by
  exact (act _ _).bind ((act _ _).bind ((act _ _).bind (act _ _)))

theorem cycle (machine : Machine) :
    Follows (Live.cycle machine)
      (.cycles machine machine.cycle.response ::
        (machine.cycle.log.map Action.log).map (.acts machine.cycle.machine))
      (.ok machine.cycle) := by
  have counted : Follows
      (modify fun scene : Scene =>
        { scene with past := scene.past ++ [.cycles machine machine.cycle.response] })
      [.cycles machine machine.cycle.response] (.ok PUnit.unit) := fun _ => rfl
  have noted :=
    (note machine.cycle.machine machine.cycle.log).andThen (pure machine.cycle)
  rw [List.append_nil] at noted
  exact counted.bind noted

theorem openWindow (machine : Machine) (scale : UInt32) :
    Follows (Live.openWindow machine scale) ((opening scale).map (.acts machine)) (.ok ()) :=
  (act _ _).bind ((act _ _).bind ((act _ _).bind (act _ _)))

end Follows

/-- What a stretch of a session comes to: the machine to go on with, or an ending. -/
def Stretch.result (stretch : Stretch) : Except Ending Machine :=
  match stretch.ending with
  | some ending => .error ending
  | none => .ok stretch.machine

theorem Stretch.result_of_ended {stretch : Stretch} {ending : Ending}
    (ended : stretch.ending = some ending) : stretch.result = .error ending := by
  rw [result, ended]

theorem Stretch.result_of_going {stretch : Stretch} (going : stretch.ending = none) :
    stretch.result = .ok stretch.machine := by
  rw [result, going]

theorem start_follows (name : String) (file : Except String ByteSource) (scale : UInt32)
    (machine : Machine) :
    Follows (Live.start name file scale machine)
      ((prepare name file scale machine).actions.map
        (.acts (prepare name file scale machine).machine))
      (prepare name file scale machine).result := by
  cases file with
  | error reason => exact .throw (.unopened name reason)
  | ok source =>
      let loaded := (machine.loadRom source).machine
      have noted := Follows.note loaded (machine.loadRom source).log
      have opened :=
        (Follows.act loaded (.log (.romLoaded name))).andThen
          ((Follows.openWindow loaded scale).andThen
            ((Follows.act loaded .openEvents).andThen
              ((Follows.render loaded).andThen (Follows.pure loaded))))
      simp only [prepare, Live.start]
      cases (machine.loadRom source).response with
      | failed failure =>
          have refused : Follows (throw (.unloaded name failure) : Live Machine) [] _ :=
            .throw (.unloaded name failure)
          have stopped := noted.andThen refused
          rw [List.append_nil] at stopped
          exact stopped
      | done | executed _ | awaitingKey | faulted _ =>
          have whole := noted.andThen opened
          simp only [List.map_append, List.append_assoc]
          rw [List.append_nil] at whole
          exact whole

theorem goOn_follows (machine : Machine) (ticks : Nat) :
    ∃ closing : List Action,
      (advance machine ticks).actions = machine.cycle.log.map Action.log ++ closing ∧
        Follows (Live.goOn machine.cycle ticks)
          (closing.map (.acts machine.cycle.machine)) (advance machine ticks).result := by
  simp only [advance, Live.goOn]
  cases machine.cycle.response with
  | failed failure =>
      by_cases fatal : failure.isFatal = true
      · refine ⟨[.log (.halting failure)], by simp [fatal], ?_⟩
        simp only [if_pos fatal]
        exact (Follows.act _ _).andThen (.throw (.halted failure))
      · refine ⟨[], by simp [fatal], ?_⟩
        simp only [if_neg fatal]
        exact .pure _
  | faulted fault => exact ⟨[], by simp, .throw (.faulted fault)⟩
  | done | executed _ | awaitingKey => exact ⟨[], by simp, .pure _⟩

theorem advance_follows (machine : Machine) (ticks : Nat) :
    Follows (Live.advance machine ticks)
      (.cycles machine machine.cycle.response ::
        (advance machine ticks).actions.map (.acts machine.cycle.machine))
      (advance machine ticks).result := by
  obtain ⟨closing, split, goes⟩ := goOn_follows machine ticks
  rw [split, List.map_append]
  exact (Follows.cycle machine).bind goes

theorem refresh_follows (machine : Machine) :
    Follows (Live.refresh machine) ((refreshing machine).map (.acts machine)) (.ok ()) := by
  unfold Live.refresh refreshing
  cases machine.redraw with
  | true => exact .render machine
  | false => exact .pure ()

theorem turn_follows (machine : Machine) (turn : Turn) :
    Follows (Live.turn machine turn) (momentsOfTurn machine turn)
      (takeTurn machine turn).result := by
  have polled := Follows.act machine.clearRedraw .poll
  simp only [Live.turn, takeTurn, momentsOfTurn, momentsToPoll, handleAll_closed,
    List.append_assoc]
  apply (refresh_follows machine).andThen
  apply polled.andThen
  cases turn.events.any Event.closes with
  | true => exact (Follows.act _ _).andThen (.throw .closed)
  | false => exact advance_follows (handled machine turn) turn.ticks

/-! ## Whole sessions -/

/-- The turn whose poll closes the window. -/
def closingTurn : Turn where
  events := [.quit]
  ticks := 0

theorem turns_closing_follow (machine : Machine) (given : List Turn) :
    Follows (Live.turns machine (given ++ [closingTurn])) (Session.timeline machine given)
      (.error (Session.ofTurns machine given).ending) := by
  induction given generalizing machine with
  | nil => exact (turn_follows machine closingTurn).stop
  | cons first rest ih =>
      have taken := turn_follows machine first
      simp only [Session.timeline, Session.ofTurns]
      cases ended : (takeTurn machine first).ending with
      | some ending =>
          rw [Stretch.result_of_ended ended] at taken
          simp only [List.append_nil]
          exact taken.stop
      | none =>
          rw [Stretch.result_of_going ended] at taken
          exact taken.bind (ih (takeTurn machine first).machine)

theorem session_closing_follows (name : String) (file : Except String ByteSource)
    (scale : UInt32) (random : RandomStream) (given : List Turn) :
    Follows (Live.session name file scale random (given ++ [closingTurn]))
      (Session.playTimeline name file scale random given)
      (.error (Session.play name file scale random given).ending) := by
  have started := start_follows name file scale (.powerOn random)
  simp only [Session.playTimeline, Session.play]
  cases ended : (prepare name file scale (.powerOn random)).ending with
  | some ending =>
      rw [Stretch.result_of_ended ended] at started
      simp only [List.append_nil]
      exact started.stop
  | none =>
      rw [Stretch.result_of_going ended] at started
      exact started.bind (turns_closing_follow _ given)

/-! ## Scenes and devices -/

@[simp] theorem actionsOf_cons_acts (machine : Machine) (action : Action)
    (rest : List Moment) : actionsOf (.acts machine action :: rest) = action :: actionsOf rest :=
  rfl

@[simp] theorem actionsOf_cons_cycles (machine : Machine) (response : Response)
    (rest : List Moment) : actionsOf (.cycles machine response :: rest) = actionsOf rest :=
  rfl

namespace Scene

/-- Going through moments carries out their actions, cycles in between or not. -/
theorem through_carryOut (scene : Scene) (moments : List Moment) :
    (scene.through moments).1 = (scene.device.carryOut (actionsOf moments)).2 ∧
      (scene.through moments).2.actions =
        scene.actions ++ (scene.device.carryOut (actionsOf moments)).1 := by
  induction moments generalizing scene with
  | nil => exact ⟨rfl, (List.append_nil _).symm⟩
  | cons moment rest ih =>
      cases moment with
      | cycles machine response =>
          obtain ⟨refusal, done⟩ := ih
            { device := scene.device, past := scene.past ++ [.cycles machine response] }
          refine ⟨refusal, done.trans ?_⟩
          simp [actions, actionsOf_append]
      | acts machine action =>
          simp only [through, Device.pass, actionsOf_cons_acts, Device.carryOut]
          cases scene.device.accept action with
          | ok device =>
              obtain ⟨refusal, done⟩ := ih
                { device := device, past := scene.past ++ [.acts machine action] }
              refine ⟨refusal, done.trans ?_⟩
              simp [actions, actionsOf_append]
          | error reason => exact ⟨rfl, (List.append_nil _).symm⟩

theorem through_reliable (past moments : List Moment) :
    through { device := .reliable, past := past } moments =
      (none, { device := .reliable, past := past ++ moments }) := by
  have granted : ∀ moment, Device.reliable.pass moment = .ok .reliable := by
    intro moment
    cases moment with
    | acts machine action => exact Device.accept_reliable action
    | cycles machine response => rfl
  induction moments generalizing past with
  | nil => simp [through]
  | cons moment rest ih => simp [through, granted, ih]

theorem through_unrefused {scene : Scene} {moments : List Moment}
    (unrefused : (scene.through moments).1 = none) :
    (scene.through moments).2.past = scene.past ++ moments := by
  induction moments generalizing scene with
  | nil => simp [through]
  | cons moment rest ih =>
      simp only [through] at unrefused ⊢
      cases passed : scene.device.pass moment with
      | ok device =>
          rw [passed] at unrefused
          simpa using ih unrefused
      | error reason =>
          rw [passed] at unrefused
          cases unrefused

end Scene

theorem Follows.on_reliable {α : Type} {part : Live α} {moments : List Moment}
    {result : Except Ending α} (follows : Follows part moments result) (past : List Moment) :
    part.on { device := .reliable, past := past } =
      (result, { device := .reliable, past := past ++ moments }) := by
  rw [follows, Scene.through_reliable]
  rfl

/-- What a part of a session comes to on a device: the device carries out the
actions of its moments, and a refusal takes the place of the result. -/
theorem Follows.on_fresh {α : Type} {part : Live α} {moments : List Moment}
    {result : Except Ending α} (follows : Follows part moments result) (device : Device) :
    let outcome := part.on (.fresh device)
    let carried := device.carryOut (actionsOf moments)
    outcome.2.actions = carried.1 ∧
      (carried.2 = none → outcome.1 = result ∧ outcome.2.past = moments) ∧
      ∀ reason, carried.2 = some reason → outcome.1 = .error (.refused reason) := by
  intro outcome carried
  obtain ⟨refusal, done⟩ := (Scene.fresh device).through_carryOut moments
  have followed : outcome = conclude result ((Scene.fresh device).through moments) :=
    follows (.fresh device)
  have scene : outcome.2 = ((Scene.fresh device).through moments).2 := by
    rw [followed]
    exact conclude_scene result _
  refine ⟨?_, ?_, ?_⟩
  · rw [scene]
    exact done
  · intro unrefused
    have through := refusal.trans unrefused
    rw [scene, followed]
    exact ⟨conclude_of_none result through, Scene.through_unrefused through⟩
  · intro reason refused
    rw [followed]
    exact conclude_of_some result (refusal.trans refused)

namespace Live

theorem on_turns_append (machine : Machine) (given later : List Turn) (scene : Scene) :
    (turns machine (given ++ later)).on scene =
      match (turns machine given).on scene with
      | (.ok next, after) => (turns next later).on after
      | (.error ending, after) => (.error ending, after) := by
  induction given generalizing machine scene with
  | nil => rfl
  | cons first rest ih =>
      simp only [List.cons_append, turns, on_bind]
      match (turn machine first).on scene with
      | (.ok next, after) => exact ih next after
      | (.error ending, after) => rfl

section Sessions

variable (name : String) (file : Except String ByteSource) (scale : UInt32)
  (random : RandomStream) (given : List Turn)

theorem on_session_append (later : List Turn) (scene : Scene) :
    (session name file scale random (given ++ later)).on scene =
      match (session name file scale random given).on scene with
      | (.ok next, after) => (turns next later).on after
      | (.error ending, after) => (.error ending, after) := by
  simp only [session, on_bind]
  match (start name file scale (.powerOn random)).on scene with
  | (.ok machine, after) => exact on_turns_append machine given later after
  | (.error ending, after) => rfl

/-- No turn is taken any more after a session has ended. -/
theorem on_session_ended {scene : Scene} {ending : Ending}
    (ended : ((session name file scale random given).on scene).1 = .error ending)
    (later : List Turn) :
    (session name file scale random (given ++ later)).on scene =
      (session name file scale random given).on scene := by
  rw [on_session_append]
  match outcome : (session name file scale random given).on scene with
  | (.ok machine, after) =>
      rw [outcome] at ended
      cases ended
  | (.error other, after) => rfl

/-- A session of which the window is closed after the given turns is the played
session, carried out on the device. -/
theorem on_session_closing (device : Device) :
    let outcome :=
      (session name file scale random (given ++ [closingTurn])).on (.fresh device)
    let performed := (Session.play name file scale random given).on device
    outcome.1 = .error performed.ending ∧ outcome.2.actions = performed.actions := by
  intro outcome performed
  obtain ⟨done, unrefused, refused⟩ :=
    (session_closing_follows name file scale random given).on_fresh device
  simp only [Session.actionsOf_playTimeline] at done unrefused refused
  simp only [performed, Session.on, Performance.ofActions]
  rcases carried : device.carryOut (Session.play name file scale random given).actions with
    ⟨carriedOut, _ | reason⟩
  · rw [carried] at done unrefused
    exact ⟨(unrefused rfl).1, done⟩
  · rw [carried] at done refused
    exact ⟨refused reason rfl, done⟩

end Sessions

end Live

end Host

end Chip8Vm
