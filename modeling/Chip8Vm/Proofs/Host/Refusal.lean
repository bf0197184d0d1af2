import Chip8Vm.Proofs.Host.Live
import Chip8Vm.Proofs.Host.Window

/-!
# Sessions on a failing device

A device that refuses a call cuts a session short and changes nothing before
that.  What was done is what the session does on a reliable device, up to the
refused call; nothing is logged or presented after it.  Every picture takes one
texture, one writing of it and one copy, in this order and before the picture is
presented, so a device that refuses one of these after a number of them leaves
as many pictures.
-/

namespace Chip8Vm

namespace Host

namespace Action

/-- How often a kind of call is asked for. -/
def calls (call : Call) (actions : List Action) : Nat :=
  actions.countP fun action => action.call? = some call

theorem calls_cons_of_eq {call : Call} {action : Action} (asks : action.call? = some call)
    (rest : List Action) : calls call (action :: rest) = calls call rest + 1 := by
  simp [calls, asks]

theorem calls_cons_of_ne {call : Call} {action : Action} (other : action.call? ≠ some call)
    (rest : List Action) : calls call (action :: rest) = calls call rest := by
  simp [calls, other]

end Action

/-! ## What a failing device carries out -/

namespace Device

variable {call : Call} {action : Action} {granted : Nat} {reason : String}

theorem accept_failing_other (other : action.call? ≠ some call) :
    (failing call granted reason).accept action = .ok (failing call granted reason) := by
  unfold accept
  cases asked : action.call? with
  | none => rfl
  | some kind =>
      have different : kind ≠ call := by
        intro same
        exact other (by rw [asked, same])
      simp [answer, different]

theorem accept_failing_granted (asks : action.call? = some call) :
    (failing call (granted + 1) reason).accept action =
      .ok (failing call granted reason) := by
  simp [accept, answer, asks]

theorem accept_failing_refused (asks : action.call? = some call) :
    (failing call 0 reason).accept action = .error reason := by
  simp [accept, answer, asks]

/-- The actions before the first call too many, with that call and why it was
refused; all of them if there is none. -/
theorem carryOut_failing (call : Call) (granted : Nat) (reason : String)
    (actions : List Action) :
    let carried := (failing call granted reason).carryOut actions
    (Action.calls call actions ≤ granted → carried = (actions, none)) ∧
      (granted < Action.calls call actions →
        carried.2 = some reason ∧ Action.calls call carried.1 = granted ∧
          ∃ refused rest, refused.call? = some call ∧
            actions = carried.1 ++ refused :: rest) := by
  induction actions generalizing granted with
  | nil => exact ⟨fun _ => rfl, nofun⟩
  | cons action rest ih =>
      by_cases asks : action.call? = some call
      · rw [Action.calls_cons_of_eq asks]
        cases granted with
        | zero =>
            have nothing : (failing call 0 reason).carryOut (action :: rest) =
                ([], some reason) := by
              simp [carryOut, accept_failing_refused asks]
            rw [nothing]
            exact ⟨by omega, fun _ => ⟨rfl, rfl, action, rest, asks, rfl⟩⟩
        | succ granted =>
            obtain ⟨whole, cut⟩ := ih granted
            simp only [carryOut, accept_failing_granted asks]
            constructor
            · intro enough
              rw [whole (by omega)]
            · intro short
              obtain ⟨refusal, count, refused, later, kind, split⟩ := cut (by omega)
              refine ⟨refusal, ?_, refused, later, kind, congrArg (action :: ·) split⟩
              rw [Action.calls_cons_of_eq asks, count]
      · rw [Action.calls_cons_of_ne asks]
        obtain ⟨whole, cut⟩ := ih granted
        simp only [carryOut, accept_failing_other asks]
        constructor
        · intro enough
          rw [whole enough]
        · intro short
          obtain ⟨refusal, count, refused, later, kind, split⟩ := cut short
          refine ⟨refusal, ?_, refused, later, kind, congrArg (action :: ·) split⟩
          rw [Action.calls_cons_of_ne asks, count]

end Device

/-! ## Pictures of a session that is cut short -/

/-- The calls that every picture takes. -/
def Call.isDrawing : Call → Bool
  | .createTexture | .writeTexture | .copyTexture => true
  | _ => false

/-- The actions that have nothing to do with a picture. -/
def Action.isAside : Action → Bool
  | .createTexture _ _ | .writeTexture _ | .copyTexture | .present => false
  | _ => true

/-- Pictures are shown whole, with other actions only between them. -/
inductive Framed : List Action → Prop where
  | nil : Framed []
  | aside {action : Action} {rest : List Action} (aside : action.isAside = true) :
      Framed rest → Framed (action :: rest)
  | picture (screen : Screen) {rest : List Action} :
      Framed rest → Framed (showing screen ++ rest)

theorem Action.call?_of_isAside {action : Action} (aside : action.isAside = true)
    {call : Call} (drawing : call.isDrawing = true) : action.call? ≠ some call := by
  intro asks
  cases action
  case createTexture | writeTexture | copyTexture | present => cases aside
  case poll | log => cases asks
  all_goals
    cases asks
    cases drawing

theorem Action.pictures_cons_aside {action : Action} (aside : action.isAside = true)
    (written : Picture) (rest : List Action) :
    Action.pictures written (action :: rest) = Action.pictures written rest := by
  cases action
  case writeTexture | present => cases aside
  all_goals rfl

/-- A picture asks for each kind of call that it takes once. -/
theorem Action.calls_showing {call : Call} (drawing : call.isDrawing = true) (screen : Screen)
    (rest : List Action) :
    Action.calls call (showing screen ++ rest) = Action.calls call rest + 1 := by
  cases call
  case createTexture | writeTexture | copyTexture =>
      simp [Action.calls, showing, Action.call?]
  all_goals cases drawing

section Showing

variable {call : Call} (drawing : call.isDrawing = true) (reason : String) (screen : Screen)
  (rest : List Action)

include drawing

theorem pictures_refused (written : Picture) :
    Action.pictures written
      ((Device.failing call 0 reason).carryOut (showing screen ++ rest)).1 = [] := by
  cases call
  case createTexture | writeTexture | copyTexture =>
      simp [Device.carryOut, Device.accept, Device.answer, showing, Action.call?,
        Action.pictures]
  all_goals cases drawing

theorem carryOut_granted (granted : Nat) :
    ((Device.failing call (granted + 1) reason).carryOut (showing screen ++ rest)).1 =
      showing screen ++ ((Device.failing call granted reason).carryOut rest).1 := by
  cases call
  case createTexture | writeTexture | copyTexture =>
      simp [Device.carryOut, Device.accept, Device.answer, showing, Action.call?]
  all_goals cases drawing

end Showing

namespace Framed

theorem append {earlier later : List Action} (first : Framed earlier) (second : Framed later) :
    Framed (earlier ++ later) := by
  induction first with
  | nil => exact second
  | aside aside framed ih => exact .aside aside ih
  | picture screen framed ih =>
      rw [List.append_assoc]
      exact .picture screen ih

theorem of_aside {actions : List Action}
    (aside : ∀ action, action ∈ actions → action.isAside = true) : Framed actions := by
  induction actions with
  | nil => exact .nil
  | cons action rest ih =>
      apply Framed.aside (aside action List.mem_cons_self)
      apply ih
      intro other member
      exact aside other (List.mem_cons_of_mem action member)

theorem logs (records : List LogRecord) : Framed (records.map Action.log) := by
  apply of_aside
  intro action member
  obtain ⟨record, -, rfl⟩ := List.mem_map.mp member
  rfl

theorem showing (screen : Screen) : Framed (Host.showing screen) :=
  .picture screen .nil

variable {actions : List Action} {call : Call}

/-- Each kind of call that a picture takes is asked for once for every picture. -/
theorem calls_eq (framed : Framed actions) (drawing : call.isDrawing = true)
    (written : Picture) :
    Action.calls call actions = (Action.pictures written actions).length := by
  induction framed generalizing written with
  | nil => rfl
  | aside aside framed ih =>
      rw [Action.calls_cons_of_ne (Action.call?_of_isAside aside drawing),
        Action.pictures_cons_aside aside]
      exact ih written
  | picture screen framed ih =>
      rw [Action.calls_showing drawing, ih (.ofScreen screen)]
      rfl

theorem pictures_cut (framed : Framed actions) (drawing : call.isDrawing = true)
    (granted : Nat) (reason : String) (written : Picture) :
    Action.pictures written ((Device.failing call granted reason).carryOut actions).1 =
      (Action.pictures written actions).take granted := by
  induction framed generalizing granted written with
  | nil => simp [Device.carryOut, Action.pictures]
  | aside aside framed ih =>
      have other := Action.call?_of_isAside aside drawing
      simp only [Device.carryOut, Device.accept_failing_other other,
        Action.pictures_cons_aside aside]
      exact ih granted written
  | picture screen framed ih =>
      cases granted with
      | zero =>
          rw [List.take_zero]
          exact pictures_refused drawing reason screen _ written
      | succ granted =>
          rw [carryOut_granted drawing]
          exact congrArg (Picture.ofScreen screen :: ·) (ih granted (.ofScreen screen))

end Framed

/-! ## Sessions show their pictures whole -/

theorem prepare_framed (name : String) (file : Except String ByteSource) (scale : UInt32)
    (machine : Machine) : Framed (prepare name file scale machine).actions := by
  cases file with
  | error reason => exact .nil
  | ok source =>
      have noted := Framed.logs (machine.loadRom source).log
      have opened : Framed
          ([.log (.romLoaded name)] ++ opening scale ++ [.openEvents]) := by
        apply Framed.of_aside
        simp [opening, Action.isAside]
      simp only [prepare]
      cases (machine.loadRom source).response with
      | failed failure => exact noted
      | done | executed _ | awaitingKey | faulted _ =>
          have shown := Framed.showing (machine.loadRom source).machine.screen
          simpa only [List.append_assoc] using noted.append (opened.append shown)

theorem refreshing_framed (machine : Machine) : Framed (refreshing machine) := by
  unfold refreshing
  split
  · exact .showing machine.screen
  · exact .nil

theorem Taken.framed {machine : Machine} {turn : Turn} {stretch : Stretch}
    {moments : List Moment} (taken : Taken machine turn stretch moments) :
    Framed (actionsOf moments) := by
  have polled : Framed (refreshing machine ++ [.poll]) :=
    (refreshing_framed machine).append (.aside rfl .nil)
  rw [taken.actions]
  cases taken with
  | closed closes => exact polled.append (.aside rfl .nil)
  | advanced unclosed =>
      obtain ⟨records, logs⟩ := advance_logs (handled machine turn) turn.ticks
      apply polled.append
      rw [logs]
      exact .logs records

theorem turns_framed (machine : Machine) (given : List Turn) :
    ∃ moments result, Follows (Live.turns machine given) moments result ∧
      Framed (actionsOf moments) := by
  induction given generalizing machine with
  | nil => exact ⟨[], .ok machine, .pure machine, .nil⟩
  | cons first rest ih =>
      have taken := turn_follows machine first
      have framed := (takeTurn_taken machine first).framed
      cases ended : (takeTurn machine first).result with
      | error ending =>
          rw [ended] at taken
          exact ⟨_, _, taken.stop, framed⟩
      | ok next =>
          rw [ended] at taken
          obtain ⟨moments, result, later, laterFramed⟩ := ih next
          refine ⟨_, _, taken.bind later, ?_⟩
          rw [actionsOf_append]
          exact framed.append laterFramed

theorem session_framed (name : String) (file : Except String ByteSource) (scale : UInt32)
    (random : RandomStream) (given : List Turn) :
    ∃ moments result, Follows (Live.session name file scale random given) moments result ∧
      Framed (actionsOf moments) := by
  have started := start_follows name file scale (.powerOn random)
  have framed := prepare_framed name file scale (.powerOn random)
  cases ended : (prepare name file scale (.powerOn random)).result with
  | error ending =>
      rw [ended] at started
      refine ⟨_, _, started.stop, ?_⟩
      rw [actionsOf_acts]
      exact framed
  | ok machine =>
      rw [ended] at started
      obtain ⟨moments, result, later, laterFramed⟩ := turns_framed machine given
      refine ⟨_, _, started.bind later, ?_⟩
      rw [actionsOf_append, actionsOf_acts]
      exact framed.append laterFramed

/-! ## A session on a failing device -/

/-- The lines of a log that are not mere traces. -/
def notableLines (actions : List Action) : List String :=
  (LogRecord.notable (Action.records actions)).map LogRecord.line

theorem notableLines_append (earlier later : List Action) :
    notableLines (earlier ++ later) = notableLines earlier ++ notableLines later := by
  simp [notableLines, LogRecord.notable, Action.records]

theorem carryOut_initial (device : Device) (actions : List Action) :
    (device.carryOut actions).1 <+: actions := by
  induction actions generalizing device with
  | nil => exact List.prefix_refl []
  | cons action rest ih =>
      simp only [Device.carryOut]
      cases device.accept action with
      | ok next => exact (List.prefix_cons_inj action).mpr (ih next)
      | error reason => exact List.nil_prefix

/-- A refused call only cuts a session short.  On a device that grants a number of
calls of one kind and refuses the next, the pictures and the notable lines of the log
are those of a reliable device up to some place.  A session that does not ask for a
call too many comes to the same; any other ends with the refusal, having done exactly
what comes before that call, and more turns add nothing to it.  Refused a texture, its
writing or its copy, it has shown as many pictures as were granted.  The last part ties
a session that is closed after the given turns to the one that is played. -/
theorem refusal_cuts_session_short (name : String) (file : Except String ByteSource)
    (scale : UInt32) (random : RandomStream) (given : List Turn) (call : Call)
    (granted : Nat) (reason : String) :
    let session := Live.session name file scale random
    let failing := Scene.fresh (.failing call granted reason)
    let full := (session given).on (.fresh .reliable)
    let cut := (session given).on failing
    let pictures := fun scene : Scene => Action.pictures [] scene.actions
    let asked := Action.calls call full.2.actions
    (pictures cut.2 <+: pictures full.2 ∧
        notableLines cut.2.actions <+: notableLines full.2.actions) ∧
      (asked ≤ granted → cut.1 = full.1 ∧ cut.2.past = full.2.past) ∧
      (granted < asked →
        cut.1 = .error (.refused reason) ∧ Action.calls call cut.2.actions = granted ∧
          (∃ refused rest, refused.call? = some call ∧
            full.2.actions = cut.2.actions ++ refused :: rest) ∧
          ∀ later, (session (given ++ later)).on failing = cut) ∧
      (call = .createTexture ∨ call = .writeTexture ∨ call = .copyTexture →
        granted < asked →
        pictures cut.2 = (pictures full.2).take granted ∧
          (pictures cut.2).length = granted) ∧
      ∀ device,
        let outcome := (session (given ++ [closingTurn])).on (.fresh device)
        let performed := (Session.play name file scale random given).on device
        outcome.1 = .error performed.ending ∧ outcome.2.actions = performed.actions := by
  intro session failing full cut pictures asked
  obtain ⟨moments, result, follows, framed⟩ := session_framed name file scale random given
  have unfailed : full = (result, { device := .reliable, past := moments }) :=
    follows.on_reliable []
  have fullActions : full.2.actions = actionsOf moments := by
    rw [unfailed]
    rfl
  have count : asked = Action.calls call (actionsOf moments) := by
    simp only [asked, fullActions]
  obtain ⟨done, unrefused, refused⟩ := follows.on_fresh (.failing call granted reason)
  have cutActions : cut.2.actions = _ := done
  obtain ⟨whole, short⟩ :=
    Device.carryOut_failing call granted reason (actionsOf moments)
  obtain ⟨rest, split⟩ :=
    carryOut_initial (.failing call granted reason) (actionsOf moments)
  rw [← cutActions, ← fullActions] at split
  refine ⟨⟨?_, ?_⟩, ?_, ?_, ?_, Live.on_session_closing name file scale random given⟩
  · simp only [pictures]
    rw [← split, Action.pictures_append]
    exact List.prefix_append _ _
  · rw [← split, notableLines_append]
    exact List.prefix_append _ _
  · intro enough
    rw [count] at enough
    obtain ⟨same, past⟩ := unrefused (by rw [whole enough])
    rw [unfailed]
    exact ⟨same, past⟩
  · intro tooMany
    rw [count] at tooMany
    obtain ⟨refusal, before, action, later, kind, place⟩ := short tooMany
    rw [cutActions, fullActions]
    exact ⟨refused reason refusal, before, ⟨action, later, kind, place⟩,
      Live.on_session_ended name file scale random given (refused reason refusal)⟩
  · intro drawn tooMany
    have drawing : call.isDrawing = true := by
      rcases drawn with rfl | rfl | rfl <;> rfl
    have shown : pictures cut.2 = (pictures full.2).take granted := by
      simp only [pictures, cutActions, fullActions]
      exact framed.pictures_cut drawing granted reason []
    have enough : granted < (pictures full.2).length := by
      simp only [pictures, fullActions]
      rw [← framed.calls_eq drawing, ← count]
      exact tooMany
    refine ⟨shown, ?_⟩
    rw [shown, List.length_take, Nat.min_eq_left (Nat.le_of_lt enough)]

end Host

end Chip8Vm
