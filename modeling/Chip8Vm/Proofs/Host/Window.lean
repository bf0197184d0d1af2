import Chip8Vm.Proofs.Host.Timeline
import Chip8Vm.Proofs.Machine.Viewer

/-!
# The window shows the screen

A session presents the screen once before its first turn, and in every turn
whose machine has its redraw flag up.  The flag owes the window at most one
picture, and the debt is paid before events are looked at, so at every poll and
at the end the window shows the screen, and there are as many pictures as the
first one and the cycles that redrew the screen.
-/

namespace Chip8Vm

namespace Host

/-! ## Pictures -/

namespace Action

/-- What a texture holds after the actions, `written` before them. -/
def texture (written : Picture) : List Action → Picture
  | [] => written
  | .writeTexture picture :: rest => texture picture rest
  | _ :: rest => texture written rest

/-- The actions that neither write a texture nor present one. -/
def isStill : Action → Bool
  | .writeTexture _ | .present => false
  | _ => true

theorem pictures_append (written : Picture) (earlier later : List Action) :
    pictures written (earlier ++ later) =
      pictures written earlier ++ pictures (texture written earlier) later := by
  induction earlier generalizing written with
  | nil => rfl
  | cons action rest ih => cases action <;> simp [pictures, texture, ih]

theorem pictures_of_still {actions : List Action}
    (still : ∀ action, action ∈ actions → action.isStill = true) (written : Picture) :
    pictures written actions = [] := by
  induction actions with
  | nil => rfl
  | cons action rest ih =>
      have later := ih fun other member => still other (List.mem_cons_of_mem action member)
      have now := still action List.mem_cons_self
      cases action
      case writeTexture | present => cases now
      all_goals exact later

theorem pictures_append_still (written : Picture) (earlier : List Action)
    {later : List Action} (still : ∀ action, action ∈ later → action.isStill = true) :
    pictures written (earlier ++ later) = pictures written earlier := by
  rw [pictures_append, pictures_of_still still, List.append_nil]

theorem pictures_append_showing (written : Picture) (earlier : List Action)
    (screen : Screen) :
    pictures written (earlier ++ showing screen) =
      pictures written earlier ++ [.ofScreen screen] := by
  rw [pictures_append]
  rfl

end Action

theorem Picture.ofScreen_blank : Picture.ofScreen .blank = List.replicate 6144 0 := by
  have dark : Picture.pixel false = List.replicate 3 0 := rfl
  rw [Picture.ofScreen, Screen.blank, Vector.toList_replicate, List.flatMap_replicate,
    Vector.toList_replicate, List.flatMap_replicate, dark,
    List.flatten_replicate_replicate, List.flatten_replicate_replicate]

/-! ## The debt of the redraw flag -/

/-- The picture last presented, if there was one. -/
def lastShown (done : List Action) : Option Picture :=
  (Action.pictures [] done).getLast?

/-- The pictures presented and the one that the redraw flag owes. -/
def dueCount (done : List Action) (machine : Machine) : Nat :=
  (Action.pictures [] done).length + machine.redraw.toNat

/-- With its flag down, the machine has the screen that was last presented. -/
def UpToDate (done : List Action) (machine : Machine) : Prop :=
  machine.redraw = false → lastShown done = some (.ofScreen machine.screen)

theorem lastShown_refreshing {done : List Action} {machine : Machine}
    (current : UpToDate done machine) :
    lastShown (done ++ refreshing machine) = some (.ofScreen machine.screen) := by
  unfold refreshing
  cases flag : machine.redraw with
  | true => simp [lastShown, Action.pictures_append_showing]
  | false => simpa using current flag

theorem length_pictures_refreshing (done : List Action) (machine : Machine) :
    (Action.pictures [] (done ++ refreshing machine)).length = dueCount done machine := by
  unfold dueCount refreshing
  cases machine.redraw with
  | true => simp [Action.pictures_append_showing]
  | false => simp

/-! ## One turn -/

/-- The response to a cycle that redrew the screen. -/
def redraws : Response → Bool
  | .executed instruction => instruction.redraws
  | _ => false

def Moment.redraws : Moment → Bool
  | .acts _ _ => false
  | .cycles _ response => Host.redraws response

theorem cycle_redraw {machine : Machine} (lowered : machine.redraw = false) :
    machine.cycle.machine.redraw = redraws machine.cycle.response ∧
      (machine.cycle.machine.redraw = false →
        machine.cycle.machine.screen = machine.screen) := by
  rcases machine.cycle_outcome.screen with ⟨⟨instruction, executed, kind⟩, raised⟩ |
    ⟨quiet, screen, flag⟩
  · rw [executed, raised]
    exact ⟨kind.symm, nofun⟩
  · have unchanged : redraws machine.cycle.response = false := by
      cases response : machine.cycle.response with
      | executed instruction =>
          apply Bool.eq_false_iff.mpr
          intro kind
          exact quiet ⟨instruction, response, kind⟩
      | done | awaitingKey | failed _ | faulted _ => rfl
    rw [flag, lowered, unchanged]
    exact ⟨rfl, fun _ => screen⟩

theorem handled_screen (machine : Machine) (turn : Turn) :
    (handled machine turn).screen = machine.screen ∧ (handled machine turn).redraw = false := by
  obtain ⟨keypad, next⟩ := handled_keypad machine turn
  rw [next]
  exact ⟨rfl, rfl⟩

theorem isStill_of_logs {actions : List Action} {records : List LogRecord}
    (logs : actions = records.map Action.log) :
    ∀ action, action ∈ actions → action.isStill = true := by
  intro action member
  rw [logs] at member
  obtain ⟨record, -, rfl⟩ := List.mem_map.mp member
  rfl

theorem countP_acts (machine : Machine) (actions : List Action) :
    (actions.map (Moment.acts machine)).countP Moment.redraws = 0 := by
  apply List.countP_eq_zero.mpr
  intro moment member
  obtain ⟨action, -, rfl⟩ := List.mem_map.mp member
  simp [Moment.redraws]

theorem countP_cycle (before after : Machine) (response : Response)
    (actions : List Action) :
    (.cycles before response :: actions.map (Moment.acts after)).countP Moment.redraws =
      (redraws response).toNat := by
  rw [List.countP_cons, countP_acts]
  by_cases redrawn : redraws response = true
  · simp [Moment.redraws, redrawn]
  · simp [Moment.redraws, redrawn]

theorem countP_momentsToPoll (machine : Machine) :
    (momentsToPoll machine).countP Moment.redraws = 0 := by
  rw [momentsToPoll, List.countP_append, countP_acts]
  rfl

theorem advance_redraw {machine : Machine} (lowered : machine.redraw = false)
    (ticks : Nat) :
    (advance machine ticks).machine.redraw = redraws machine.cycle.response ∧
      ((advance machine ticks).machine.redraw = false →
        (advance machine ticks).machine.screen = machine.screen) := by
  obtain ⟨timers, next⟩ := advance_timers machine ticks
  rw [next]
  exact cycle_redraw lowered

section

variable {machine : Machine} {turn : Turn} {stretch : Stretch} {moments : List Moment}
  (taken : Taken machine turn stretch moments)

include taken

/-- Of all that a turn does only the refreshing concerns the window. -/
theorem Taken.pictures (done : List Action) :
    Action.pictures [] (done ++ stretch.actions) =
      Action.pictures [] (done ++ refreshing machine) := by
  cases taken with
  | closed closes =>
      rw [List.append_assoc, ← List.append_assoc]
      exact Action.pictures_append_still _ _ (by simp [Action.isStill])
  | advanced unclosed =>
      obtain ⟨records, logs⟩ := advance_logs (handled machine turn) turn.ticks
      rw [List.append_assoc, ← List.append_assoc]
      apply Action.pictures_append_still
      intro action member
      rcases List.mem_cons.mp member with rfl | logged
      · rfl
      · exact isStill_of_logs logs action logged

/-- After a turn the flag is up exactly if its cycle redrew the screen, and a
flag that is down has seen no change. -/
theorem Taken.redraw :
    stretch.machine.redraw.toNat = moments.countP Moment.redraws ∧
      (stretch.machine.redraw = false → stretch.machine.screen = machine.screen) := by
  obtain ⟨screen, lowered⟩ := handled_screen machine turn
  cases taken with
  | closed closes =>
      rw [List.countP_append, countP_momentsToPoll, lowered]
      exact ⟨rfl, fun _ => screen⟩
  | advanced unclosed =>
      obtain ⟨flag, kept⟩ := advance_redraw lowered turn.ticks
      rw [List.countP_append, countP_momentsToPoll, countP_cycle, Nat.zero_add, ← flag]
      exact ⟨rfl, fun down => (kept down).trans screen⟩

theorem Taken.ended_lowered {ending : Ending} (ended : stretch.ending = some ending) :
    stretch.machine.redraw = false := by
  obtain ⟨-, lowered⟩ := handled_screen machine turn
  cases taken with
  | closed closes => exact lowered
  | advanced unclosed =>
      have flag := (advance_redraw lowered turn.ticks).1
      rcases advance_cases (handled machine turn) turn.ticks with
        ⟨-, ongoing, -⟩ | ⟨failure, -, failed, -, -⟩ | ⟨fault, faulted, -, -⟩
      · cases ongoing.symm.trans ended
      · rw [failed] at flag
        exact flag
      · rw [faulted] at flag
        exact flag

theorem Taken.upToDate {done : List Action} (current : UpToDate done machine) :
    UpToDate (done ++ stretch.actions) stretch.machine := by
  intro lowered
  rw [lastShown, taken.pictures, taken.redraw.2 lowered]
  exact lastShown_refreshing current

theorem Taken.dueCount (done : List Action) :
    Host.dueCount (done ++ stretch.actions) stretch.machine =
      Host.dueCount done machine + moments.countP Moment.redraws := by
  rw [Host.dueCount, taken.pictures, length_pictures_refreshing, taken.redraw.1]

end

/-! ## Whole sessions -/

namespace Session

theorem pictures_closing (done : List Action) (machine : Machine) :
    Action.pictures [] (done ++ (ofTurns machine []).actions) =
      Action.pictures [] (done ++ refreshing machine) := by
  rw [ofTurns, ← List.append_assoc]
  exact Action.pictures_append_still _ _ (by simp [Action.isStill])

theorem ofTurns_shown {done : List Action} {machine : Machine}
    (current : UpToDate done machine) (turns : List Turn) :
    lastShown (done ++ (ofTurns machine turns).actions) =
      some (.ofScreen (ofTurns machine turns).machine.screen) := by
  induction turns generalizing done machine with
  | nil =>
      unfold lastShown
      rw [pictures_closing]
      exact lastShown_refreshing current
  | cons turn rest ih =>
      have taken := takeTurn_taken machine turn
      simp only [ofTurns]
      cases ended : (takeTurn machine turn).ending with
      | some ending => exact taken.upToDate current (taken.ended_lowered ended)
      | none =>
          rw [precededBy, ← List.append_assoc]
          exact ih (taken.upToDate current)

theorem length_pictures_ofTurns (done : List Action) (machine : Machine)
    (turns : List Turn) :
    (Action.pictures [] (done ++ (ofTurns machine turns).actions)).length =
      dueCount done machine + (timeline machine turns).countP Moment.redraws := by
  induction turns generalizing done machine with
  | nil =>
      rw [pictures_closing, length_pictures_refreshing, timeline, List.countP_append,
        countP_momentsToPoll]
      rfl
  | cons turn rest ih =>
      have taken := takeTurn_taken machine turn
      simp only [ofTurns, timeline, List.countP_append]
      rw [← Nat.add_assoc, ← taken.dueCount]
      cases ended : (takeTurn machine turn).ending with
      | some ending => simp [dueCount, taken.ended_lowered ended]
      | none =>
          rw [precededBy, ← List.append_assoc]
          exact ih _ _

end Session

/-! ## Polls -/

/-- At every poll of a stretch of a timeline the picture last presented is that
of the screen, `done` being what was done before the stretch. -/
def PollsShown (done : List Action) (moments : List Moment) : Prop :=
  ∀ earlier machine later, moments = earlier ++ .acts machine .poll :: later →
    lastShown (done ++ actionsOf earlier) = some (.ofScreen machine.screen)

theorem PollsShown.append {done : List Action} {first second : List Moment}
    (before : PollsShown done first)
    (after : PollsShown (done ++ actionsOf first) second) :
    PollsShown done (first ++ second) := by
  intro earlier machine later split
  rcases List.append_eq_append_iff.mp split with ⟨rest, rfl, inside⟩ | ⟨rest, whole, inside⟩
  · rw [actionsOf_append, ← List.append_assoc]
    exact after rest machine later inside
  · cases rest with
    | nil =>
        rw [List.append_nil] at whole
        subst whole
        simpa using after [] machine later inside.symm
    | cons moment rest =>
        cases inside
        exact before earlier machine rest whole

theorem pollsShown_of_pollless (done : List Action) {moments : List Moment}
    (pollless : ∀ machine, .acts machine .poll ∉ moments) : PollsShown done moments := by
  intro earlier machine later split
  apply absurd _ (pollless machine)
  rw [split]
  exact List.mem_append_right earlier List.mem_cons_self

theorem pollsShown_poll {done : List Action} {machine : Machine}
    (shown : lastShown done = some (.ofScreen machine.screen)) :
    PollsShown done [.acts machine .poll] := by
  intro earlier polled later split
  cases earlier with
  | nil =>
      cases split
      simpa using shown
  | cons moment rest => simp at split

theorem pollless_refreshing (before machine : Machine) :
    .acts machine .poll ∉ (refreshing before).map (Moment.acts before) := by
  unfold refreshing
  split
  · simp [showing]
  · simp

theorem pollless_advance (before after machine : Machine) (response : Response)
    (ticks : Nat) :
    .acts machine .poll ∉
      .cycles before response :: (advance before ticks).actions.map (Moment.acts after) := by
  obtain ⟨records, logs⟩ := advance_logs before ticks
  simp [logs]

theorem momentsToPoll_shown {done : List Action} {machine : Machine}
    (current : UpToDate done machine) : PollsShown done (momentsToPoll machine) := by
  apply PollsShown.append
  · exact pollsShown_of_pollless done (pollless_refreshing machine)
  · rw [actionsOf_acts]
    exact pollsShown_poll (lastShown_refreshing current)

theorem Taken.shown {machine : Machine} {turn : Turn} {stretch : Stretch}
    {moments : List Moment} (taken : Taken machine turn stretch moments)
    {done : List Action} (current : UpToDate done machine) : PollsShown done moments := by
  cases taken with
  | closed closes =>
      apply (momentsToPoll_shown current).append
      exact pollsShown_of_pollless _ (by simp)
  | advanced unclosed =>
      apply (momentsToPoll_shown current).append
      apply pollsShown_of_pollless
      intro polled
      exact pollless_advance _ _ polled _ turn.ticks

theorem Session.timeline_shown {done : List Action} {machine : Machine}
    (current : UpToDate done machine) (turns : List Turn) :
    PollsShown done (Session.timeline machine turns) := by
  induction turns generalizing done machine with
  | nil =>
      apply (momentsToPoll_shown current).append
      exact pollsShown_of_pollless _ (by simp)
  | cons turn rest ih =>
      have taken := takeTurn_taken machine turn
      apply (taken.shown current).append
      cases (takeTurn machine turn).ending with
      | some ending => exact pollsShown_of_pollless _ (by simp)
      | none =>
          rw [taken.actions]
          exact ih (taken.upToDate current)

/-! ## The window of a session -/

theorem pictures_startActions (name : String) (scale : UInt32) (rom : List UInt8) :
    Action.pictures [] (startActions name scale rom) = [.ofScreen .blank] := by
  rw [startActions, Action.pictures_append_showing, Action.pictures_of_still, List.nil_append]
  simp [opening, Action.isStill]

theorem upToDate_start (name : String) (scale : UInt32) (rom : List UInt8)
    (random : RandomStream) : UpToDate (startActions name scale rom) (startMachine random rom) := by
  intro lowered
  rw [lastShown, pictures_startActions]
  rfl

theorem pollless_start (name : String) (scale : UInt32) (rom : List UInt8)
    (before machine : Machine) :
    .acts machine .poll ∉ (startActions name scale rom).map (Moment.acts before) := by
  simp [startActions, opening, showing]

namespace Session

/-- No frame is lost and none is stale.  When the host refuses no call, a session
with a program that fits ends by a closed window or a fatal failure.  At every
poll and at the end the picture last presented is that of the screen, the first
picture is dark, and there is one more picture than cycles that executed an
instruction that changes the screen. -/
theorem window_shows_every_redraw (name : String) (scale : UInt32) (random : RandomStream)
    {source : ByteSource} {rom : List UInt8} (whole : source.content = .ok rom)
    (fits : rom.length ≤ 3584) (turns : List Turn) :
    let session := play name (.ok source) scale random turns
    let moments := playTimeline name (.ok source) scale random turns
    let performed := session.on .reliable
    let pictures := Action.pictures [] performed.actions
    (performed.actions = actionsOf moments ∧ performed.ending = session.ending ∧
        session.ending.IsRegular) ∧
      (∀ earlier machine later, moments = earlier ++ .acts machine .poll :: later →
        (Action.pictures [] (actionsOf earlier)).getLast? =
          some (.ofScreen machine.screen)) ∧
      pictures.getLast? = some (.ofScreen session.machine.screen) ∧
      pictures.head? = some (List.replicate 6144 0) ∧
      pictures.length = 1 + moments.countP Moment.redraws := by
  intro session moments performed pictures
  let start := startMachine random rom
  let opened := startActions name scale rom
  have played : session = (ofTurns start turns).precededBy opened :=
    play_of_content whole fits name scale random turns
  have lined : moments = opened.map (.acts start) ++ timeline start turns :=
    playTimeline_of_content whole fits name scale random turns
  have carried : pictures = Action.pictures [] (opened ++ (ofTurns start turns).actions) := by
    simp only [pictures, performed, on_reliable, played, precededBy]
  have first : Action.pictures [] opened = [.ofScreen .blank] :=
    pictures_startActions name scale rom
  have current : UpToDate opened start := upToDate_start name scale rom random
  refine ⟨⟨?_, ?_, ?_⟩, ?_, ?_, ?_, ?_⟩
  · simp only [performed, on_reliable]
    exact (actionsOf_playTimeline name (.ok source) scale random turns).symm
  · simp only [performed, on_reliable]
  · rw [played]
    exact ofTurns_ending (startMachine_bounded random rom) turns
  · have shown : PollsShown [] moments := by
      rw [lined]
      apply (pollsShown_of_pollless [] (pollless_start name scale rom start)).append
      rw [actionsOf_acts]
      exact timeline_shown current turns
    exact shown
  · rw [carried, played]
    exact ofTurns_shown current turns
  · rw [carried, Action.pictures_append, first, Picture.ofScreen_blank]
    rfl
  · rw [carried, length_pictures_ofTurns, dueCount, first, lined, List.countP_append,
      countP_acts, Nat.zero_add]
    rfl

/-- A sprite is drawn in the second turn and the third turn ends in a fatal
failure; the window has shown the sprite by then. -/
theorem window_shows_redraw_before_failure :
    let rom : List UInt8 := [0xA2, 0x00, 0xD0, 0x01, 0x00, 0xEE]
    let turns : List Turn := [⟨[], 1⟩, ⟨[.keyDown (some (.letter 'X'))], 0⟩, ⟨[], 2⟩, ⟨[], 0⟩]
    let session := play "rom" (.ok (.ofBytes rom)) 10 (.progression 0 0) turns
    let moments := playTimeline "rom" (.ok (.ofBytes rom)) 10 (.progression 0 0) turns
    (ByteSource.ofBytes rom).content = .ok rom ∧ rom.length ≤ 3584 ∧
      moments.countP Moment.redraws = 1 ∧
      (Action.pictures [] (session.on .reliable).actions).length = 2 := by
  intro rom turns session moments
  have whole : (ByteSource.ofBytes rom).content = .ok rom := rfl
  have fits : rom.length ≤ 3584 := by decide
  have redrawn : moments.countP Moment.redraws = 1 := by decide +kernel
  have shown := window_shows_every_redraw "rom" 10 (.progression 0 0) whole fits turns
  refine ⟨whole, fits, redrawn, ?_⟩
  rw [shown.2.2.2.2, redrawn]

end Session

end Host

end Chip8Vm
