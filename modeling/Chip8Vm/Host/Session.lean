import Chip8Vm.Host.Device
import Chip8Vm.Host.Keyboard
import Chip8Vm.Machine.Operation

/-!
# Sessions

A session loads a program, opens a window and then takes turns: it shows the
screen if it changed, handles the events of one poll, makes one cycle and lets
the timers tick as often as time has passed.  It ends when the window is
closed, when the program fails fatally or when the host refuses a call.
-/

namespace Chip8Vm

namespace Host

inductive Ending where
  | closed
  | unopened (name reason : String)
  | unloaded (name : String) (failure : Failure)
  | refused (reason : String)
  | halted (failure : Failure)
  | faulted (fault : Fault)

/-- What went wrong, the outermost first; nothing for a closed window. -/
def Ending.causes : Ending → List String
  | .closed => []
  | .unopened name reason => ["unable to open " ++ name, reason]
  | .unloaded name failure => ["unable to load " ++ name, failure.message]
  | .refused reason => [reason]
  | .halted failure => [failure.message]
  | .faulted fault => [fault.message]

/-- Why a program file that does not exist cannot be opened. -/
def noSuchFile : String := "No such file or directory (os error 2)"

/-- The events of one poll and the ticks that become due before the next. -/
structure Turn where
  events : List Event
  ticks : Nat

def showing (screen : Screen) : List Action :=
  [ .createTexture Screen.width Screen.height,
    .writeTexture (.ofScreen screen),
    .copyTexture,
    .present ]

/-- The actions that open a window of the screen's size times a scale.  The sides of
the window are 32-bit words, and their products wrap around, as in a build without
overflow checks: the width does from a scale of `2 ^ 26` on, the height from `2 ^ 27`
on.  A build with overflow checks would end before it opened such a window.  The sums
of addresses in a machine, in contrast, are checked (`Machine.addressSum`). -/
def opening (scale : UInt32) : List Action :=
  [ .initialise,
    .openVideo,
    .openWindow "Chip-8"
      (UInt32.ofNat Screen.width * scale) (UInt32.ofNat Screen.height * scale),
    .openCanvas ]

/-- The actions that show screens one after the other in a new window. -/
def slideshow (scale : UInt32) (screens : List Screen) : List Action :=
  opening scale ++ screens.flatMap showing

def defaultScale : UInt32 := 10

/-- The machine after an event that does not close the window. -/
def handle (machine : Machine) : Event → Machine
  | .keyDown (some key) =>
      match padKey? key with
      | some padKey => machine.pressKey (UInt8.ofNat padKey.val)
      | none => machine
  | .keyUp (some key) =>
      match padKey? key with
      | some padKey => machine.releaseKey (UInt8.ofNat padKey.val)
      | none => machine
  | .keyDown none | .keyUp none | .quit | .other => machine

/-- Handles events up to one that closes the window, and says whether there
was one. -/
def handleAll (machine : Machine) : List Event → Machine × Bool
  | [] => (machine, false)
  | event :: rest =>
      if event.closes then (machine, true) else handleAll (handle machine event) rest

def ticked (machine : Machine) : Nat → Machine
  | 0 => machine
  | count + 1 => ticked machine.tick count

/-- The actions that bring the window up to date. -/
def refreshing (machine : Machine) : List Action :=
  if machine.redraw then showing machine.screen else []

/-- A stretch of a session: what it did, the machine after it, and how the
session ended if it ended there. -/
structure Stretch where
  actions : List Action
  machine : Machine
  ending : Option Ending

/-- Loads a program file and opens the window on its machine.  The file was
opened, or there is a reason why it could not be. -/
def prepare (name : String) (file : Except String ByteSource) (scale : UInt32)
    (machine : Machine) : Stretch :=
  match file with
  | .error reason =>
      { actions := []
        machine := machine
        ending := some (.unopened name reason) }
  | .ok source =>
      let reply := machine.loadRom source
      let logged := reply.log.map Action.log
      match reply.response with
      | .failed failure =>
          { actions := logged
            machine := reply.machine
            ending := some (.unloaded name failure) }
      | _ =>
          { actions :=
              logged ++ [.log (.romLoaded name)] ++ opening scale ++ [.openEvents]
                ++ showing reply.machine.screen
            machine := reply.machine
            ending := none }

/-- One cycle after the events of a turn were handled, and the ticks due. -/
def advance (machine : Machine) (ticks : Nat) : Stretch :=
  let reply := machine.cycle
  let logged := reply.log.map Action.log
  match reply.response with
  | .failed failure =>
      if failure.isFatal then
        { actions := logged ++ [.log (.halting failure)]
          machine := reply.machine
          ending := some (.halted failure) }
      else
        { actions := logged
          machine := ticked reply.machine ticks
          ending := none }
  | .faulted fault =>
      { actions := logged
        machine := reply.machine
        ending := some (.faulted fault) }
  | .done | .executed _ | .awaitingKey =>
      { actions := logged
        machine := ticked reply.machine ticks
        ending := none }

def takeTurn (machine : Machine) (turn : Turn) : Stretch :=
  let shown := refreshing machine ++ [.poll]
  let (handled, closed) := handleAll machine.clearRedraw turn.events
  if closed then
    { actions := shown ++ [.log .windowClosed]
      machine := handled
      ending := some .closed }
  else
    let advanced := advance handled turn.ticks
    { advanced with actions := shown ++ advanced.actions }

/-- All that a session does when no call is refused, how it then ends, and the
machine at its end. -/
structure Session where
  actions : List Action
  ending : Ending
  machine : Machine

namespace Session

/-- The session that did something before all else. -/
def precededBy (session : Session) (actions : List Action) : Session :=
  { session with actions := actions ++ session.actions }

/-- Takes the given turns; the window is closed at the first poll after them. -/
def ofTurns (machine : Machine) : List Turn → Session
  | [] =>
      { actions := refreshing machine ++ [.poll, .log .windowClosed]
        ending := .closed
        machine := machine.clearRedraw }
  | turn :: rest =>
      let stretch := takeTurn machine turn
      match stretch.ending with
      | some ending =>
          { actions := stretch.actions
            ending := ending
            machine := stretch.machine }
      | none => (ofTurns stretch.machine rest).precededBy stretch.actions

def play (name : String) (file : Except String ByteSource) (scale : UInt32)
    (random : RandomStream) (turns : List Turn) : Session :=
  let prepared := prepare name file scale (.powerOn random)
  match prepared.ending with
  | some ending =>
      { actions := prepared.actions
        ending := ending
        machine := prepared.machine }
  | none => (ofTurns prepared.machine turns).precededBy prepared.actions

end Session

/-- What was carried out of a session on a device, and how it ended there. -/
structure Performance where
  actions : List Action
  ending : Ending

/-- Carries out actions on a device; a refused call ends the session. -/
def Performance.ofActions (device : Device) (actions : List Action) (ending : Ending) :
    Performance :=
  match device.carryOut actions with
  | (done, none) =>
      { actions := done
        ending := ending }
  | (done, some reason) =>
      { actions := done
        ending := .refused reason }

def Session.on (session : Session) (device : Device) : Performance :=
  .ofActions device session.actions session.ending

end Host

end Chip8Vm
