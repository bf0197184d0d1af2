import Chip8Vm.Host.Picture
import Chip8Vm.Log

/-!
# What a session does to its host

A session is written down as the list of its actions.  What the host shows in
the end, its window, texture, pictures and log, is read off the actions that
were carried out.
-/

namespace Chip8Vm

namespace Host

/-- One thing that a session does. -/
inductive Action where
  | initialise
  | openVideo
  | openWindow (title : String) (width height : UInt32)
  | openCanvas
  | openEvents
  | createTexture (width height : Nat)
  | writeTexture (picture : Picture)
  | copyTexture
  | present
  | poll
  | log (record : LogRecord)

/-- The calls that the host can refuse. -/
inductive Call where
  | initialise
  | openVideo
  | openWindow
  | openCanvas
  | openEvents
  | createTexture
  | writeTexture
  | copyTexture
  deriving DecidableEq

namespace Action

/-- The call behind an action, if the host can refuse it. -/
def call? : Action → Option Call
  | .initialise => some .initialise
  | .openVideo => some .openVideo
  | .openWindow _ _ _ => some .openWindow
  | .openCanvas => some .openCanvas
  | .openEvents => some .openEvents
  | .createTexture _ _ => some .createTexture
  | .writeTexture _ => some .writeTexture
  | .copyTexture => some .copyTexture
  | .present | .poll | .log _ => none

def window? : List Action → Option (String × UInt32 × UInt32)
  | [] => none
  | .openWindow title width height :: rest => (window? rest).or (some (title, width, height))
  | _ :: rest => window? rest

def texture? : List Action → Option (Nat × Nat)
  | [] => none
  | .createTexture width height :: rest => (texture? rest).or (some (width, height))
  | _ :: rest => texture? rest

/-- The pictures that were presented, each as it was last written to a
texture; `written` is the picture written before. -/
def pictures (written : Picture) : List Action → List Picture
  | [] => []
  | .writeTexture picture :: rest => pictures picture rest
  | .present :: rest => written :: pictures written rest
  | _ :: rest => pictures written rest

def records (actions : List Action) : List LogRecord :=
  actions.filterMap fun
    | .log record => some record
    | _ => none

/-- The number of times that events were asked for. -/
def polls (actions : List Action) : Nat :=
  actions.countP fun
    | .poll => true
    | _ => false

end Action

end Host

end Chip8Vm
