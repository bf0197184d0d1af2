import Chip8Vm.Host.Action

/-!
# Devices that refuse

A device carries out actions in order.  A failing one grants a number of calls
of one kind and refuses the next; nothing after a refused call is carried out.
-/

namespace Chip8Vm

namespace Host

/-- A host that grants every call, or one that refuses a kind of call after a
number of them were granted. -/
inductive Device where
  | reliable
  | failing (call : Call) (granted : Nat) (reason : String)

namespace Device

/-- The device after it granted a call, or why it refuses. -/
def answer (device : Device) (asked : Call) : Except String Device :=
  match device with
  | .reliable => .ok .reliable
  | .failing call granted reason =>
      if asked = call then
        match granted with
        | 0 => .error reason
        | granted + 1 => .ok (.failing call granted reason)
      else
        .ok (.failing call granted reason)

/-- The device after an action, or why it refuses. -/
def accept (device : Device) (action : Action) : Except String Device :=
  match action.call? with
  | some call => device.answer call
  | none => .ok device

/-- The actions carried out, and why the one after them was refused. -/
def carryOut (device : Device) : List Action → List Action × Option String
  | [] => ([], none)
  | action :: rest =>
      match device.accept action with
      | .ok device =>
          let (done, refusal) := device.carryOut rest
          (action :: done, refusal)
      | .error reason => ([], some reason)

theorem accept_reliable (action : Action) : reliable.accept action = .ok reliable := by
  unfold accept
  cases action.call? with
  | none => rfl
  | some call => rfl

theorem carryOut_reliable (actions : List Action) :
    reliable.carryOut actions = (actions, none) := by
  induction actions with
  | nil => rfl
  | cons action rest ih => simp [carryOut, accept_reliable, ih]

end Device

end Host

end Chip8Vm
