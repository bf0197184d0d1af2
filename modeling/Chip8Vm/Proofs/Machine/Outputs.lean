import Chip8Vm.Proofs.Machine.Congruence
import Chip8Vm.Proofs.Machine.RunPair

/-!
# Outputs that no program reads

The redraw flag and the sound timer leave the machine and never come back: no
operation looks at them except to change them.  A muted machine, with its flag
down and its sound timer at zero, therefore answers every operation as the
machine itself does, and the two machines after it differ in nothing but their
outputs.  Two runs may clear the flag at different places without any other
difference.
-/

namespace Chip8Vm

/-- The operation that lowers the redraw flag. -/
def Operation.isClear : Operation → Bool
  | .clearRedraw => true
  | _ => false

def Operation.isPlain (operation : Operation) : Bool :=
  !operation.isClear

namespace Machine

/-- The machine with its outputs put out. -/
def mute (machine : Machine) : Machine :=
  { machine with redraw := false, timers := { machine.timers with sound := 0 } }

/-- The machines are the same, their redraw flags and sound timers apart. -/
def SameButOutputs (left right : Machine) : Prop :=
  right =
    { left with
      redraw := right.redraw
      timers := { left.timers with sound := right.timers.sound } }

theorem sameButOutputs_iff {left right : Machine} :
    SameButOutputs left right ↔ left.mute = right.mute := by
  constructor
  · intro same
    rw [same]
    rfl
  · intro muted
    have restored : right =
        { right.mute with
          redraw := right.redraw
          timers := { right.mute.timers with sound := right.timers.sound } } := rfl
    rw [← muted] at restored
    exact restored

end Machine

/-- The same reply about a muted machine. -/
def Reply.mute (reply : Reply) : Reply :=
  { reply with machine := reply.machine.mute }

namespace Machine

/-! ## Instructions -/

theorem loadFromIndex_mute (machine : Machine) (x : Register) :
    (machine.mute.loadFromIndex x).mute = (machine.loadFromIndex x).mute := by
  unfold loadFromIndex advanced
  rfl

theorem execute_mute (machine : Machine) (instruction : Instruction) :
    (machine.mute.execute instruction).map mute =
      (machine.execute instruction).map mute := by
  cases instruction
  case ret => exact map_leave_congr rfl rfl fun _ _ => rfl
  case call nnn => exact map_enter_congr rfl rfl fun _ => rfl
  case waitKey x => exact map_waitKey_congr rfl fun _ _ => rfl
  case clearScreen | jump | loadIndex => rfl
  case skipIfSame x y | skipUnlessSame x y | copy x y | or x y | and x y | xor x y
      | add x y | sub x y | subFrom x y | draw x y n | addIndex x =>
      exact map_bind_congr fun _ => map_bind_congr fun _ => rfl
  case loadRegisters x =>
      exact map_bind_congr fun register =>
        congrArg Except.ok (machine.loadFromIndex_mute register)
  -- The remaining instructions name one register or form one sum.
  all_goals exact map_bind_congr fun _ => rfl

/-! ## Operations -/

theorem cycle_mute (machine : Machine) : machine.mute.cycle.mute = machine.cycle.mute :=
  @cycle_congr machine.mute machine mute rfl rfl rfl (fun _ => rfl)
    (map_bind_congr fun _ => rfl) fun instruction _ => machine.execute_mute instruction

theorem mute_step (machine : Machine) :
    machine.step.mute =
      if machine.cycle.mute.response.isFatal then machine.cycle.mute
      else { machine.cycle.mute with machine := machine.cycle.mute.machine.tick } := by
  have response : machine.cycle.mute.response = machine.cycle.response := rfl
  simp only [step, response]
  split
  · rfl
  · -- A muted sound timer stays at zero when it ticks.
    rfl

theorem loadProgram_mute (machine : Machine) (program : List UInt8) :
    (machine.mute.loadProgram program).mute = (machine.loadProgram program).mute := by
  unfold loadProgram
  split
  · rfl
  · rfl

theorem loadRom_mute (machine : Machine) (source : ByteSource) :
    (machine.mute.loadRom source).mute = (machine.loadRom source).mute := by
  unfold loadRom
  split
  · exact machine.loadProgram_mute _
  · rfl

theorem perform_mute (machine : Machine) (operation : Operation) :
    (machine.mute.perform operation).mute = (machine.perform operation).mute := by
  cases operation with
  | reset | setKeys _ | pressKey _ | releaseKey _ | clearRedraw | tick => rfl
  | loadProgram program => exact machine.loadProgram_mute program
  | loadRom source => exact machine.loadRom_mute source
  | cycle => exact machine.cycle_mute
  | step => simp only [perform, mute_step, cycle_mute]

/-! ## Two machines that differ in their outputs -/

section

variable {left right : Machine} (same : SameButOutputs left right)

include same

theorem SameButOutputs.perform (operation : Operation) :
    (right.perform operation).response = (left.perform operation).response ∧
      (right.perform operation).log = (left.perform operation).log ∧
      SameButOutputs (left.perform operation).machine (right.perform operation).machine := by
  have muted : (left.perform operation).mute = (right.perform operation).mute := by
    rw [← left.perform_mute, sameButOutputs_iff.mp same, right.perform_mute]
  refine ⟨?_, ?_, ?_⟩
  · exact (congrArg Reply.response muted).symm
  · exact (congrArg Reply.log muted).symm
  · exact sameButOutputs_iff.mpr (congrArg Reply.machine muted)

theorem SameButOutputs.after (operations : List Operation) :
    SameButOutputs (left.after operations) (right.after operations) := by
  induction operations generalizing left right with
  | nil => exact same
  | cons operation rest ih => exact ih (same.perform operation).2.2

end

theorem perform_clear {operation : Operation} (clears : operation.isPlain = false)
    (machine : Machine) : (machine.perform operation).machine.mute = machine.mute := by
  cases operation
  case clearRedraw => rfl
  all_goals cases clears

theorem after_sameButOutputs {left right : Machine} (same : SameButOutputs left right)
    {first second : List Operation}
    (plain : first.filter Operation.isPlain = second.filter Operation.isPlain) :
    SameButOutputs (left.after first) (right.after second) := by
  refine @after_related Operation.isPlain SameButOutputs (fun _ _ _ => True) ?_ ?_ ?_
    _ _ (alongside_of_filter plain) _ _ same fun _ _ _ _ => trivial
  · intro left right operation clears same
    rw [sameButOutputs_iff, perform_clear clears]
    exact sameButOutputs_iff.mp same
  · intro left right operation clears same
    rw [sameButOutputs_iff, perform_clear clears]
    exact sameButOutputs_iff.mp same
  · intro left right operation _ _ same
    exact (same.perform operation).2.2

/-- Two machines that differ at most in their redraw flags and sound timers, driven
by operations that are the same once every clearing of the flag is left out: at every
two places with the same operations behind them the machines still differ in nothing
else, random draws included.  Every other operation has its counterpart, and both
answer and log the same. -/
theorem outputs_unnoticed {left right : Machine}
    (same : right =
      { left with
        redraw := right.redraw
        timers := { left.timers with sound := right.timers.sound } })
    {first second : List Operation}
    (plain : first.filter Operation.isPlain = second.filter Operation.isPlain) :
    (∀ position counterpart,
        (first.take position).filter Operation.isPlain =
          (second.take counterpart).filter Operation.isPlain →
        let earlier := left.after (first.take position)
        let other := right.after (second.take counterpart)
        other =
          { earlier with
            redraw := other.redraw
            timers := { earlier.timers with sound := other.timers.sound } }) ∧
      (∀ position operation, first[position]? = some operation → operation ≠ .clearRedraw →
        ∃ counterpart,
          Counterparts Operation.isPlain first second position counterpart operation) ∧
      ∀ position counterpart operation,
        Counterparts Operation.isPlain first second position counterpart operation →
        let reply := (left.after (first.take position)).perform operation
        let reply' := (right.after (second.take counterpart)).perform operation
        reply'.response = reply.response ∧ reply'.log = reply.log ∧
          reply'.machine.random = reply.machine.random := by
  have places : ∀ position counterpart,
      (first.take position).filter Operation.isPlain =
        (second.take counterpart).filter Operation.isPlain →
      SameButOutputs (left.after (first.take position))
        (right.after (second.take counterpart)) :=
    fun _ _ passed => after_sameButOutputs same passed
  refine ⟨places, ?_, ?_⟩
  · intro position operation found unclear
    have visible : operation.isPlain = true := by
      cases operation
      case clearRedraw => exact absurd rfl unclear
      all_goals rfl
    exact (alongside_of_filter plain).counterpart visible found
  · intro position counterpart operation pair reply reply'
    obtain ⟨response, log, next⟩ :=
      (places position counterpart pair.passed).perform operation
    refine ⟨response, log, ?_⟩
    rw [next]

/-- A machine whose flag is lowered after the run keeps up with one that starts with
its flag up and its tone on and whose flag is lowered at once; at the end only these
outputs differ. -/
theorem silent_run_agrees :
    let left := (powerOn (.progression 0 0)).after [.loadProgram [0xC1, 0xFF, 0x00, 0xE0]]
    let right := { left with redraw := true, timers := { left.timers with sound := 9 } }
    let first := [Operation.cycle, .step, .clearRedraw]
    let second := [Operation.clearRedraw, .cycle, .step]
    ((left.after first).redraw ≠ (right.after second).redraw ∧
        (left.after first).timers.sound ≠ (right.after second).timers.sound) ∧
      right.after second =
        { left.after first with
          redraw := (right.after second).redraw
          timers :=
            { (left.after first).timers with
              sound := (right.after second).timers.sound } } := by
  intro left right first second
  have differ : (left.after first).redraw ≠ (right.after second).redraw ∧
      (left.after first).timers.sound ≠ (right.after second).timers.sound := by
    decide +kernel
  have same : right =
      { left with
        redraw := right.redraw
        timers := { left.timers with sound := right.timers.sound } } := rfl
  have plain : first.filter Operation.isPlain = second.filter Operation.isPlain := rfl
  exact ⟨differ, (outputs_unnoticed same plain).1 3 3 plain⟩

end Machine

end Chip8Vm
