import Chip8Vm.Proofs.Machine.Devices
import Chip8Vm.Proofs.Machine.Effects
import Chip8Vm.Proofs.Machine.RunPair

/-!
# When keys are pressed

A program notices its keys only while it executes an instruction that reads
them, and it never changes them.  Two runs that differ in nothing but their key
operations therefore stay the same, the keypad apart, as long as the two keypads
agree whenever the keys are read.
-/

namespace Chip8Vm

/-- The operations that press or release keys. -/
def Operation.isKey : Operation → Bool
  | .setKeys _ | .pressKey _ | .releaseKey _ => true
  | _ => false

def Operation.isKeyless (operation : Operation) : Bool :=
  !operation.isKey

/-- The keypad after an operation; a program has no part in it. -/
def Keypad.afterOperation (keypad : Keypad) : Operation → Keypad
  | .reset => .released
  | .setKeys keys => keys
  | .pressKey name => keypad.press name
  | .releaseKey name => keypad.release name
  | .loadProgram _ | .loadRom _ | .clearRedraw | .tick | .cycle | .step => keypad

/-- The same reply about a machine with other keys. -/
def Reply.withKeys (reply : Reply) (keypad : Keypad) : Reply :=
  { reply with machine := reply.machine.setKeys keypad }

namespace Machine

/-! ## Who changes the keys -/

theorem Outcome.keypad {machine next : Machine} {response : Response}
    (outcome : Outcome machine response next) : next.keypad = machine.keypad := by
  cases outcome with
  | executed decoded result => exact (execute_effects result).keypad
  | stopped decoded result => rfl
  | skipped undecoded fits => rfl
  | lost undecoded overflow => rfl

theorem perform_keypad (machine : Machine) (operation : Operation) :
    (machine.perform operation).machine.keypad =
      machine.keypad.afterOperation operation := by
  cases operation with
  | reset | setKeys _ | pressKey _ | releaseKey _ | clearRedraw | tick => rfl
  | cycle => exact machine.cycle_outcome.keypad
  | step =>
      rw [perform, step_machine]
      split
      · exact machine.cycle_outcome.keypad
      · exact machine.cycle_outcome.keypad
  | loadProgram program =>
      obtain ⟨memory, loaded⟩ := machine.loadProgram_machine program
      rw [perform, loaded]
      rfl
  | loadRom source =>
      obtain ⟨memory, loaded⟩ := machine.loadRom_machine source
      rw [perform, loaded]
      rfl

theorem keypad_afterOperation {operation : Operation}
    (unkeyed : operation.isKey = false) (kept : operation ≠ .reset) (keypad : Keypad) :
    keypad.afterOperation operation = keypad := by
  cases operation
  case setKeys | pressKey | releaseKey => cases unkeyed
  case reset => exact absurd rfl kept
  all_goals rfl

/-! ## Operations that do not read the keys -/

/-- The next word reads the keys. -/
def ReadsKeys (machine : Machine) : Prop :=
  ∃ instruction, Instruction.decode? machine.fetch = some instruction ∧
    instruction.readsKeys = true

theorem cycle_setKeys {machine : Machine} (unread : ¬machine.ReadsKeys) (keypad : Keypad) :
    (machine.setKeys keypad).cycle = machine.cycle.withKeys keypad := by
  have fetched : (machine.setKeys keypad).fetch = machine.fetch := rfl
  unfold cycle Instruction.decode
  rw [fetched]
  cases decoded : Instruction.decode? machine.fetch with
  | some instruction =>
      have silent : instruction.readsKeys = false :=
        Bool.eq_false_iff.mpr fun reads => unread ⟨instruction, decoded, reads⟩
      simp only [attempt, execute_setKeys silent machine keypad]
      cases machine.execute instruction with
      | error stop => rfl
      | ok next => rfl
  | none =>
      have passed : (machine.setKeys keypad).passOver =
          machine.passOver.map (·.setKeys keypad) := bind_eq_map fun _ => rfl
      simp only [skipMalformed, passed]
      cases machine.passOver with
      | error stop => rfl
      | ok next => rfl

theorem step_setKeys {machine : Machine} (unread : ¬machine.ReadsKeys) (keypad : Keypad) :
    (machine.setKeys keypad).step = machine.step.withKeys keypad := by
  have response : (machine.cycle.withKeys keypad).response = machine.cycle.response := rfl
  simp only [step, cycle_setKeys unread keypad, response]
  split
  · rfl
  · rfl

theorem loadProgram_setKeys (machine : Machine) (keypad : Keypad) (program : List UInt8) :
    (machine.setKeys keypad).loadProgram program =
      (machine.loadProgram program).withKeys keypad := by
  unfold loadProgram
  split
  · rfl
  · rfl

theorem loadRom_setKeys (machine : Machine) (keypad : Keypad) (source : ByteSource) :
    (machine.setKeys keypad).loadRom source = (machine.loadRom source).withKeys keypad := by
  unfold loadRom
  split
  · exact machine.loadProgram_setKeys keypad _
  · rfl

/-! ## Two machines that differ in their keys -/

/-- The machines are the same, the keypad apart. -/
def SameButKeys (left right : Machine) : Prop :=
  right = left.setKeys right.keypad

theorem SameButKeys.eq {left right : Machine} (same : SameButKeys left right)
    (keys : left.keypad = right.keypad) : right = left := by
  rw [same, ← keys]
  rfl

/-- The two keypads agree if the operation is about to read the keys. -/
def AgreeOnRead (left right : Machine) (operation : Operation) : Prop :=
  operation = .cycle ∨ operation = .step → left.ReadsKeys → left.keypad = right.keypad

theorem perform_sameButKeys {left right : Machine} (same : SameButKeys left right)
    {operation : Operation} (unkeyed : operation.isKey = false)
    (agree : AgreeOnRead left right operation) :
    (right.perform operation).response = (left.perform operation).response ∧
      (right.perform operation).log = (left.perform operation).log ∧
      SameButKeys (left.perform operation).machine (right.perform operation).machine := by
  -- Machines that agree on their keys too are equal, and so are their replies.
  by_cases equal : left.keypad = right.keypad
  · rw [same.eq equal]
    exact ⟨rfl, rfl, rfl⟩
  have unread : operation = .cycle ∨ operation = .step → ¬left.ReadsKeys :=
    fun turn reads => equal (agree turn reads)
  unfold SameButKeys
  rw [perform_keypad, same]
  cases operation
  case setKeys | pressKey | releaseKey => cases unkeyed
  case reset | clearRedraw | tick => exact ⟨rfl, rfl, rfl⟩
  case loadProgram program =>
      simp only [perform, loadProgram_setKeys]
      exact ⟨rfl, rfl, rfl⟩
  case loadRom source =>
      simp only [perform, loadRom_setKeys]
      exact ⟨rfl, rfl, rfl⟩
  case cycle =>
      simp only [perform, cycle_setKeys (unread (.inl rfl))]
      exact ⟨rfl, rfl, rfl⟩
  case step =>
      simp only [perform, step_setKeys (unread (.inr rfl))]
      exact ⟨rfl, rfl, rfl⟩

theorem perform_key {operation : Operation} (isKey : operation.isKey = true)
    (machine : Machine) :
    (machine.perform operation).machine =
      machine.setKeys (machine.keypad.afterOperation operation) := by
  cases operation
  case setKeys | pressKey | releaseKey => rfl
  all_goals cases isKey

theorem SameButKeys.key_left {left right : Machine} (same : SameButKeys left right)
    {operation : Operation} (keyed : operation.isKeyless = false) :
    SameButKeys (left.perform operation).machine right := by
  rw [perform_key (by simpa [Operation.isKeyless] using keyed)]
  exact same

theorem SameButKeys.key_right {left right : Machine} (same : SameButKeys left right)
    {operation : Operation} (keyed : operation.isKeyless = false) :
    SameButKeys left (right.perform operation).machine := by
  rw [perform_key (by simpa [Operation.isKeyless] using keyed), same]
  rfl

/-! ## Two runs that differ in their key operations -/

theorem after_sameButKeys (machine : Machine) {first second : List Operation}
    (same : first.filter Operation.isKeyless = second.filter Operation.isKeyless)
    (agree : ∀ position counterpart operation,
      Counterparts Operation.isKeyless first second position counterpart operation →
      AgreeOnRead (machine.after (first.take position))
        (machine.after (second.take counterpart)) operation) :
    SameButKeys (machine.after first) (machine.after second) := by
  refine after_related ?_ ?_ ?_ (alongside_of_filter same) rfl agree
  · intro left right operation keyed same
    exact same.key_left keyed
  · intro left right operation keyed same
    exact same.key_right keyed
  · intro left right operation keyless agree same
    have unkeyed : operation.isKey = false := by simpa [Operation.isKeyless] using keyless
    exact (perform_sameButKeys same unkeyed agree).2.2

/-- Two runs from one machine that differ only in their key operations, and whose
keypads agree whenever the first reads its keys: at every two places with the same
operations behind them the machines are the same, the keypad apart; every common
operation has its counterpart and both answer and log the same.  In each run only
key operations and resets change the keypad. -/
theorem key_timing_unnoticed (machine : Machine) {first second : List Operation}
    (same : first.filter Operation.isKeyless = second.filter Operation.isKeyless)
    (agree : ∀ position counterpart operation,
      Counterparts Operation.isKeyless first second position counterpart operation →
      operation = .cycle ∨ operation = .step →
      ∀ instruction,
        Instruction.decode? (machine.after (first.take position)).fetch = some instruction →
        instruction.readsKeys = true →
        (machine.after (first.take position)).keypad =
          (machine.after (second.take counterpart)).keypad) :
    (∀ position counterpart,
        (first.take position).filter Operation.isKeyless =
          (second.take counterpart).filter Operation.isKeyless →
        machine.after (second.take counterpart) =
          { machine.after (first.take position) with
            keypad := (machine.after (second.take counterpart)).keypad }) ∧
      (∀ position operation, first[position]? = some operation →
        operation.isKey = false →
        ∃ counterpart,
          Counterparts Operation.isKeyless first second position counterpart operation) ∧
      (∀ position counterpart operation,
        Counterparts Operation.isKeyless first second position counterpart operation →
        let reply := (machine.after (first.take position)).perform operation
        let reply' := (machine.after (second.take counterpart)).perform operation
        reply'.response = reply.response ∧ reply'.log = reply.log ∧
          reply'.machine.random = reply.machine.random) ∧
      ∀ run operation, operation.isKey = false → operation ≠ .reset →
        ((machine.after run).perform operation).machine.keypad =
          (machine.after run).keypad := by
  have onRead : ∀ position counterpart operation,
      Counterparts Operation.isKeyless first second position counterpart operation →
      AgreeOnRead (machine.after (first.take position))
        (machine.after (second.take counterpart)) operation := by
    intro position counterpart operation pair turn ⟨instruction, decoded, reads⟩
    exact agree position counterpart operation pair turn instruction decoded reads
  have places : ∀ position counterpart,
      (first.take position).filter Operation.isKeyless =
        (second.take counterpart).filter Operation.isKeyless →
      SameButKeys (machine.after (first.take position))
        (machine.after (second.take counterpart)) := by
    intro stop counterstop passed
    apply machine.after_sameButKeys passed
    intro position counterpart operation pair
    obtain ⟨whole, leftPassed, rightPassed⟩ := pair.of_take
    rw [leftPassed, rightPassed]
    exact onRead position counterpart operation whole
  refine ⟨places, ?_, ?_, ?_⟩
  · intro position operation found unkeyed
    exact (alongside_of_filter same).counterpart (by simp [Operation.isKeyless, unkeyed]) found
  · intro position counterpart operation pair reply reply'
    have unkeyed : operation.isKey = false := by
      simpa [Operation.isKeyless] using pair.visible
    obtain ⟨response, log, next⟩ :=
      perform_sameButKeys (places position counterpart pair.passed) unkeyed
        (onRead position counterpart operation pair)
    refine ⟨response, log, ?_⟩
    rw [next]
    rfl
  · intro run operation unkeyed kept
    rw [perform_keypad, keypad_afterOperation unkeyed kept]

/-- A key that goes down and comes up again before the keys are read makes no
difference. -/
theorem brief_key_unnoticed :
    let machine := (powerOn (.progression 0 0)).after [.loadProgram [0x60, 0x05, 0xE0, 0x9E]]
    let first := [Operation.pressKey 7, .cycle, .releaseKey 7, .pressKey 5, .cycle]
    let second := [Operation.cycle, .pressKey 5, .cycle]
    (machine.after (first.take 2)).keypad ≠ (machine.after (second.take 1)).keypad ∧
      machine.after (second.take 3) =
        { machine.after (first.take 5) with
          keypad := (machine.after (second.take 3)).keypad } := by
  intro machine first second
  obtain ⟨loads, earlier, later⟩ :
      Instruction.decode? (machine.after (first.take 1)).fetch = some (.loadByte 0 5) ∧
        (machine.after (first.take 2)).keypad ≠ (machine.after (second.take 1)).keypad ∧
        (machine.after (first.take 4)).keypad = (machine.after (second.take 2)).keypad := by
    decide +kernel
  have same : first.filter Operation.isKeyless = second.filter Operation.isKeyless := rfl
  have passed : (first.take 5).filter Operation.isKeyless =
      (second.take 3).filter Operation.isKeyless := rfl
  clear_value machine
  refine ⟨earlier, (key_timing_unnoticed machine same ?_).1 5 3 passed⟩
  intro position counterpart operation ⟨visible, left, right, passed⟩ _
  have place : position = 1 ∨ position = 4 ∧ counterpart = 2 := by
    match position, counterpart with
    | 0, _ | 2, _ | 3, _ =>
        cases left
        cases visible
    | 1, _ => exact .inl rfl
    | 4, 0 => cases passed
    | 4, 1 =>
        cases right
        cases visible
    | 4, 2 => exact .inr ⟨rfl, rfl⟩
  intro instruction decoded reads
  rcases place with rfl | ⟨rfl, rfl⟩
  · cases loads.symm.trans decoded
    cases reads
  · exact later

end Machine

end Chip8Vm
