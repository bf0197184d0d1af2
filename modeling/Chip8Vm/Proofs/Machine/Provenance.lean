import Chip8Vm.Proofs.ByteSource
import Chip8Vm.Proofs.Machine.Effects

/-!
# Where the bytes of memory come from

Beside a run we keep what was stored since power-on or the last reset: the
bytes of every program that was loaded and what the two storing instructions
wrote when they were executed.  At every address memory holds what was last
stored there, and the byte of power-on where nothing was.
-/

namespace Chip8Vm

namespace Operation

/-- The program that an operation loads if it succeeds; a broken source has
none. -/
def program? : Operation → Option (List UInt8)
  | .loadProgram program => some program
  | .loadRom source => source.content.toOption
  | _ => none

def isLoad : Operation → Bool
  | .loadProgram _ | .loadRom _ => true
  | _ => false

theorem isLoad_of_program? {operation : Operation} {program : List UInt8}
    (named : operation.program? = some program) : operation.isLoad = true := by
  cases operation
  case loadProgram | loadRom => rfl
  all_goals cases named

end Operation

namespace Machine

/-- What an operation stores, by its response: the program if it loaded one,
or what the executed instruction stores. -/
def storesOf (machine : Machine) (program : List UInt8) : Response → List Memory.Store
  | .done => Memory.consecutive 0x200 program
  | .executed instruction => machine.instructionStores instruction
  | .awaitingKey | .failed _ | .faulted _ => []

def storesAfter (machine : Machine) (stores : List Memory.Store) :
    Operation → List Memory.Store
  | .reset => []
  | operation =>
      stores ++ machine.storesOf (operation.program?.getD [])
        (machine.perform operation).response

/-- What was stored since the last reset of a run, `stores` being what was
stored before the run. -/
def storesSince (machine : Machine) (stores : List Memory.Store) :
    List Operation → List Memory.Store
  | [] => stores
  | operation :: rest =>
      (machine.perform operation).machine.storesSince
        (machine.storesAfter stores operation) rest

/-! ## Loads -/

theorem loadProgram_done {machine : Machine} {program : List UInt8}
    (loaded : (machine.loadProgram program).response = .done) :
    program.length ≤ Memory.maxProgramSize ∧
      (machine.loadProgram program).machine =
        { machine with
          memory := machine.memory.writeAll Memory.programStart program } := by
  unfold loadProgram at loaded ⊢
  split at loaded
  · rename_i fits
    rw [if_pos fits]
    exact ⟨fits, rfl⟩
  · cases loaded

theorem loadProgram_refused {machine : Machine} {program : List UInt8}
    (refused : (machine.loadProgram program).response ≠ .done) :
    (machine.loadProgram program).machine = machine := by
  unfold loadProgram at refused ⊢
  split at refused
  · exact absurd rfl refused
  · rename_i large
    rw [if_neg large]

/-- A load that succeeds writes the program from its start on. -/
theorem load_done {machine : Machine} {load : Operation} (isLoad : load.isLoad = true)
    (loaded : (machine.perform load).response = .done) :
    ∃ program, load.program? = some program ∧ program.length ≤ Memory.maxProgramSize ∧
      (machine.perform load).machine =
        { machine with
          memory := machine.memory.writeAll Memory.programStart program } := by
  cases load
  case loadProgram program =>
      obtain ⟨fits, next⟩ := loadProgram_done loaded
      exact ⟨program, rfl, fits, next⟩
  case loadRom source =>
      obtain ⟨program, whole, fits⟩ := content_of_loadRom loaded
      rw [perform, loadRom_of_content whole fits] at loaded
      refine ⟨program, by simp [Operation.program?, whole, Except.toOption], fits, ?_⟩
      rw [perform, loadRom_of_content whole fits]
      exact (loadProgram_done loaded).2
  all_goals cases isLoad

theorem load_refused {machine : Machine} {load : Operation} (isLoad : load.isLoad = true)
    (refused : (machine.perform load).response ≠ .done) :
    (machine.perform load).machine = machine := by
  cases load
  case loadProgram program => exact loadProgram_refused refused
  case loadRom source =>
      simp only [perform, loadRom] at refused ⊢
      split at refused
      · exact loadProgram_refused refused
      · rfl
  all_goals cases isLoad

theorem load_response (machine : Machine) {load : Operation} (isLoad : load.isLoad = true) :
    (machine.perform load).response = .done ∨
      ∃ failure, (machine.perform load).response = .failed failure := by
  cases load
  case loadProgram program => exact machine.loadProgram_response program
  case loadRom source => exact machine.loadRom_response source
  all_goals cases isLoad

theorem load_receives (machine : Machine) {load : Operation} (isLoad : load.isLoad = true) :
    machine.memory.Receives
      (machine.storesOf (load.program?.getD []) (machine.perform load).response)
      (machine.perform load).machine.memory := by
  by_cases loaded : (machine.perform load).response = .done
  · obtain ⟨program, named, -, next⟩ := load_done isLoad loaded
    rw [loaded, named, next]
    exact machine.memory.receives_writeAll Memory.programStart program
  · rcases machine.load_response isLoad with done | ⟨failure, failed⟩
    · exact absurd done loaded
    · rw [load_refused isLoad loaded, failed]
      exact machine.memory.receives_nil

/-! ## One operation -/

theorem Outcome.receives {machine next : Machine} {response : Response}
    (outcome : Outcome machine response next) :
    machine.memory.Receives (machine.storesOf [] response) next.memory := by
  cases outcome with
  | executed decoded result => exact (execute_effects result).memory
  | @stopped instruction stop decoded result =>
      cases stop with
      | awaitingKey | failure _ | fault _ => exact machine.memory.receives_nil
  | skipped undecoded fits => exact machine.memory.receives_nil
  | lost undecoded overflow => exact machine.memory.receives_nil

theorem perform_receives (machine : Machine) {operation : Operation}
    (kept : operation ≠ .reset) :
    machine.memory.Receives
      (machine.storesOf (operation.program?.getD []) (machine.perform operation).response)
      (machine.perform operation).machine.memory := by
  cases operation with
  | reset => exact absurd rfl kept
  | loadProgram program => exact machine.load_receives rfl
  | loadRom source => exact machine.load_receives rfl
  | cycle => exact machine.cycle_outcome.receives
  | step =>
      rw [perform, step_response, step_machine]
      split
      · exact machine.cycle_outcome.receives
      · exact machine.cycle_outcome.receives
  | setKeys _ | pressKey _ | releaseKey _ | clearRedraw | tick =>
      exact machine.memory.receives_nil

/-! ## Runs -/

theorem storesAfter_of_ne (machine : Machine) (stores : List Memory.Store)
    {operation : Operation} (kept : operation ≠ .reset) :
    machine.storesAfter stores operation =
      stores ++ machine.storesOf (operation.program?.getD [])
        (machine.perform operation).response := by
  cases operation
  case reset => exact absurd rfl kept
  all_goals rfl

theorem after_receives {machine : Machine} {stores : List Memory.Store}
    (held : Memory.powerOn.Receives stores machine.memory) (operations : List Operation) :
    Memory.powerOn.Receives (machine.storesSince stores operations)
      (machine.after operations).memory := by
  induction operations generalizing machine stores with
  | nil => exact held
  | cons operation rest ih =>
      apply ih
      by_cases kept : operation = .reset
      · subst kept
        exact Memory.powerOn.receives_nil
      · rw [storesAfter_of_ne machine stores kept]
        exact held.append (machine.perform_receives kept)

/-- At every address of a run's memory stands what was last stored there since
the last reset, or the byte of power-on.  A load that succeeds leaves alone what
lies outside the program, and one that fails leaves the whole machine alone. -/
theorem memory_holds_last_stores (random : RandomStream) (operations : List Operation) :
    let machine := (powerOn random).after operations
    let stores := (powerOn random).storesSince [] operations
    (∀ address : Fin 4096,
        machine.memory.get address =
          (Memory.lastStored stores address).getD (Memory.powerOnByte address)) ∧
      (∀ load program, load.program? = some program →
        (machine.perform load).response = .done →
        ∀ address : Fin 4096,
          address.val < 0x200 ∨ 0x200 + program.length ≤ address.val →
          (machine.perform load).machine.memory.get address = machine.memory.get address) ∧
      ∀ load, load.isLoad = true → (machine.perform load).response ≠ .done →
        (machine.perform load).machine = machine := by
  intro machine stores
  have held : Memory.powerOn.Receives stores machine.memory :=
    after_receives Memory.powerOn.receives_nil operations
  refine ⟨?_, ?_, fun load isLoad refused => load_refused isLoad refused⟩
  · intro address
    rw [held address, Memory.get_powerOn]
  · intro load program named loaded address outside
    obtain ⟨copied, same, fits, next⟩ := load_done (Operation.isLoad_of_program? named) loaded
    cases named.symm.trans same
    rw [next]
    exact machine.memory.get_writeAll_of_outside
      (Nat.add_le_of_le_sub' (by decide) fits) outside

/-- The tail of a longer program stays when a shorter one is loaded over it. -/
theorem shorter_program_keeps_tail :
    let machine := (powerOn (.progression 0 0)).after [.loadProgram [0x12, 0x34, 0x56, 0x78]]
    let load := Operation.loadProgram [0xAB]
    (machine.perform load).response = .done ∧
      (machine.perform load).machine.memory.get 0x203 = machine.memory.get 0x203 := by
  intro machine load
  have loaded : (machine.perform load).response = .done := rfl
  have provenance := memory_holds_last_stores (.progression 0 0)
    [.loadProgram [0x12, 0x34, 0x56, 0x78]]
  exact ⟨loaded, provenance.2.1 load [0xAB] rfl loaded 0x203 (.inr (by decide))⟩

end Machine

end Chip8Vm
