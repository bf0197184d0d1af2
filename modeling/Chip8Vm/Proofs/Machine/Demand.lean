import Chip8Vm.Proofs.Instruction.Spelling
import Chip8Vm.Proofs.Machine.Run

/-!
# What an operation demands

Every place of an operation that could leave the machine is listed as a
demand: an index into the registers, the call stack, the keys, the screen or
memory, and every sum, product and difference that is formed without a check.
An instruction ends in a fault exactly when one of its demands is not met.
-/

namespace Chip8Vm

/-- A condition on an access or on unchecked arithmetic. -/
inductive Demand where
  | index (position size : Nat)
  | slice (stop size : Nat)
  | fits (value limit : Nat)
  | difference (minuend subtrahend : Nat)

/-- An index lies before the end, a slice does not pass it, a sum or product
stays below the limit of its type and a difference does not pass zero. -/
@[simp] def Demand.Met : Demand → Prop
  | .index position size => position < size
  | .slice stop size => stop ≤ size
  | .fits value limit => value < limit
  | .difference minuend subtrahend => subtrahend ≤ minuend

namespace Machine

/-- The contents of the register with a given number, zero if there is none. -/
def contents (machine : Machine) (number : Nat) : UInt8 :=
  machine.registers[number]?.getD 0

/-- The cells of memory that consecutive addresses name. -/
def memoryDemands (start : Word) (count : Nat) : List Demand :=
  (List.range count).map fun offset =>
    .index (Memory.wrap (start + UInt16.ofNat offset)).toNat Memory.size

/-- The rows and columns of the screen under a sprite. -/
def pixelDemands (down right rows : Nat) : List Demand :=
  (List.range rows).map (fun row => .index ((down + row) % Screen.height) Screen.height)
    ++ (List.range 8).map (fun bit => .index ((right + bit) % Screen.width) Screen.width)

def registerDemands (instruction : Instruction) : List Demand :=
  instruction.operands.map fun number => .index number 16

/-- What executing an instruction demands.  A call of a full stack, a return
on an empty one and a wait without a key end before any access. -/
def demands (machine : Machine) : Instruction → List Demand
  | .ret =>
      if machine.stack.depth = 0 then []
      else
        [ .difference machine.stack.depth.toNat 1,
          .index (machine.stack.depth.toNat - 1) CallStack.capacity ]
  | .call _ =>
      if CallStack.capacity ≤ machine.stack.depth.toNat then []
      else
        [ .index machine.stack.depth.toNat CallStack.capacity,
          .fits (machine.stack.depth.toNat + 1) 0x100 ]
  | .jumpFrom nnn => [.fits (nnn.toNat + (machine.contents 0).toNat) 0x10000]
  | .draw x y n =>
      registerDemands (.draw x y n)
        ++ memoryDemands machine.index n.toNat
        ++ pixelDemands (machine.contents y).toNat (machine.contents x).toNat n.toNat
  | .skipIfKey x | .skipUnlessKey x =>
      [ .index x 16,
        .index ((machine.contents x).toNat % Keypad.count) Keypad.count ]
  | .waitKey x => if machine.keypad.lowest? = none then [] else [.index x 16]
  | .addIndex x =>
      [ .index x 16,
        .fits (machine.index.toNat + (machine.contents x).toNat) 0x10000 ]
  | .loadGlyph x =>
      [ .index x 16,
        .fits ((machine.contents x).toNat * Glyph.height.toNat) 0x10000,
        .fits (Glyph.sheetStart.toNat
          + (machine.contents x).toNat * Glyph.height.toNat) 0x10000 ]
  | .storeDecimal x => .index x 16 :: memoryDemands machine.index 3
  | .storeRegisters x | .loadRegisters x =>
      .index x 16 :: memoryDemands machine.index (x + 1)
  | instruction => registerDemands instruction

/-- What a cycle demands: the two bytes of the word and then either what its
instruction demands or the sum that passes over it. -/
def cycleDemands (machine : Machine) : List Demand :=
  memoryDemands machine.pc 2
    ++ match Instruction.decode? machine.fetch with
      | some instruction => machine.demands instruction
      | none => [.fits (machine.pc.toNat + 2) 0x10000]

def loadDemands (program : List UInt8) : List Demand :=
  if program.length ≤ Memory.maxProgramSize then
    [.slice (Memory.programStart.toNat + program.length) Memory.size]
  else
    []

def operationDemands (machine : Machine) : Operation → List Demand
  | .reset => [.slice (Glyph.sheetStart.toNat + Glyph.sheet.length) Memory.size]
  | .loadProgram program => loadDemands program
  | .loadRom source =>
      match source.readUpTo (Memory.maxProgramSize + 1) with
      | .ok program => loadDemands program
      | .error _ => []
  | .pressKey name | .releaseKey name => [.index (name.toNat % Keypad.count) Keypad.count]
  | .cycle | .step => machine.cycleDemands
  | .setKeys _ | .clearRedraw | .tick => []

/-! ## Faults are unmet demands -/

theorem memoryDemands_met (start : Word) (count : Nat) :
    ∀ demand, demand ∈ memoryDemands start count → demand.Met := by
  intro demand member
  obtain ⟨offset, -, rfl⟩ := List.mem_map.mp member
  simp only [Demand.Met, Memory.toNat_wrap, Memory.size]
  exact Nat.mod_lt _ (by decide)

theorem pixelDemands_met (down right rows : Nat) :
    ∀ demand, demand ∈ pixelDemands down right rows → demand.Met := by
  intro demand member
  rcases List.mem_append.mp member with inRows | inColumns
  · obtain ⟨row, -, rfl⟩ := List.mem_map.mp inRows
    exact Nat.mod_lt _ (by decide)
  · obtain ⟨bit, -, rfl⟩ := List.mem_map.mp inColumns
    exact Nat.mod_lt _ (by decide)

def Unmet (demands : List Demand) : Prop :=
  ∃ demand, demand ∈ demands ∧ ¬demand.Met

@[simp] theorem unmet_nil : ¬Unmet [] := by
  intro ⟨demand, member, _⟩
  cases member

@[simp] theorem unmet_cons (demand : Demand) (rest : List Demand) :
    Unmet (demand :: rest) ↔ ¬demand.Met ∨ Unmet rest := by
  simp [Unmet]

@[simp] theorem unmet_append (left right : List Demand) :
    Unmet (left ++ right) ↔ Unmet left ∨ Unmet right := by
  simp only [Unmet, List.mem_append, or_and_right, exists_or]

@[simp] theorem not_unmet_memory (start : Word) (count : Nat) :
    ¬Unmet (memoryDemands start count) := by
  intro ⟨demand, member, unmet⟩
  exact unmet (memoryDemands_met start count demand member)

@[simp] theorem not_unmet_pixels (down right rows : Nat) :
    ¬Unmet (pixelDemands down right rows) := by
  intro ⟨demand, member, unmet⟩
  exact unmet (pixelDemands_met down right rows demand member)

def Faults {α : Type} (result : Except Stop α) : Prop :=
  ∃ fault, result = .error (.fault fault)

@[simp] theorem not_faults_ok {α : Type} (value : α) : ¬Faults (.ok value) := by
  intro ⟨fault, faulted⟩
  cases faulted

@[simp] theorem faults_bind {α β : Type} (first : Except Stop α)
    (continuation : α → Except Stop β) :
    Faults (first >>= continuation) ↔
      Faults first ∨ ∃ value, first = .ok value ∧ Faults (continuation value) := by
  cases first with
  | error stop => simp [Faults, bind, Except.bind]
  | ok value => simp [Faults, bind, Except.bind]

@[simp] theorem faults_map {α β : Type} (first : Except Stop α) (mapping : α → β) :
    Faults (mapping <$> first) ↔ Faults first := by
  cases first with
  | error stop => simp [Faults, Functor.map, Except.map]
  | ok value => simp [Faults, Functor.map, Except.map]

theorem register_of_lt {number : Nat} (valid : number < 16) :
    register number = .ok ⟨number, valid⟩ := by
  rw [register, dif_pos valid]

@[simp] theorem faults_register (number : Nat) : Faults (register number) ↔ 16 ≤ number := by
  by_cases valid : number < 16
  · rw [register_of_lt valid]
    exact iff_of_false (not_faults_ok _) (by omega)
  · rw [register, dif_neg valid]
    exact iff_of_true ⟨_, rfl⟩ (by omega)

@[simp] theorem faults_addressSum (address : Word) (offset : UInt8) :
    Faults (addressSum address offset) ↔ 0x10000 ≤ address.toNat + offset.toNat := by
  by_cases small : address.toNat + offset.toNat < 0x10000
  · simp only [addressSum, if_pos small]
    exact iff_of_false (not_faults_ok _) (by omega)
  · simp only [addressSum, if_neg small]
    exact iff_of_true ⟨_, rfl⟩ (by omega)

theorem contents_of_lt {number : Nat} (machine : Machine) (valid : number < 16) :
    machine.contents number = machine.registers.read ⟨number, valid⟩ := by
  simp [contents, Registers.read, valid]

theorem not_faults_enter (machine : Machine) (nnn : Word) : ¬Faults (machine.enter nnn) := by
  intro ⟨fault, entered⟩
  unfold enter at entered
  split at entered <;> cases entered

theorem faults_leave_iff (machine : Machine) :
    Faults machine.leave ↔
      machine.stack.depth ≠ 0 ∧ 16 ≤ machine.stack.depth.toNat - 1 := by
  unfold leave
  by_cases unused : machine.stack.depth = 0
  · simp [Faults, unused]
  · by_cases within : machine.stack.depth.toNat - 1 < 16
    · simp [Faults, CallStack.top?, unused, within]
    · have outside : 16 ≤ machine.stack.depth.toNat - 1 := by omega
      simp [Faults, CallStack.top?, unused, outside]

/-- An instruction ends in a fault exactly when one of its demands is not met. -/
theorem execute_faults_iff (machine : Machine) (instruction : Instruction) :
    Faults (machine.execute instruction) ↔ Unmet (machine.demands instruction) := by
  cases instruction
  case clearScreen | jump nnn | loadIndex nnn =>
      exact iff_of_false (not_faults_ok _) unmet_nil
  case ret =>
      by_cases unused : machine.stack.depth = 0
      · simp [execute, faults_leave_iff, demands, unused]
      · have positive : machine.stack.depth.toNat ≠ 0 := fun zero =>
          unused (UInt8.toNat_inj.mp zero)
        simp [execute, faults_leave_iff, demands, unused, CallStack.capacity]
        omega
  case call nnn =>
      by_cases full : 16 ≤ machine.stack.depth.toNat
      · simp [execute, not_faults_enter, demands, CallStack.capacity, full]
      · simp [execute, not_faults_enter, demands, CallStack.capacity, full]
        omega
  case jumpFrom nnn =>
      simp [execute, demands, contents_of_lt machine (by decide : 0 < 16), Registers.first]
  case waitKey x =>
      cases lowest : machine.keypad.lowest? with
      | none => simp [execute, demands, lowest, Faults]
      | some key => simp [execute, demands, lowest]
  case addIndex x =>
      by_cases valid : x < 16
      · simp [execute, demands, register_of_lt valid, contents_of_lt machine valid]
        omega
      · simp [execute, demands, Nat.le_of_not_lt valid]
  case loadGlyph x =>
      have bound := (machine.contents x).toNat_lt
      simp [execute, demands, Glyph.height, Glyph.sheetStart]
      omega
  case skipIfKey x | skipUnlessKey x =>
      simp [execute, demands, Keypad.count]
      omega
  case storeDecimal x | storeRegisters x | loadRegisters x =>
      simp [execute, demands]
  case skipIfSame x y | skipUnlessSame x y | copy x y | or x y | and x y | xor x y | add x y
      | sub x y | subFrom x y | draw x y n =>
      by_cases valid : x < 16
      · simp [execute, demands, registerDemands, Instruction.operands, register_of_lt valid]
        omega
      · simp [execute, demands, registerDemands, Instruction.operands,
          Nat.le_of_not_lt valid]
  all_goals simp [execute, demands, registerDemands, Instruction.operands]

theorem Outcome.faulted_iff {machine next : Machine} {response : Response}
    (outcome : Outcome machine response next) :
    (∃ fault, response = .faulted fault) ↔ Unmet machine.cycleDemands := by
  unfold cycleDemands
  rw [unmet_append, or_iff_right (not_unmet_memory machine.pc 2)]
  cases outcome with
  | executed decoded result =>
      simp only [decoded]
      rw [← execute_faults_iff, result]
      simp
  | @stopped instruction stop decoded result =>
      simp only [decoded]
      rw [← execute_faults_iff, result]
      cases stop <;> simp [Response.ofStop, Faults]
  | skipped undecoded fits =>
      simp [undecoded]
      omega
  | lost undecoded overflow =>
      simp only [undecoded]
      exact iff_of_true ⟨_, rfl⟩ (by simpa using overflow)

theorem not_unmet_load (program : List UInt8) : ¬Unmet (loadDemands program) := by
  unfold loadDemands
  split
  · rename_i fits
    have start : Memory.programStart.toNat = 0x200 := rfl
    simp only [Memory.maxProgramSize, Memory.size, start] at fits
    simp [Memory.size, start]
    omega
  · exact unmet_nil

/-- Outside the processor the demands are met on every machine. -/
theorem not_unmet_outside (machine : Machine) {operation : Operation}
    (outside : ¬(operation = .cycle ∨ operation = .step)) :
    ¬Unmet (machine.operationDemands operation) := by
  cases operation with
  | cycle => exact absurd (.inl rfl) outside
  | step => exact absurd (.inr rfl) outside
  | loadProgram program => exact not_unmet_load program
  | loadRom source =>
      simp only [operationDemands]
      split
      · exact not_unmet_load _
      · exact unmet_nil
  | pressKey name | releaseKey name =>
      have named : name.toNat % 16 < 16 := Nat.mod_lt _ (by decide)
      simpa [operationDemands, Keypad.count] using named
  | reset => simp [operationDemands, Glyph.sheetStart, Glyph.sheet, Memory.size]
  | setKeys _ | clearRedraw | tick => exact unmet_nil

/-- An operation ends in a fault exactly when one of its demands is not met. -/
theorem perform_faulted_iff (machine : Machine) (operation : Operation) :
    (∃ fault, (machine.perform operation).response = .faulted fault) ↔
      Unmet (machine.operationDemands operation) := by
  by_cases turn : operation = .cycle ∨ operation = .step
  · rw [perform_turn_response turn]
    rcases turn with rfl | rfl
    · exact machine.cycle_outcome.faulted_iff
    · exact machine.cycle_outcome.faulted_iff
  · apply iff_of_false
    · intro ⟨fault, faulted⟩
      have transition := machine.perform_transition operation
      exact turn (transition.isTurn (by simp [faulted]) (by simp [faulted])).1
    · exact machine.not_unmet_outside turn

end Machine

end Chip8Vm
