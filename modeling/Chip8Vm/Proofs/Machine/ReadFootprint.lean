import Chip8Vm.Proofs.Machine.Congruence
import Chip8Vm.Proofs.Machine.Provenance
import Chip8Vm.Proofs.Machine.WriteFootprint

/-!
# What a cycle reads of memory

A cycle reads the two bytes of its word; a drawing also reads its sprite, and
loading registers what is loaded.  Two machines that differ in nothing but memory
and agree on these cells go through the same cycle: they answer, log and draw the
same, and still differ in nothing but memory.  What an instruction stores comes
from the registers, so afterwards the memories agree wherever they agreed before
and wherever the instruction stored.
-/

namespace Chip8Vm

namespace Memory

/-- The two memories hold the same bytes in the given cells. -/
def AgreeAt (left right : Memory) (cells : List Nat) : Prop :=
  ∀ address : Fin 4096, address.val ∈ cells → left.get address = right.get address

theorem AgreeAt.symm {left right : Memory} {cells : List Nat}
    (agree : left.AgreeAt right cells) : right.AgreeAt left cells := by
  intro address member
  exact (agree address member).symm

theorem AgreeAt.byteAt {left right : Memory} {cells : List Nat} {address : Nat}
    (agree : left.AgreeAt right cells) (member : address % 4096 ∈ cells) :
    left.byteAt address = right.byteAt address :=
  agree ⟨address % 4096, Nat.mod_lt _ (by decide)⟩ member

theorem read_eq_byteAt (memory : Memory) (address : Word) :
    memory.read address = memory.byteAt address.toNat := by
  simpa using memory.read_add address 0

theorem readAll_congr {left right : Memory} {start : Word} {count : Nat}
    (agree : ∀ offset, offset < count →
      left.byteAt (start.toNat + offset) = right.byteAt (start.toNat + offset)) :
    left.readAll start count = right.readAll start count := by
  apply List.map_congr_left
  intro offset member
  rw [read_add, read_add]
  exact agree offset (List.mem_range.mp member)

end Memory

theorem Registers.fillUpTo_congr (registers : Registers) {last : Register}
    {left right : Register → UInt8}
    (agree : ∀ register, register ≤ last → left register = right register) :
    registers.fillUpTo last left = registers.fillUpTo last right := by
  unfold fillUpTo
  congr 1
  funext register
  by_cases filled : register ≤ last
  · rw [if_pos filled, if_pos filled, agree register filled]
  · rw [if_neg filled, if_neg filled]

def Machine.withMemory (machine : Machine) (memory : Memory) : Machine :=
  { machine with memory := memory }

def Reply.withMemory (reply : Reply) (memory : Memory) : Reply :=
  { reply with machine := reply.machine.withMemory memory }

theorem Reply.of_withMemory {left right : Reply} {memory : Memory}
    (same : left.withMemory memory = right.withMemory memory) :
    left.response = right.response ∧ left.log = right.log ∧
      left.machine = { right.machine with memory := left.machine.memory } := by
  have responses := congrArg Reply.response same
  have logs := congrArg Reply.log same
  have machines := congrArg
    (fun reply => Machine.withMemory (Reply.machine reply) left.machine.memory) same
  exact ⟨responses, logs, machines⟩

namespace Machine

/-- The cells that an instruction reads. -/
def loadedCells (machine : Machine) : Instruction → List Nat
  | .draw _ _ n => machine.cellsFromIndex n.toNat
  | .loadRegisters x => machine.cellsFromIndex (x + 1)
  | _ => []

/-- The cells that a cycle reads: those of its word and of its instruction. -/
def readCells (machine : Machine) : List Nat :=
  machine.pc.toNat % 4096 :: (machine.pc.toNat + 1) % 4096 ::
    match Instruction.decode? machine.fetch with
    | some instruction => machine.loadedCells instruction
    | none => []

theorem mem_cellsFromIndex (machine : Machine) {count offset : Nat} (inside : offset < count) :
    (machine.index.toNat + offset) % 4096 ∈ machine.cellsFromIndex count :=
  List.mem_map.mpr ⟨offset, List.mem_range.mpr inside, rfl⟩

/-! ## Instructions

The memory of the machines after is replaced by one and the same memory, so that
the equations speak of everything else. -/

section

variable {machine : Machine} {memory : Memory} (final : Memory)

theorem spriteCells_withMemory {x y : Register} {rows : UInt8}
    (agree : memory.AgreeAt machine.memory (machine.cellsFromIndex rows.toNat)) :
    (machine.withMemory memory).spriteCells x y rows = machine.spriteCells x y rows := by
  have sprite : memory.readAll machine.index rows.toNat =
      machine.memory.readAll machine.index rows.toNat := by
    apply Memory.readAll_congr
    intro offset inside
    exact agree.byteAt (machine.mem_cellsFromIndex inside)
  unfold spriteCells
  exact congrArg (Sprite.cells _ _) sprite

theorem loadFromIndex_withMemory {x : Register}
    (agree : memory.AgreeAt machine.memory (machine.cellsFromIndex (x.val + 1))) :
    ((machine.withMemory memory).loadFromIndex x).withMemory final =
      (machine.loadFromIndex x).withMemory final := by
  have loaded : (machine.registers.fillUpTo x fun register =>
        memory.read (machine.index + UInt16.ofNat register.val)) =
      machine.registers.fillUpTo x fun register =>
        machine.memory.read (machine.index + UInt16.ofNat register.val) := by
    apply Registers.fillUpTo_congr
    intro register inside
    rw [Memory.read_add, Memory.read_add]
    exact agree.byteAt (machine.mem_cellsFromIndex (Nat.lt_succ_of_le inside))
  unfold loadFromIndex advanced withMemory
  exact congrArg (fun registers => Machine.mk registers _ _ _ _ _ _ _ _ _) loaded

/-- The instruction does to another memory what it does to the machine's own, as long
as the two agree on the cells that it reads. -/
theorem execute_withMemory {instruction : Instruction}
    (agree : memory.AgreeAt machine.memory (machine.loadedCells instruction)) :
    ((machine.withMemory memory).execute instruction).map (·.withMemory final) =
      (machine.execute instruction).map (·.withMemory final) := by
  cases instruction
  case ret => exact map_leave_congr rfl rfl fun _ _ => rfl
  case call nnn => exact map_enter_congr rfl rfl fun _ => rfl
  case waitKey x => exact map_waitKey_congr rfl fun _ _ => rfl
  case clearScreen | jump | loadIndex => rfl
  case draw x y n =>
      refine map_bind_congr fun x => map_bind_congr fun y => ?_
      rw [spriteCells_withMemory agree]
      rfl
  case loadRegisters number =>
      refine map_bind_congr_of_ok fun x named => ?_
      obtain ⟨valid, rfl⟩ := register_eq_ok named
      exact congrArg Except.ok (loadFromIndex_withMemory final agree)
  case skipIfSame x y | skipUnlessSame x y | copy x y | or x y | and x y | xor x y
      | add x y | sub x y | subFrom x y | addIndex x =>
      exact map_bind_congr fun _ => map_bind_congr fun _ => rfl
  -- The remaining instructions name one register or form one sum.
  all_goals exact map_bind_congr fun _ => rfl

/-! ## Cycles -/

theorem fetch_withMemory (agree : memory.AgreeAt machine.memory machine.readCells) :
    (machine.withMemory memory).fetch = machine.fetch := by
  have high : memory.read machine.pc = machine.memory.read machine.pc := by
    rw [Memory.read_eq_byteAt, Memory.read_eq_byteAt]
    exact agree.byteAt List.mem_cons_self
  have low : memory.read (machine.pc + 1) = machine.memory.read (machine.pc + 1) := by
    refine (memory.read_add machine.pc 1).trans ?_
    refine Eq.trans ?_ (machine.memory.read_add machine.pc 1).symm
    exact agree.byteAt (List.mem_cons_of_mem _ List.mem_cons_self)
  unfold fetch
  exact congr (congrArg Word.ofBytes high) low

theorem cycle_withMemory (agree : memory.AgreeAt machine.memory machine.readCells) :
    (machine.withMemory memory).cycle.withMemory final = machine.cycle.withMemory final := by
  have fetched := fetch_withMemory agree
  refine @cycle_congr (machine.withMemory memory) machine (·.withMemory final) rfl fetched rfl
    ?_ ?_ ?_
  · intro instruction
    unfold trace
    rw [fetched]
    rfl
  · exact map_bind_congr fun _ => rfl
  · intro instruction decoded
    apply execute_withMemory
    intro address member
    apply agree address
    rw [readCells, decoded]
    exact List.mem_cons_of_mem _ (List.mem_cons_of_mem _ member)

end

/-! ## Two machines that differ in memory -/

/-- Memories that receive the same stores agree where they agreed and where
something was stored. -/
theorem receives_agree {left right left' right' : Memory} {stores : List Memory.Store}
    (leftReceives : left.Receives stores left') (rightReceives : right.Receives stores right')
    {address : Fin 4096}
    (agree : left.get address = right.get address ∨
      address.val ∈ stores.map Memory.Store.address) :
    left'.get address = right'.get address := by
  rw [leftReceives address, rightReceives address]
  rcases agree with same | stored
  · rw [same]
  · cases last : Memory.lastStored stores address with
    | none => exact absurd stored (Memory.lastStored_eq_none_iff.mp last)
    | some value => rfl

theorem cycle_receives (machine : Machine) (memory : Memory) :
    memory.Receives (machine.storesOf [] (machine.withMemory memory).cycle.response)
      (machine.withMemory memory).cycle.machine.memory :=
  (machine.withMemory memory).cycle_outcome.receives

/-- Machines that are the same but for memory and agree on the cells that a cycle
reads answer and log the same and are still the same but for memory, random draws
included.  Their memories agree wherever they did before and, if an instruction was
executed, wherever it stored. -/
theorem cycle_reads_within_footprint {left right : Machine}
    (same : right = { left with memory := right.memory })
    (agree : left.memory.AgreeAt right.memory left.readCells) :
    right.cycle.response = left.cycle.response ∧
      right.cycle.log = left.cycle.log ∧
      right.cycle.machine =
        { left.cycle.machine with memory := right.cycle.machine.memory } ∧
      (∀ address : Fin 4096, left.memory.get address = right.memory.get address →
        left.cycle.machine.memory.get address = right.cycle.machine.memory.get address) ∧
      ∀ instruction, left.cycle.response = .executed instruction →
        left.cycle.machine.memory.AgreeAt right.cycle.machine.memory
          (left.storedCells instruction) := by
  have other : right = left.withMemory right.memory := same
  have replies := cycle_withMemory left.memory agree.symm
  rw [← other] at replies
  obtain ⟨response, log, machine⟩ := Reply.of_withMemory replies
  have leftReceives := left.cycle_outcome.receives
  have rightReceives := left.cycle_receives right.memory
  rw [← other, response] at rightReceives
  refine ⟨response, log, machine, ?_, ?_⟩
  · intro address before
    exact receives_agree leftReceives rightReceives (.inl before)
  · intro instruction executed address stored
    rw [executed] at leftReceives rightReceives
    apply receives_agree leftReceives rightReceives
    exact .inr (by rwa [storesOf, addresses_instructionStores])

/-- Two memories that differ at address zero agree there once two registers are
stored from the last address on. -/
theorem store_around_end_levels_memories :
    let left :=
      { (powerOn (.progression 0 0)).after [.loadProgram [0xF1, 0x55]] with index := 0xFFF }
    let right := { left with memory := left.memory.write 0x000 7 }
    left.memory.get 0x000 ≠ right.memory.get 0x000 ∧
      left.memory.AgreeAt right.memory left.readCells ∧
      left.cycle.response = .executed (.storeRegisters 1) ∧
      left.cycle.machine.memory.get 0x000 = right.cycle.machine.memory.get 0x000 := by
  intro left right
  have differ : left.memory.get 0x000 ≠ right.memory.get 0x000 := by decide +kernel
  have cells : left.readCells = [0x200, 0x201] := by decide +kernel
  have agree : left.memory.AgreeAt right.memory left.readCells := by
    intro address member
    rw [cells] at member
    have apart : (Memory.cell 0x000).val ≠ address.val := by
      intro same
      rw [← same] at member
      exact absurd member (by decide)
    exact (Vector.getElem_set_ne (Memory.cell 0x000).isLt address.isLt apart).symm
  have executed : left.cycle.response = .executed (.storeRegisters 1) := by decide +kernel
  obtain ⟨-, -, -, -, stored⟩ := @cycle_reads_within_footprint left right rfl agree
  refine ⟨differ, agree, executed, stored _ executed 0x000 ?_⟩
  decide

end Machine

end Chip8Vm
