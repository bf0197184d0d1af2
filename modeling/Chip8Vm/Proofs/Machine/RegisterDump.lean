import Chip8Vm.Proofs.Machine.Effects

/-!
# Storing the registers and loading them back

The registers from `V0` up to a given one are stored at consecutive addresses
from the index on and loaded from the same addresses, which go on at zero past
the end of memory.  They are at most sixteen and therefore distinct, so that
each of the two instructions undoes the other.
-/

namespace Chip8Vm

namespace Registers

theorem length_upTo (registers : Registers) (last : Register) :
    (registers.upTo last).length = last.val + 1 := by
  rw [upTo, List.length_take, Vector.length_toList]
  omega

theorem get_upTo (registers : Registers) (last : Register)
    (position : Fin (registers.upTo last).length) (valid : position.val < 16) :
    (registers.upTo last).get position = registers.read ⟨position.val, valid⟩ := by
  rw [List.get_eq_getElem]
  simp [upTo, read]

end Registers

namespace Machine

/-- The addresses at which the registers from `V0` up to `x` are stored and from
which they are loaded. -/
def dumpAddresses (machine : Machine) (x : Register) : List Nat :=
  (List.range (x.val + 1)).map fun offset => (machine.index.toNat + offset) % 4096

theorem nodup_dumpAddresses (machine : Machine) (x : Register) :
    (machine.dumpAddresses x).Nodup := by
  rw [dumpAddresses, List.nodup_iff_pairwise_ne, List.pairwise_map]
  refine (List.nodup_iff_pairwise_ne.mp List.nodup_range).imp_of_mem ?_
  intro first second firstMember secondMember different
  have firstInside := List.mem_range.mp firstMember
  have secondInside := List.mem_range.mp secondMember
  omega

/-! ## The two instructions -/

theorem execute_storeRegisters (machine : Machine) (x : Register) :
    machine.execute (.storeRegisters x) =
      .ok (machine.storeAtIndex (machine.registers.upTo x)) := by
  simp only [execute, register_of_lt x.isLt]
  rfl

theorem execute_loadRegisters (machine : Machine) (x : Register) :
    machine.execute (.loadRegisters x) = .ok (machine.loadFromIndex x) := by
  simp only [execute, register_of_lt x.isLt]
  rfl

theorem storeAtIndex_eq (machine : Machine) (values : List UInt8) :
    machine.storeAtIndex values =
      { machine with
        memory := machine.memory.writeAll machine.index values
        pc := following machine.pc } := rfl

theorem byteAt_storeAtIndex (machine : Machine) {x register : Register}
    (stored : register.val ≤ x.val) :
    (machine.storeAtIndex (machine.registers.upTo x)).memory.byteAt
        (machine.index.toNat + register.val) =
      machine.registers.read register := by
  have length := machine.registers.length_upTo x
  have inside : register.val < (machine.registers.upTo x).length := by omega
  rw [storeAtIndex_eq, Memory.byteAt_writeAll _ _ (by omega) inside]
  exact machine.registers.get_upTo x ⟨register.val, inside⟩ register.isLt

theorem get_storeAtIndex_of_not_mem (machine : Machine) {x : Register} {address : Fin 4096}
    (outside : address.val ∉ machine.dumpAddresses x) :
    (machine.storeAtIndex (machine.registers.upTo x)).memory.get address =
      machine.memory.get address := by
  apply Memory.get_writeAll_of_ne
  intro offset inside same
  rw [machine.registers.length_upTo x] at inside
  exact outside (List.mem_map.mpr ⟨offset, List.mem_range.mpr inside, same⟩)

/-- Loading registers changes nothing but them and the program counter. -/
theorem loadFromIndex_eq (machine : Machine) (x : Register) :
    ∃ registers, machine.loadFromIndex x =
      { machine with registers := registers, pc := following machine.pc } := by
  unfold loadFromIndex advanced
  exact ⟨_, rfl⟩

theorem read_loadFromIndex (machine : Machine) (x register : Register) :
    (machine.loadFromIndex x).registers.read register =
      if register ≤ x then machine.memory.byteAt (machine.index.toNat + register.val)
      else machine.registers.read register := by
  rw [← Memory.read_add]
  exact machine.registers.read_fillUpTo x register _

theorem storeAtIndex_loadFromIndex (machine : Machine) (x : Register) :
    (machine.loadFromIndex x).storeAtIndex ((machine.loadFromIndex x).registers.upTo x) =
      { machine with
        registers := (machine.loadFromIndex x).registers
        pc := following (following machine.pc) } := by
  obtain ⟨registers, rest⟩ := machine.loadFromIndex_eq x
  have read := machine.read_loadFromIndex x
  rw [rest] at read
  have unchanged : machine.memory.writeAll machine.index (registers.upTo x) = machine.memory := by
    apply Memory.writeAll_of_held
    intro offset
    have length := registers.length_upTo x
    have valid : offset.val < 16 := by omega
    have here : (⟨offset.val, valid⟩ : Register) ≤ x := Fin.mk_le_of_le_val (by omega)
    rw [registers.get_upTo x offset valid, read, if_pos here]
  rw [rest, storeAtIndex_eq]
  simp only [unchanged]

/-! ## Each undoes the other -/

/-- The registers stored at any index are loaded back whatever the registers hold
by then, and storing what was just loaded leaves memory as it was.  Neither way
touches the rest of the machine, and a store reaches only its own addresses, which
are distinct. -/
theorem dump_and_load_invert (machine : Machine) (x : Register) (others : Registers) :
    (∃ stored loaded,
        machine.execute (.storeRegisters x) = .ok stored ∧
        ({ stored with registers := others }).execute (.loadRegisters x) = .ok loaded ∧
        (∀ register, loaded.registers.read register =
          if register ≤ x then machine.registers.read register else others.read register) ∧
        stored = { machine with memory := stored.memory, pc := stored.pc } ∧
        loaded =
          { machine with
            registers := loaded.registers, memory := stored.memory, pc := loaded.pc } ∧
        (machine.dumpAddresses x).Nodup ∧
        ∀ address : Fin 4096, address.val ∉ machine.dumpAddresses x →
          stored.memory.get address = machine.memory.get address) ∧
      ∃ loaded stored,
        machine.execute (.loadRegisters x) = .ok loaded ∧
        loaded.execute (.storeRegisters x) = .ok stored ∧
        stored.memory = machine.memory ∧
        loaded = { machine with registers := loaded.registers, pc := loaded.pc } ∧
        stored = { machine with registers := loaded.registers, pc := stored.pc } := by
  constructor
  · refine ⟨_, _, machine.execute_storeRegisters x, execute_loadRegisters _ x, ?_, rfl, ?_,
      machine.nodup_dumpAddresses x, fun _ => machine.get_storeAtIndex_of_not_mem⟩
    · intro register
      rw [read_loadFromIndex]
      split
      · rename_i stored
        exact machine.byteAt_storeAtIndex stored
      · rfl
    · obtain ⟨registers, rest⟩ := loadFromIndex_eq
        { machine.storeAtIndex (machine.registers.upTo x) with registers := others } x
      rw [rest, storeAtIndex_eq]
  · have stored := machine.storeAtIndex_loadFromIndex x
    obtain ⟨registers, rest⟩ := machine.loadFromIndex_eq x
    refine ⟨_, _, machine.execute_loadRegisters x, execute_storeRegisters _ x,
      congrArg (·.memory) stored, ?_, ?_⟩
    · rw [rest]
    · rw [stored]

/-- Sixteen registers stored from the second last address on. -/
theorem dump_around_end_inverts :
    let machine := { powerOn (.progression 0 0) with
      index := 0xFFFE, registers := Vector.replicate 16 7 }
    0x00E ∉ machine.dumpAddresses 15 ∧
      ∃ stored loaded,
        machine.execute (.storeRegisters 15) = .ok stored ∧
        ({ stored with registers := .zero }).execute (.loadRegisters 15) = .ok loaded ∧
        loaded.registers.read 3 = 7 ∧
        stored.memory.get 0x00E = machine.memory.get 0x00E := by
  intro machine
  have outside : 0x00E ∉ machine.dumpAddresses 15 := by decide
  obtain ⟨stored, loaded, dumped, read, contents, -, -, -, kept⟩ :=
    (machine.dump_and_load_invert 15 .zero).1
  refine ⟨outside, stored, loaded, dumped, read, ?_, kept 0x00E outside⟩
  rw [contents, if_pos (by decide)]
  rfl

end Machine

end Chip8Vm
