import Chip8Vm.Proofs.Machine.RegisterDump
import Chip8Vm.Proofs.Machine.WriteFootprint

/-!
# Decimal digits stored and loaded back

The decimal digits of a register are stored in three consecutive cells from the
index on, the hundreds first, and loading `V0` to `V2` takes them from there
again.  Storing and loading wrap around the end of memory in the same way, so the
digits arrive whatever the index is.  None is above nine and together they amount
to the register that they were taken from, which may be one of the three that are
loaded.
-/

namespace Chip8Vm

namespace Machine

/-! ## The digits of a byte -/

section Digits

variable (value : UInt8)

theorem toNat_hundreds : (value / 100).toNat = value.toNat / 100 :=
  UInt8.toNat_div value 100

theorem toNat_tens : (value / 10 % 10).toNat = value.toNat / 10 % 10 := by
  rw [UInt8.toNat_mod, UInt8.toNat_div]
  rfl

theorem toNat_ones : (value % 10).toNat = value.toNat % 10 :=
  UInt8.toNat_mod value 10

theorem sum_decimalDigits :
    100 * (value / 100).toNat + 10 * (value / 10 % 10).toNat + (value % 10).toNat =
      value.toNat := by
  rw [toNat_hundreds, toNat_tens, toNat_ones]
  omega

end Digits

theorem le_nine_of_mem_decimalDigits {value digit : UInt8}
    (member : digit ∈ decimalDigits value) : digit.toNat ≤ 9 := by
  have bound := value.toNat_lt
  simp only [decimalDigits, List.mem_cons, List.not_mem_nil, or_false] at member
  rcases member with rfl | rfl | rfl
  · rw [toNat_hundreds]
    omega
  · rw [toNat_tens]
    omega
  · rw [toNat_ones]
    omega

/-! ## Through memory -/

theorem execute_storeDecimal (machine : Machine) (x : Register) :
    machine.execute (.storeDecimal x) =
      .ok (machine.storeAtIndex (decimalDigits (machine.registers.read x))) := by
  simp only [execute, register_of_lt x.isLt]
  rfl

/-- Bytes stored from the index on are loaded back register by register. -/
theorem read_loadFromIndex_storeAtIndex (machine : Machine) {values : List UInt8}
    {x register : Register} (length : values.length = x.val + 1)
    (loaded : register.val ≤ x.val) :
    ((machine.storeAtIndex values).loadFromIndex x).registers.read register =
      values.get ⟨register.val, by omega⟩ := by
  rw [read_loadFromIndex, if_pos (Fin.le_def.mpr loaded)]
  exact machine.memory.byteAt_writeAll machine.index (by omega) _

/-- The machine after the digits of `x` were stored and `V0` to `V2` loaded.  These
hold the digits, and so do three cells of memory, one each.  All other cells and
registers are as they were, and nothing else has changed but the program counter. -/
structure HoldsDigits (machine : Machine) (x : Register) (loaded : Machine) : Prop where
  digits : ∀ register : Register, register ≤ 2 → (loaded.registers.read register).toNat ≤ 9
  value :
    100 * (loaded.registers.read 0).toNat + 10 * (loaded.registers.read 1).toNat
        + (loaded.registers.read 2).toNat =
      (machine.registers.read x).toNat
  distinct : (machine.cellsFromIndex 3).Nodup
  cells : ∀ register : Register, register ≤ 2 →
    loaded.memory.byteAt (machine.index.toNat + register.val) = loaded.registers.read register
  memory : ∀ address : Fin 4096, address.val ∉ machine.cellsFromIndex 3 →
    loaded.memory.get address = machine.memory.get address
  registers : ∀ register : Register, 2 < register →
    loaded.registers.read register = machine.registers.read register
  pc : loaded.pc.toNat = (machine.pc.toNat + 4) % 0x1000
  rest : loaded =
    { machine with
      registers := loaded.registers, memory := loaded.memory, pc := loaded.pc }

/-- The digits of every register reach `V0`, `V1` and `V2` through memory, whatever
the index. -/
theorem decimal_digits_load_back (machine : Machine) (x : Register) :
    ∃ stored loaded,
      machine.execute (.storeDecimal x) = .ok stored ∧
      stored.execute (.loadRegisters 2) = .ok loaded ∧
      HoldsDigits machine x loaded := by
  let value := machine.registers.read x
  let stored := machine.storeAtIndex (decimalDigits value)
  have stores : machine.execute (.storeDecimal x) = .ok stored := machine.execute_storeDecimal x
  have loads : stored.execute (.loadRegisters 2) = .ok (stored.loadFromIndex 2) :=
    stored.execute_loadRegisters 2
  -- What stays as it was is outside the footprints of the two instructions.
  have storing := execute_writeFootprint stores
  have loading := execute_writeFootprint loads
  have read : ∀ (register : Register) (first : register ≤ 2),
      (stored.loadFromIndex 2).registers.read register =
        (decimalDigits value).get ⟨register.val, Nat.lt_succ_of_le first⟩ :=
    fun register first => machine.read_loadFromIndex_storeAtIndex rfl first
  obtain ⟨registers, rest⟩ := stored.loadFromIndex_eq 2
  refine ⟨stored, stored.loadFromIndex 2, stores, loads, ?_⟩
  exact
    { digits := by
        intro register first
        rw [read register first]
        exact le_nine_of_mem_decimalDigits (List.get_mem _ _)
      value := by
        rw [read 0 (by decide), read 1 (by decide), read 2 (by decide)]
        exact sum_decimalDigits value
      distinct := machine.nodup_dumpAddresses 2
      cells := by
        intro register first
        rw [stored.read_loadFromIndex, if_pos first, rest]
        rfl
      memory := by
        intro address outside
        rw [loading.memory address List.not_mem_nil, storing.memory address outside]
      registers := by
        intro register later
        have unloaded : register.val ∉ List.range 3 := by
          rw [List.mem_range]
          exact Nat.not_lt.mpr later
        rw [loading.registers register unloaded, storing.registers register List.not_mem_nil]
      pc := by
        rw [loading.pc rfl, storing.pc rfl]
        change ((machine.pc.toNat + 2) % 0x1000 + 2) % 0x1000 = _
        omega
      rest := by
        rw [rest]
        rfl }

/-- The digits of 209 go around the end of memory and replace the register that they
were taken from. -/
theorem digits_around_end_load_back :
    let machine := { powerOn (.progression 0 0) with
      index := 0xFFFF, registers := Vector.replicate 16 209 }
    machine.cellsFromIndex 3 = [0xFFF, 0x000, 0x001] ∧
      ∃ stored loaded,
        machine.execute (.storeDecimal 1) = .ok stored ∧
        stored.execute (.loadRegisters 2) = .ok loaded ∧
        (loaded.registers.read 0).toNat = 2 ∧
        (loaded.registers.read 1).toNat = 0 ∧
        (loaded.registers.read 2).toNat = 9 ∧
        loaded.registers.read 3 = 209 ∧
        loaded.memory.get 0x002 = machine.memory.get 0x002 ∧
        loaded.pc.toNat = 0x204 := by
  intro machine
  have cells : machine.cellsFromIndex 3 = [0xFFF, 0x000, 0x001] := by decide
  obtain ⟨stored, loaded, stores, loads, held⟩ := machine.decimal_digits_load_back 1
  have outside : 0x002 ∉ machine.cellsFromIndex 3 := by
    rw [cells]
    decide
  -- Digits up to nine are determined by their value.
  have value : 100 * (loaded.registers.read 0).toNat + 10 * (loaded.registers.read 1).toNat
      + (loaded.registers.read 2).toNat = 209 := held.value
  have tens := held.digits 1 (by decide)
  have ones := held.digits 2 (by decide)
  exact ⟨cells, stored, loaded, stores, loads, by omega, by omega, by omega,
    held.registers 3 (by decide), held.memory 0x002 outside, held.pc⟩

end Machine

end Chip8Vm
