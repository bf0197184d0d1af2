import Chip8Vm.Proofs.Machine.Demand

/-!
# Results and their flags

Six instructions put a flag into `VF` beside their result.  The flag holds what
the result has no room for: the carry of a sum, whether a difference had to
borrow, the bit that a shift loses, the index leaving memory.  Result and flag
together therefore satisfy an exact equation with the operands.  The flag is
written before the result, so a result in `VF` is what remains there; the sum of
the index goes elsewhere and leaves the flag in place.
-/

namespace Chip8Vm

/-! ## Bytes and the bit beside them -/

section Bytes

variable (left right : UInt8)

theorem toNat_add_carry :
    (left + right).toNat + 256 * (decide (0x100 ≤ left.toNat + right.toNat)).toNat =
      left.toNat + right.toNat := by
  have leftBound := left.toNat_lt
  have rightBound := right.toNat_lt
  rw [UInt8.toNat_add]
  by_cases carry : 0x100 ≤ left.toNat + right.toNat
  · rw [decide_eq_true carry, Bool.toNat_true]
    omega
  · rw [decide_eq_false carry, Bool.toNat_false]
    omega

theorem toNat_sub_wrapped :
    (left - right).toNat = (left.toNat + 256 - right.toNat) % 256 := by
  have rightBound := right.toNat_lt
  rw [UInt8.toNat_sub]
  omega

theorem toNat_sub_borrow :
    (left - right).toNat + right.toNat =
      left.toNat + 256 * (1 - (decide (right ≤ left)).toNat) := by
  have leftBound := left.toNat_lt
  have rightBound := right.toNat_lt
  rw [toNat_sub_wrapped]
  by_cases covered : right ≤ left
  · have order := UInt8.le_iff_toNat_le.mp covered
    rw [decide_eq_true covered, Bool.toNat_true]
    omega
  · have order : ¬right.toNat ≤ left.toNat := fun le => covered (UInt8.le_iff_toNat_le.mpr le)
    rw [decide_eq_false covered, Bool.toNat_false]
    omega

theorem toNat_half_bit :
    2 * (left / 2).toNat + (decide (left.toNat % 2 = 1)).toNat = left.toNat := by
  have half : (left / 2).toNat = left.toNat / 2 := UInt8.toNat_div left 2
  by_cases odd : left.toNat % 2 = 1
  · rw [decide_eq_true odd, Bool.toNat_true]
    omega
  · rw [decide_eq_false odd, Bool.toNat_false]
    omega

theorem toNat_double_bit :
    (left + left).toNat + 256 * (decide (0x80 ≤ left.toNat)).toNat = 2 * left.toNat := by
  -- The high bit is the carry of the sum with itself.
  have carry : decide (0x80 ≤ left.toNat) = decide (0x100 ≤ left.toNat + left.toNat) :=
    decide_eq_decide.mpr (by omega)
  rw [carry, toNat_add_carry, Nat.two_mul]

end Bytes

theorem toNat_toUInt8 (flagged : Bool) : flagged.toUInt8.toNat = flagged.toNat := by
  cases flagged <;> rfl

theorem toUInt8_eq_zero_or_one (flagged : Bool) :
    flagged.toUInt8 = 0 ∨ flagged.toUInt8 = 1 := by
  cases flagged
  · exact .inl rfl
  · exact .inr rfl

namespace Machine

/-! ## What the instructions leave behind -/

/-- The machine after an instruction with a result in `x` and a flag in `VF`.  The
two numbers are `Balanced`, and the flag is a bit; if `x` is `VF` itself, it holds
the result.  Nothing else has changed but the program counter. -/
structure LeavesFlagged (machine : Machine) (x : Register) (Balanced : Nat → Nat → Prop)
    (result : Nat) (next : Machine) : Prop where
  balanced : x ≠ Registers.flag →
    Balanced (next.registers.read x).toNat (next.registers.read Registers.flag).toNat
  bit : x ≠ Registers.flag →
    next.registers.read Registers.flag = 0 ∨ next.registers.read Registers.flag = 1
  remains : x = Registers.flag → (next.registers.read Registers.flag).toNat = result
  others : ∀ register, register ≠ x → register ≠ Registers.flag →
    next.registers.read register = machine.registers.read register
  pc : next.pc.toNat = (machine.pc.toNat + 2) % 0x1000
  rest : next = { machine with registers := next.registers, pc := next.pc }

/-- The machine after `x` was added to the index.  Index and flag account for the
whole sum, also if `x` is `VF` itself.  No other register has changed. -/
structure LeavesIndexSum (machine : Machine) (x : Register) (next : Machine) : Prop where
  balanced : next.index.toNat + 4096 * (next.registers.read Registers.flag).toNat =
    machine.index.toNat + (machine.registers.read x).toNat
  bit : next.registers.read Registers.flag = 0 ∨ next.registers.read Registers.flag = 1
  inside : next.index.toNat ≤ 0xFFF
  others : ∀ register, register ≠ Registers.flag →
    next.registers.read register = machine.registers.read register
  pc : next.pc.toNat = (machine.pc.toNat + 2) % 0x1000
  rest : next =
    { machine with index := next.index, registers := next.registers, pc := next.pc }

theorem setFlagged_leaves (machine : Machine) (x : Register) {flagged : Bool} {value : UInt8}
    {Balanced : Nat → Nat → Prop} {result : Nat}
    (balanced : Balanced value.toNat flagged.toNat) (held : value.toNat = result) :
    LeavesFlagged machine x Balanced result (machine.setFlagged x flagged value) := by
  have read : ∀ register, (machine.setFlagged x flagged value).registers.read register =
      if x = register then value
      else if Registers.flag = register then flagged.toUInt8
      else machine.registers.read register :=
    fun register => machine.registers.read_writeFlagged x register flagged value
  refine ⟨?_, ?_, ?_, ?_, toNat_following machine.pc, rfl⟩
  · intro apart
    rw [read, read, if_pos rfl, if_neg apart, if_pos rfl, toNat_toUInt8]
    exact balanced
  · intro apart
    rw [read, if_neg apart, if_pos rfl]
    exact toUInt8_eq_zero_or_one flagged
  · intro same
    rw [read, if_pos same]
    exact held
  · intro register notResult notFlag
    rw [read, if_neg notResult.symm, if_neg notFlag.symm]

theorem setIndexSum_leaves {machine : Machine} {x : Register} {sum : Nat}
    (inside : machine.index.toNat ≤ 0xFFF)
    (total : sum = machine.index.toNat + (machine.registers.read x).toNat) :
    LeavesIndexSum machine x (machine.setIndexSum sum) := by
  have byte := (machine.registers.read x).toNat_lt
  have read : ∀ register, (machine.setIndexSum sum).registers.read register =
      if Registers.flag = register then (decide (0x1000 ≤ sum)).toUInt8
      else machine.registers.read register :=
    fun register => machine.registers.read_write Registers.flag register _
  have index : (machine.setIndexSum sum).index.toNat = sum % 4096 := by
    refine (Memory.toNat_wrap (UInt16.ofNat sum)).trans ?_
    rw [UInt16.toNat_ofNat']
    omega
  refine ⟨?_, ?_, ?_, ?_, toNat_following machine.pc, rfl⟩
  · rw [read, if_pos rfl, toNat_toUInt8, index]
    by_cases outside : 0x1000 ≤ sum
    · rw [decide_eq_true outside, Bool.toNat_true]
      omega
    · rw [decide_eq_false outside, Bool.toNat_false]
      omega
  · rw [read, if_pos rfl]
    exact toUInt8_eq_zero_or_one _
  · omega
  · intro register notFlag
    rw [read, if_neg notFlag.symm]

/-! ## The instructions -/

section Instructions

variable (machine : Machine) (x y : Register)

theorem execute_add :
    machine.execute (.add x y) = .ok (machine.addRegisters x y) := by
  simp only [execute, register_of_lt x.isLt, register_of_lt y.isLt]
  rfl

theorem execute_sub :
    machine.execute (.sub x y) =
      .ok (machine.setDifference x (machine.registers.read x) (machine.registers.read y)) := by
  simp only [execute, register_of_lt x.isLt, register_of_lt y.isLt]
  rfl

theorem execute_subFrom :
    machine.execute (.subFrom x y) =
      .ok (machine.setDifference x (machine.registers.read y) (machine.registers.read x)) := by
  simp only [execute, register_of_lt x.isLt, register_of_lt y.isLt]
  rfl

theorem execute_shiftRight : machine.execute (.shiftRight x) = .ok (machine.halve x) := by
  simp only [execute, register_of_lt x.isLt]
  rfl

theorem execute_shiftLeft : machine.execute (.shiftLeft x) = .ok (machine.double x) := by
  simp only [execute, register_of_lt x.isLt]
  rfl

theorem execute_addIndex (inside : machine.index.toNat ≤ 0xFFF) :
    machine.execute (.addIndex x) =
      .ok (machine.setIndexSum
        (machine.index.toNat + (machine.registers.read x).toNat)) := by
  have byte := (machine.registers.read x).toNat_lt
  have fits : machine.index.toNat + (machine.registers.read x).toNat < 0x10000 := by omega
  simp only [execute, register_of_lt x.isLt]
  simp [bind, Except.bind, addressSum, fits, pure, Except.pure]

end Instructions

/-- Flags of sums, differences and shifts, for all registers, equal ones and `VF`
included.  Every number on the right is that of the machine before. -/
theorem flags_account_for_results (machine : Machine) (x y : Register) :
    let left := (machine.registers.read x).toNat
    let right := (machine.registers.read y).toNat
    (∃ next, machine.execute (.add x y) = .ok next ∧
        LeavesFlagged machine x (fun result flag => result + 256 * flag = left + right)
          ((left + right) % 256) next) ∧
      (∃ next, machine.execute (.sub x y) = .ok next ∧
        LeavesFlagged machine x
          (fun result flag => result + right = left + 256 * (1 - flag))
          ((left + 256 - right) % 256) next) ∧
      (∃ next, machine.execute (.subFrom x y) = .ok next ∧
        LeavesFlagged machine x
          (fun result flag => result + left = right + 256 * (1 - flag))
          ((right + 256 - left) % 256) next) ∧
      (∃ next, machine.execute (.shiftRight x) = .ok next ∧
        LeavesFlagged machine x (fun result flag => 2 * result + flag = left)
          (left / 2) next) ∧
      (∃ next, machine.execute (.shiftLeft x) = .ok next ∧
        LeavesFlagged machine x (fun result flag => result + 256 * flag = 2 * left)
          (2 * left % 256) next) ∧
      (machine.index.toNat ≤ 0xFFF →
        ∃ next, machine.execute (.addIndex x) = .ok next ∧ LeavesIndexSum machine x next) := by
  intro left right
  refine ⟨?_, ?_, ?_, ?_, ?_, ?_⟩
  · exact ⟨_, machine.execute_add x y,
      machine.setFlagged_leaves x (toNat_add_carry _ _) (UInt8.toNat_add _ _)⟩
  · exact ⟨_, machine.execute_sub x y,
      machine.setFlagged_leaves x (toNat_sub_borrow _ _) (toNat_sub_wrapped _ _)⟩
  · exact ⟨_, machine.execute_subFrom x y,
      machine.setFlagged_leaves x (toNat_sub_borrow _ _) (toNat_sub_wrapped _ _)⟩
  · exact ⟨_, machine.execute_shiftRight x,
      machine.setFlagged_leaves x (toNat_half_bit _) (UInt8.toNat_div _ _)⟩
  · refine ⟨_, machine.execute_shiftLeft x,
      machine.setFlagged_leaves x (toNat_double_bit _) ?_⟩
    rw [UInt8.toNat_add, Nat.two_mul]
  · intro inside
    exact ⟨_, machine.execute_addIndex x inside, setIndexSum_leaves inside rfl⟩

/-- The flag register holds 200 and is doubled, taken from zero and added to the last
address of memory. -/
theorem flag_register_accounted_for :
    let machine := { powerOn (.progression 0 0) with
      index := 0xFFF, registers := Registers.zero.write Registers.flag 200 }
    (∃ next, machine.execute (.add Registers.flag Registers.flag) = .ok next ∧
        (next.registers.read Registers.flag).toNat = 144) ∧
      (∃ next, machine.execute (.sub 0 Registers.flag) = .ok next ∧
        (next.registers.read 0).toNat + 200 =
          256 * (1 - (next.registers.read Registers.flag).toNat)) ∧
      machine.index.toNat ≤ 0xFFF ∧
      ∃ next, machine.execute (.addIndex Registers.flag) = .ok next ∧
        next.index.toNat + 4096 * (next.registers.read Registers.flag).toNat = 4295 := by
  intro machine
  have inside : machine.index.toNat ≤ 0xFFF := by decide
  have held : (machine.registers.read Registers.flag).toNat = 200 := by decide
  obtain ⟨⟨doubled, doubles, sum⟩, -, -, -, -, indexed⟩ :=
    machine.flags_account_for_results Registers.flag Registers.flag
  obtain ⟨-, ⟨taken, takes, difference⟩, -⟩ :=
    machine.flags_account_for_results 0 Registers.flag
  obtain ⟨moved, moves, index⟩ := indexed inside
  refine ⟨⟨doubled, doubles, ?_⟩, ⟨taken, takes, ?_⟩, inside, moved, moves, ?_⟩
  · rw [sum.remains rfl, held]
  · have balanced := difference.balanced (by decide)
    rw [held] at balanced
    simpa [machine, Registers.zero, Registers.read, Registers.write, Registers.flag]
      using balanced
  · rw [index.balanced, held]
    rfl

end Machine

end Chip8Vm
