import Chip8Vm.Proofs.Machine.Demand

/-!
# Bounds of a running machine

From power-on the program counter, the index, the depth of the call stack and
every slot of it stay within their bounds, whatever operations are performed
and however they end.  Within these bounds no operation has an unmet demand:
the bound of the index protects the sum of an index and a register, that of
the program counter the word passed over and the slots of the call stack, and
the decoder the numbers of the registers.
-/

namespace Chip8Vm

namespace CallStack

theorem push?_eq_some {stack pushed : CallStack} {address : Word}
    (taken : stack.push? address = some pushed) :
    ∃ free : stack.depth.toNat < 16,
      pushed.slots = stack.slots.set stack.depth.toNat address ∧
        pushed.depth.toNat = stack.depth.toNat + 1 := by
  unfold push? at taken
  split at taken
  · rename_i free
    cases taken
    refine ⟨free, rfl, ?_⟩
    simp [UInt8.toNat_add]
    omega
  · cases taken

theorem toNat_depth_pop {stack : CallStack} (used : stack.depth ≠ 0) :
    stack.pop.depth.toNat + 1 = stack.depth.toNat := by
  have positive : stack.depth.toNat ≠ 0 := fun zero => used (UInt8.toNat_inj.mp zero)
  have one : (1 : UInt8) ≤ stack.depth := UInt8.le_iff_toNat_le.mpr (by simp; omega)
  simp only [pop, UInt8.toNat_sub_of_le _ _ one, UInt8.toNat_one]
  omega

end CallStack

namespace Machine

/-- The ranges that the registers of control never leave. -/
structure Bounded (machine : Machine) : Prop where
  pc : machine.pc.toNat ≤ 0xFFF
  index : machine.index.toNat ≤ 0xFFF
  depth : machine.stack.depth.toNat ≤ 16
  slots : ∀ position : Fin 16, (machine.stack.slots[position]).toNat ≤ 0xFFF

theorem powerOn_bounded (random : RandomStream) : (powerOn random).Bounded := by
  constructor
  · exact (by decide : Memory.programStart.toNat ≤ 0xFFF)
  · exact (by decide : (0 : Word).toNat ≤ 0xFFF)
  · exact (by decide : CallStack.empty.depth.toNat ≤ 16)
  · intro position
    simp [powerOn, CallStack.empty]

theorem Bounded.congr {machine next : Machine} (bounded : machine.Bounded)
    (pc : next.pc = machine.pc) (index : next.index = machine.index)
    (stack : next.stack = machine.stack) : next.Bounded := by
  obtain ⟨pcBound, indexBound, depthBound, slotBounds⟩ := bounded
  refine ⟨?_, ?_, ?_, ?_⟩
  · rw [pc]
    exact pcBound
  · rw [index]
    exact indexBound
  · rw [stack]
    exact depthBound
  · rw [stack]
    exact slotBounds

theorem Footprint.bounded {machine next : Machine} {instruction : Instruction}
    (footprint : Footprint machine instruction next) (bounded : machine.Bounded) :
    next.Bounded := by
  have pcBound : next.pc.toNat ≤ 0xFFF := Nat.le_of_lt_succ footprint.pc
  have indexBound : next.index.toNat ≤ 0xFFF := by
    rcases footprint.index with kept | small
    · rw [kept]
      exact bounded.index
    · exact Nat.le_of_lt_succ small
  rcases footprint.stack_cases with ⟨-, kept⟩ | ⟨nnn, -, taken⟩ | ⟨-, used, popped⟩
  · refine ⟨pcBound, indexBound, ?_, ?_⟩
    · rw [kept]
      exact bounded.depth
    · rw [kept]
      exact bounded.slots
  · obtain ⟨free, slots, depth⟩ := CallStack.push?_eq_some taken
    refine ⟨pcBound, indexBound, by omega, ?_⟩
    intro position
    rw [slots]
    by_cases written : machine.stack.depth.toNat = position.val
    · simpa [written] using bounded.pc
    · simpa [Vector.getElem_set_ne _ _ written] using bounded.slots position
  · refine ⟨pcBound, indexBound, ?_, ?_⟩
    · have lowered := CallStack.toNat_depth_pop used
      have depthBound := bounded.depth
      rw [popped]
      omega
    · rw [popped]
      exact bounded.slots

theorem Outcome.bounded {machine next : Machine} {response : Response}
    (outcome : Outcome machine response next) (bounded : machine.Bounded) : next.Bounded := by
  cases outcome with
  | executed decoded result => exact (execute_footprint result).bounded bounded
  | stopped decoded result => exact bounded
  | skipped undecoded fits =>
      refine ⟨?_, bounded.index, bounded.depth, bounded.slots⟩
      exact Nat.le_of_lt_succ (Memory.toNat_wrap_lt _)
  | lost undecoded overflow => exact bounded

theorem Transition.bounded {machine next : Machine} {operation : Operation}
    {response : Response} (transition : Transition machine operation response next)
    (bounded : machine.Bounded) : next.Bounded := by
  cases transition with
  | reset isReset => exact powerOn_bounded machine.random
  | turn isTurn timers => exact (machine.cycle_outcome.bounded bounded).congr rfl rfl rfl
  | outside isOutside answered memory keypad timers redraw flag =>
      exact bounded.congr rfl rfl rfl

theorem perform_bounded (machine : Machine) (operation : Operation)
    (bounded : machine.Bounded) : (machine.perform operation).machine.Bounded :=
  (machine.perform_transition operation).bounded bounded

/-! ## Bounded machines have no unmet demand -/

theorem not_unmet_registers {instruction : Instruction} (fits : instruction.Fits) :
    ¬Unmet (registerDemands instruction) := by
  intro ⟨demand, member, unmet⟩
  obtain ⟨number, operand, rfl⟩ := List.mem_map.mp member
  exact unmet (fits.operands number operand)

theorem not_unmet_demands {machine : Machine} {instruction : Instruction}
    (fits : instruction.Fits) (bounded : machine.Bounded) :
    ¬Unmet (machine.demands instruction) := by
  have registers := not_unmet_registers fits
  -- The bounds are needed for the return, the sum with the index and nothing
  -- else; everywhere else the ranges of the operands suffice.
  cases instruction
  case ret =>
      have depthBound := bounded.depth
      rw [← execute_faults_iff, execute, faults_leave_iff]
      omega
  case call nnn =>
      rw [← execute_faults_iff]
      exact not_faults_enter machine nnn
  case jumpFrom nnn =>
      have address : nnn.toNat < 0x1000 := fits.address nnn rfl
      have byte := (machine.contents 0).toNat_lt
      simp [demands]
      omega
  case addIndex x =>
      have indexBound := bounded.index
      have byte := (machine.contents x).toNat_lt
      have valid : x < 16 := fits.operands x (by simp [Instruction.operands])
      simp [demands, valid]
      omega
  case loadGlyph x =>
      have byte := (machine.contents x).toNat_lt
      have valid : x < 16 := fits.operands x (by simp [Instruction.operands])
      simp [demands, valid, Glyph.height, Glyph.sheetStart]
      omega
  case waitKey x =>
      simp only [demands]
      split
      · exact unmet_nil
      · exact registers
  case skipIfKey x | skipUnlessKey x =>
      have named : (machine.contents x).toNat % 16 < 16 := Nat.mod_lt _ (by decide)
      have valid : x < 16 := fits.operands x (by simp [Instruction.operands])
      simp [demands, valid, Keypad.count, named]
  case draw x y n =>
      simp only [demands, unmet_append, not_unmet_memory, not_unmet_pixels, or_false]
      exact registers
  case storeDecimal x | storeRegisters x | loadRegisters x =>
      have valid : x < 16 := fits.operands x (by simp [Instruction.operands])
      simp [demands, valid]
  all_goals exact registers

theorem not_unmet_cycle {machine : Machine} (bounded : machine.Bounded) :
    ¬Unmet machine.cycleDemands := by
  unfold cycleDemands
  rw [unmet_append, or_iff_right (not_unmet_memory machine.pc 2)]
  split
  · rename_i instruction decoded
    exact not_unmet_demands (Instruction.decode?_spelledBy decoded).fits bounded
  · have pcBound := bounded.pc
    simp
    omega

theorem not_unmet_operation {machine : Machine} (bounded : machine.Bounded)
    (operation : Operation) : ¬Unmet (machine.operationDemands operation) := by
  by_cases turn : operation = .cycle ∨ operation = .step
  · rcases turn with rfl | rfl
    · exact not_unmet_cycle bounded
    · exact not_unmet_cycle bounded
  · exact machine.not_unmet_outside turn

theorem after_bounded (random : RandomStream) (operations : List Operation) :
    ((powerOn random).after operations).Bounded :=
  after_invariant perform_bounded (powerOn_bounded random) operations

/-- Along every run from power-on the bounds hold before and after each
operation, the operation's demands are met and it does not end in a fault. -/
theorem run_stays_within_bounds (random : RandomStream) (operations : List Operation)
    (operation : Operation) :
    let machine := (powerOn random).after operations
    let reply := machine.perform operation
    machine.Bounded ∧ reply.machine.Bounded ∧
      (∀ demand, demand ∈ machine.operationDemands operation → demand.Met) ∧
      ∀ fault, reply.response ≠ .faulted fault := by
  intro machine reply
  have bounded : machine.Bounded := after_bounded random operations
  have met : ¬Unmet (machine.operationDemands operation) :=
    not_unmet_operation bounded operation
  refine ⟨bounded, perform_bounded machine operation bounded, ?_, ?_⟩
  · intro demand member
    exact Classical.byContradiction fun unmet => met ⟨demand, member, unmet⟩
  · intro fault faulted
    exact met ((perform_faulted_iff machine operation).mp ⟨fault, faulted⟩)

end Machine

end Chip8Vm
