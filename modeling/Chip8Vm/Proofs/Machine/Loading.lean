import Chip8Vm.Proofs.ByteSource
import Chip8Vm.Proofs.Memory

/-!
# Loading from a source piece by piece

A source may hand out its bytes in pieces of any size.  Reading up to a limit
sees only the bytes and, if the pieces stay below the limit, what comes after
them.  So a load ends the same way however the bytes are cut, and a source that
would break beyond the limit is never found out.
-/

namespace Chip8Vm

theorem Memory.maxProgramSize_eq : Memory.maxProgramSize = 3584 := rfl

namespace ByteSource

/-- A source that delivers some pieces and then goes on as another one. -/
def ofPieces (pieces : List (List UInt8)) (rest : ByteSource) : ByteSource :=
  pieces.foldr .delivers rest

theorem readUpTo_zero (source : ByteSource) : source.readUpTo 0 = .ok [] := by
  cases source <;> rfl

theorem readUpTo_ended (limit : Nat) : ended.readUpTo limit = .ok [] := by
  cases limit <;> rfl

theorem readUpTo_broken {limit : Nat} (missing : 0 < limit) (reason : String) :
    (broken reason).readUpTo limit = .error reason := by
  cases limit with
  | zero => cases missing
  | succ limit => rfl

theorem readUpTo_delivers {piece : List UInt8} (nonempty : piece ≠ []) (rest : ByteSource)
    (limit : Nat) :
    (delivers piece rest).readUpTo limit =
      (rest.readUpTo (limit - piece.length)).map (piece.take limit ++ ·) := by
  obtain ⟨byte, more, rfl⟩ := List.exists_cons_of_ne_nil nonempty
  cases limit with
  | zero =>
      rw [Nat.zero_sub, readUpTo_zero, readUpTo_zero]
      rfl
  | succ limit =>
      simp only [readUpTo]
      cases rest.readUpTo (limit + 1 - (byte :: more).length) with
      | ok bytes => rfl
      | error reason => rfl

/-- Only the bytes of the pieces count, and what follows them is asked for the
bytes that are still missing. -/
theorem readUpTo_ofPieces {pieces : List (List UInt8)}
    (nonempty : ∀ piece, piece ∈ pieces → piece ≠ []) (rest : ByteSource) (limit : Nat) :
    (ofPieces pieces rest).readUpTo limit =
      (rest.readUpTo (limit - pieces.flatten.length)).map (pieces.flatten.take limit ++ ·) := by
  induction pieces generalizing limit with
  | nil =>
      change rest.readUpTo limit = _
      simp only [List.flatten_nil, List.length_nil, Nat.sub_zero, List.take_nil, List.nil_append]
      cases rest.readUpTo limit with
      | ok bytes => rfl
      | error reason => rfl
  | cons piece pieces ih =>
      have later : ofPieces (piece :: pieces) rest = delivers piece (ofPieces pieces rest) := rfl
      rw [later, readUpTo_delivers (nonempty piece List.mem_cons_self),
        ih fun other member => nonempty other (List.mem_cons_of_mem _ member), Nat.sub_sub,
        List.flatten_cons, List.length_append, List.take_append]
      cases rest.readUpTo (limit - (piece.length + pieces.flatten.length)) with
      | ok bytes => exact congrArg Except.ok (List.append_assoc _ _ _).symm
      | error reason => rfl

end ByteSource

namespace Machine

/-- The reply to a load that fails: nothing is changed and nothing is logged. -/
def refusal (machine : Machine) (failure : Failure) : Reply where
  response := .failed failure
  machine := machine
  log := []

theorem loadProgram_large (machine : Machine) {program : List UInt8}
    (large : 3584 < program.length) :
    machine.loadProgram program =
      machine.refusal (.programTooLarge program.length 3584) := by
  unfold loadProgram
  rw [Memory.maxProgramSize_eq, if_neg (Nat.not_le.mpr large)]
  rfl

theorem loadProgram_fitting (machine : Machine) {program : List UInt8}
    (fits : program.length ≤ 3584) :
    (machine.loadProgram program).response = .done ∧
      ∀ offset : Fin program.length,
        (machine.loadProgram program).machine.memory.byteAt (0x200 + offset) =
          program.get offset := by
  unfold loadProgram
  rw [Memory.maxProgramSize_eq, if_pos fits]
  refine ⟨rfl, fun offset => ?_⟩
  exact machine.memory.byteAt_writeAll Memory.programStart (by omega) offset.isLt

section Pieces

variable (machine : Machine) {pieces : List (List UInt8)}
  (nonempty : ∀ piece, piece ∈ pieces → piece ≠ [])

include nonempty

theorem loadRom_ofPieces (rest : ByteSource) :
    machine.loadRom (.ofPieces pieces rest) =
      match rest.readUpTo (3585 - pieces.flatten.length) with
      | .ok more => machine.loadProgram (pieces.flatten.take 3585 ++ more)
      | .error reason => machine.refusal (.unreadable reason) := by
  unfold loadRom
  rw [Memory.maxProgramSize_eq, ByteSource.readUpTo_ofPieces nonempty]
  cases rest.readUpTo (3585 - pieces.flatten.length) with
  | ok more => rfl
  | error reason => rfl

theorem loadRom_ended (fits : pieces.flatten.length ≤ 3584) :
    machine.loadRom (.ofPieces pieces .ended) = machine.loadProgram pieces.flatten := by
  rw [loadRom_ofPieces machine nonempty, ByteSource.readUpTo_ended]
  simp only [List.append_nil]
  rw [List.take_of_length_le (by omega)]

theorem loadRom_broken (fits : pieces.flatten.length ≤ 3584) (reason : String) :
    machine.loadRom (.ofPieces pieces (.broken reason)) =
      machine.refusal (.unreadable reason) := by
  rw [loadRom_ofPieces machine nonempty, ByteSource.readUpTo_broken (by omega)]

/-- The limit is reached within the pieces, so the rest is not asked. -/
theorem loadRom_large (large : 3584 < pieces.flatten.length) (rest : ByteSource) :
    machine.loadRom (.ofPieces pieces rest) =
      machine.refusal (.programTooLarge 3585 3584) := by
  have size : (pieces.flatten.take 3585).length = 3585 := by
    rw [List.length_take]
    omega
  rw [loadRom_ofPieces machine nonempty, Nat.sub_eq_zero_of_le large, ByteSource.readUpTo_zero]
  simp only [List.append_nil]
  rw [loadProgram_large machine (by omega), size]

end Pieces

/-- However a source cuts a program into pieces, the load succeeds exactly when the
program fits, and then it is the load of the program itself with every byte in its
place.  A source that breaks after bytes that fit passes its reason on.  More than
fits is refused with the size of one byte more, whatever would come after it: an
end, a failure or more bytes. -/
theorem rom_loads_however_delivered (machine : Machine) {program : List UInt8}
    {pieces : List (List UInt8)} (whole : pieces.flatten = program)
    (nonempty : ∀ piece, piece ∈ pieces → piece ≠ []) :
    ((machine.loadRom (.ofPieces pieces .ended)).response = .done ↔ program.length ≤ 3584) ∧
      (program.length ≤ 3584 →
        machine.loadRom (.ofPieces pieces .ended) = machine.loadProgram program ∧
          (∀ offset : Fin program.length,
            (machine.loadProgram program).machine.memory.byteAt (0x200 + offset) =
              program.get offset) ∧
          ∀ reason, machine.loadRom (.ofPieces pieces (.broken reason)) =
            machine.refusal (.unreadable reason)) ∧
      (3584 < program.length → ∀ rest,
        machine.loadRom (.ofPieces pieces rest) =
          machine.refusal (.programTooLarge 3585 3584)) := by
  subst whole
  refine ⟨?_, ?_, machine.loadRom_large nonempty⟩
  · rcases Nat.lt_or_ge 3584 pieces.flatten.length with large | fits
    · rw [machine.loadRom_large nonempty large]
      exact iff_of_false nofun (Nat.not_le.mpr large)
    · rw [machine.loadRom_ended nonempty fits]
      exact iff_of_true (machine.loadProgram_fitting fits).1 fits
  · intro fits
    exact ⟨machine.loadRom_ended nonempty fits, (machine.loadProgram_fitting fits).2,
      machine.loadRom_broken nonempty fits⟩

/-- A source that breaks after 3585 bytes, the last of them alone in its piece, and
one that breaks after two. -/
theorem break_past_limit_unseen :
    let machine := powerOn (.progression 0 0)
    let long := [List.replicate 3584 0x12, [0x34]]
    let short := [[0x12], [0x34]]
    machine.loadRom (.ofPieces long (.broken "disk lost")) =
        machine.refusal (.programTooLarge 3585 3584) ∧
      machine.loadRom (.ofPieces short (.broken "disk lost")) =
        machine.refusal (.unreadable "disk lost") := by
  intro machine long short
  have nonempty : ∀ piece, piece ∈ long → piece ≠ [] := by
    intro piece member
    apply List.ne_nil_of_length_pos
    rcases List.mem_cons.mp member with rfl | last
    · rw [List.length_replicate]
      decide
    · rw [List.mem_singleton.mp last]
      decide
  have size : long.flatten.length = 3585 := by
    rw [List.flatten_cons, List.length_append, List.length_replicate]
    rfl
  have past := rom_loads_however_delivered machine rfl nonempty
  have within := rom_loads_however_delivered machine rfl (by decide : ∀ piece ∈ short, piece ≠ [])
  exact ⟨past.2.2 (by omega) _, (within.2.1 (by decide)).2.2 _⟩

end Machine

end Chip8Vm
