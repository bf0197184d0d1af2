import Chip8Vm.Machine.Program

/-!
# The content of a byte source

A source that ends has a content, its pieces one after the other.  Reading up
to a limit finds the content of a source if it stays below the limit, however
the content is cut into pieces.
-/

namespace Chip8Vm

namespace ByteSource

/-- All bytes of a source, or why it breaks before its end. -/
def content : ByteSource → Except String (List UInt8)
  | .ended => .ok []
  | .broken reason => .error reason
  | .delivers [] _ => .ok []
  | .delivers piece rest =>
      match rest.content with
      | .ok bytes => .ok (piece ++ bytes)
      | .error reason => .error reason

theorem content_delivers_eq_ok {byte : UInt8} {piece bytes : List UInt8} {rest : ByteSource}
    (whole : (delivers (byte :: piece) rest).content = .ok bytes) :
    ∃ more, rest.content = .ok more ∧ bytes = byte :: piece ++ more := by
  simp only [content] at whole
  split at whole
  · rename_i more ends
    cases whole
    exact ⟨more, ends, rfl⟩
  · cases whole

theorem readUpTo_of_content {source : ByteSource} {bytes : List UInt8}
    (whole : source.content = .ok bytes) (limit : Nat) :
    source.readUpTo limit = .ok (bytes.take limit) := by
  induction source generalizing bytes limit with
  | ended =>
      cases whole
      cases limit <;> simp [readUpTo]
  | broken reason => cases whole
  | delivers piece rest ih =>
      cases limit with
      | zero => simp [readUpTo]
      | succ limit =>
          cases piece with
          | nil =>
              cases whole
              simp [readUpTo]
          | cons byte piece =>
              obtain ⟨more, ends, rfl⟩ := content_delivers_eq_ok whole
              simp only [readUpTo, ih ends]
              rw [List.take_append]

theorem content_of_readUpTo {source : ByteSource} {bytes : List UInt8} {limit : Nat}
    (read : source.readUpTo limit = .ok bytes) (below : bytes.length < limit) :
    source.content = .ok bytes := by
  induction source generalizing bytes limit with
  | ended =>
      cases limit with
      | zero => omega
      | succ limit => exact read
  | broken reason =>
      cases limit with
      | zero => omega
      | succ limit => exact read
  | delivers piece rest ih =>
      cases limit with
      | zero => omega
      | succ limit =>
          cases piece with
          | nil => exact read
          | cons byte piece =>
              simp only [readUpTo] at read
              split at read
              · rename_i more readRest
                cases read
                simp only [List.length_append, List.length_take, List.length_cons] at below
                have short : (byte :: piece).length ≤ limit + 1 := by
                  simp only [List.length_cons]
                  omega
                have ends := ih readRest (by simp only [List.length_cons]; omega)
                simp only [content, ends]
                rw [List.take_of_length_le short]
              · cases read

end ByteSource

namespace Machine

theorem loadRom_of_content {source : ByteSource} {program : List UInt8}
    (whole : source.content = .ok program) (fits : program.length ≤ Memory.maxProgramSize)
    (machine : Machine) : machine.loadRom source = machine.loadProgram program := by
  unfold loadRom
  rw [ByteSource.readUpTo_of_content whole, List.take_of_length_le (Nat.le_succ_of_le fits)]

/-- A program is loaded from a source only when it is the whole content. -/
theorem content_of_loadRom {machine : Machine} {source : ByteSource}
    (loaded : (machine.loadRom source).response = .done) :
    ∃ program, source.content = .ok program ∧
      program.length ≤ Memory.maxProgramSize := by
  unfold loadRom at loaded
  split at loaded
  · rename_i program read
    unfold loadProgram at loaded
    split at loaded
    · rename_i fits
      exact ⟨program, ByteSource.content_of_readUpTo read (Nat.lt_succ_of_le fits), fits⟩
    · cases loaded
  · cases loaded

end Machine

end Chip8Vm
