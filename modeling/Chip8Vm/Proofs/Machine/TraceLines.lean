import Chip8Vm.Proofs.Instruction.Assembly
import Chip8Vm.Proofs.Machine.CycleContract
import Chip8Vm.Proofs.Text.Column

/-!
# Trace lines

A cycle logs one line.  The bounds of a running machine hold the program counter
and the index to three digits, and the decoder holds every mnemonic to its column,
so the fields of a trace line stand at fixed places and can be read off it: two
machines that log the same trace line agree on all that the line shows.
-/

namespace Chip8Vm

namespace Instruction

/-! ## The lengths of mnemonics -/

theorem length_twoOperands (operation left right : String) :
    (twoOperands operation left right).length =
      operation.length + left.length + right.length + 3 := by
  have blank : " ".length = 1 := rfl
  have comma : ", ".length = 2 := rfl
  simp only [twoOperands, String.length_append, blank, comma]
  omega

theorem length_registerName {number : Nat} (fits : number < 16) :
    (registerName number).length = 2 := by
  rw [registerName, String.length_append, Numeral.length_hex (by omega)]
  rfl

theorem length_byteText (value : UInt8) : (byteText value).length = 4 := by
  rw [byteText, Numeral.hexLiteral, String.length_append, Numeral.length_hex value.toNat_lt]
  rfl

theorem length_addressText {address : Word} (fits : address.toNat < 0x1000) :
    (addressText address).length = 5 := by
  rw [addressText, Numeral.hexLiteral, String.length_append, Numeral.length_hex (by omega)]
  rfl

theorem length_mnemonic_le {instruction : Instruction} (fits : instruction.Fits) :
    instruction.mnemonic.length ≤ 16 := by
  cases instruction
  case clearScreen | ret => decide
  case jump nnn | call nnn =>
      have address : nnn.toNat < 0x1000 := fits.address nnn rfl
      rw [mnemonic, String.length_append, length_addressText address]
      decide
  case loadIndex nnn | jumpFrom nnn =>
      have address : nnn.toNat < 0x1000 := fits.address nnn rfl
      rw [mnemonic, length_twoOperands, length_addressText address]
      decide
  case shiftRight x | shiftLeft x | skipIfKey x | skipUnlessKey x =>
      have xFits : x < 16 := fits.operands x (by simp [operands])
      rw [mnemonic, String.length_append, length_registerName xFits]
      decide
  case skipIfByte x nn | skipUnlessByte x nn | loadByte x nn | addByte x nn | random x nn =>
      have xFits : x < 16 := fits.operands x (by simp [operands])
      rw [mnemonic, length_twoOperands, length_registerName xFits, length_byteText]
      decide
  case readDelay x | waitKey x | loadRegisters x | setDelay x | setSound x | addIndex x
      | loadGlyph x | storeDecimal x | storeRegisters x =>
      have xFits : x < 16 := fits.operands x (by simp [operands])
      rw [mnemonic, length_twoOperands, length_registerName xFits]
      decide
  case skipIfSame x y | skipUnlessSame x y | copy x y | or x y | and x y | xor x y | add x y
      | sub x y | subFrom x y =>
      have xFits : x < 16 := fits.operands x (by simp [operands])
      have yFits : y < 16 := fits.operands y (by simp [operands])
      rw [mnemonic, length_twoOperands, length_registerName xFits, length_registerName yFits]
      decide
  case draw x y n =>
      have xFits : x < 16 := fits.operands x (by simp [operands])
      have yFits : y < 16 := fits.operands y (by simp [operands])
      have rows : n.toNat < 0x10 := fits.rows n rfl
      have count : (Numeral.decimal n.toNat).length ≤ 2 := Numeral.length_decimal_le (by omega)
      have operation : "DRW".length = 3 := rfl
      have comma : ", ".length = 2 := rfl
      rw [mnemonic, String.length_append, String.length_append, length_twoOperands,
        length_registerName xFits, length_registerName yFits, operation, comma]
      omega

end Instruction

/-! ## The columns of a trace line -/

theorem length_leftAligned {width : Nat} {text : String} (fits : text.length ≤ width) :
    (leftAligned width text).length = width := by
  rw [leftAligned, String.length_append, String.length_ofList, List.length_replicate]
  omega

namespace Registers

/-- The registers as two digits each. -/
def texts (registers : Registers) : List String :=
  registers.toList.map fun value => Numeral.hex 2 value.toNat

variable (registers : Registers)

theorem length_of_mem_texts {text : String} (member : text ∈ registers.texts) :
    text.length = 2 := by
  obtain ⟨value, -, rfl⟩ := List.mem_map.mp member
  exact Numeral.length_hex value.toNat_lt

theorem length_texts : registers.texts.length = 16 := by
  rw [texts, List.length_map, Vector.length_toList]

theorem length_intercalate_texts : (", ".intercalate registers.texts).length = 62 := by
  have nonempty : registers.texts ≠ [] := by
    intro empty
    have length := registers.length_texts
    rw [empty] at length
    cases length
  have whole := length_intercalate ", " registers.texts
    (fun _ => registers.length_of_mem_texts) nonempty
  have comma : ", ".length = 2 := rfl
  rw [length_texts, comma] at whole
  omega

theorem getElem?_texts (register : Register) :
    registers.texts[register.val]? = some (Numeral.hex 2 (registers.read register).toNat) := by
  simp [texts, read]

theorem column_texts (register : Register) :
    column (", ".intercalate registers.texts) (4 * register) 2 =
      Numeral.hex 2 (registers.read register).toNat := by
  apply column_intercalate ", "
  · intro text member
    exact registers.length_of_mem_texts member
  · exact registers.getElem?_texts register

end Registers

namespace Trace

/-- The ranges in which every field of a trace has its width. -/
structure Bounded (trace : Trace) : Prop where
  pc : trace.pc.toNat < 0x1000
  mnemonic : trace.instruction.mnemonic.length ≤ 16
  index : trace.index.toNat < 0x1000

/-- The pieces of a trace line before the depth of the call stack. -/
def pieces (trace : Trace) : List String :=
  ["TRACE", " ", Numeral.hex 3 trace.pc.toNat, ": ", Numeral.hex 4 trace.word.toNat, " ",
    leftAligned 16 trace.instruction.mnemonic, " v", "[", ", ".intercalate trace.registers.texts,
    "]", " i", Numeral.hex 3 trace.index.toNat, " sp"]

def widths : List Nat :=
  [5, 1, 3, 2, 4, 1, 16, 2, 1, 62, 1, 2, 3, 3]

theorem line_executing (trace : Trace) :
    (LogRecord.executing trace).line =
      String.join trace.pieces ++ Numeral.decimal trace.depth.toNat := by
  simp only [LogRecord.line, LogRecord.severity, Severity.label, LogRecord.message, message,
    registersText, pieces, Registers.texts, String.join_cons, String.join_nil,
    String.append_empty, String.append_assoc, -String.reduceAppend]

theorem Bounded.length_pieces {trace : Trace} (bounded : trace.Bounded) :
    trace.pieces.map String.length = widths := by
  have pc : (Numeral.hex 3 trace.pc.toNat).length = 3 := Numeral.length_hex bounded.pc
  have word : (Numeral.hex 4 trace.word.toNat).length = 4 :=
    Numeral.length_hex trace.word.toNat_lt
  have index : (Numeral.hex 3 trace.index.toNat).length = 3 := Numeral.length_hex bounded.index
  have registers := trace.registers.length_intercalate_texts
  have mnemonic := length_leftAligned bounded.mnemonic
  simp only [pieces, List.map_cons, List.map_nil, pc, word, index, registers, mnemonic]
  rfl

/-- A trace as a line shows it: where each field stands and how it is written. -/
structure ShownBy (trace : Trace) (line : String) : Prop where
  severity : column line 0 5 = "TRACE"
  pc : column line 6 3 = Numeral.hex 3 trace.pc.toNat
  word : column line 11 4 = Numeral.hex 4 trace.word.toNat
  mnemonic : column line 16 16 = leftAligned 16 trace.instruction.mnemonic
  registersLabel : column line 32 2 = " v"
  registers : ∀ register : Register,
    column line (35 + 4 * register) 2 = Numeral.hex 2 (trace.registers.read register).toNat
  indexLabel : column line 98 2 = " i"
  index : column line 100 3 = Numeral.hex 3 trace.index.toNat
  depthLabel : column line 103 3 = " sp"
  depth : textFrom line 106 = Numeral.decimal trace.depth.toNat

theorem Bounded.shownBy {trace : Trace} (bounded : trace.Bounded) :
    trace.ShownBy (LogRecord.executing trace).line := by
  rw [line_executing]
  have measured := bounded.length_pieces
  exact
    { severity := column_join measured _ 0 rfl rfl rfl
      pc := column_join measured _ 2 rfl rfl rfl
      word := column_join measured _ 4 rfl rfl rfl
      mnemonic := column_join measured _ 6 rfl rfl rfl
      registersLabel := column_join measured _ 7 rfl rfl rfl
      registers := by
        intro register
        have all := column_join measured (Numeral.decimal trace.depth.toNat) 9
          (rfl : _ = 35) rfl (rfl : _ = some 62)
        rw [← trace.registers.column_texts register, ← all, column_column _ (by omega)]
      indexLabel := column_join measured _ 11 rfl rfl rfl
      index := column_join measured _ 12 rfl rfl rfl
      depthLabel := column_join measured _ 13 rfl rfl rfl
      depth := textFrom_join measured _ 14 rfl rfl }

-- The longest mnemonic there is leaves two blanks of its column.
example : (LogRecord.executing
      { pc := 0x3FE, word := 0xDA1F, instruction := .draw 0xA 1 15
        registers := Registers.zero.write 10 0x2A, index := 0x50, depth := 16 }).line =
    "TRACE 3FE: DA1F DRW VA, V1, 15   v[00, 00, 00, 00, 00, 00, 00, 00, 00, 00, 2A, 00, 00, 00, "
      ++ "00, 00] i050 sp16" := by
  cbv

/-- A line leaves no doubt about the fields it shows. -/
theorem ShownBy.agree {first second : Trace} {line : String} (left : first.ShownBy line)
    (right : second.ShownBy line) :
    first.pc = second.pc ∧ first.word = second.word ∧ first.registers = second.registers ∧
      first.index = second.index ∧ first.depth = second.depth := by
  refine ⟨?_, ?_, ?_, ?_, ?_⟩
  · apply UInt16.toNat_inj.mp
    exact Numeral.hex_injective (left.pc.symm.trans right.pc)
  · apply UInt16.toNat_inj.mp
    exact Numeral.hex_injective (left.word.symm.trans right.word)
  · apply Vector.ext
    intro number within
    apply UInt8.toNat_inj.mp
    have shown := left.registers ⟨number, within⟩
    exact Numeral.hex_injective (shown.symm.trans (right.registers ⟨number, within⟩))
  · apply UInt16.toNat_inj.mp
    exact Numeral.hex_injective (left.index.symm.trans right.index)
  · apply UInt8.toNat_inj.mp
    exact Numeral.decimal_injective (left.depth.symm.trans right.depth)

/-- A trace line is no line about a skipped word. -/
theorem ShownBy.not_skipped {trace : Trace} {failure : Failure}
    (shown : trace.ShownBy (LogRecord.wordSkipped failure).line) : False := by
  have warned : column (LogRecord.wordSkipped failure).line 0 4 = "WARN" := by
    rw [LogRecord.line, String.append_assoc]
    exact column_append_left "WARN" _
  have traced := congrArg (column · 0 4) shown.severity
  rw [column_column _ (by omega), warned] at traced
  exact absurd traced (by decide)

end Trace

namespace Machine

/-! ## What a cycle logs -/

theorem Bounded.trace {machine : Machine} (bounded : machine.Bounded) {instruction : Instruction}
    (fits : instruction.Fits) : (machine.trace instruction).Bounded where
  pc := Nat.lt_succ_of_le bounded.pc
  mnemonic := Instruction.length_mnemonic_le fits
  index := Nat.lt_succ_of_le bounded.index

theorem skipMalformed_log (machine : Machine) (failure : Failure) :
    (machine.skipMalformed failure).log = [.wordSkipped failure] := by
  unfold skipMalformed
  split <;> rfl

theorem attempt_log (machine : Machine) (instruction : Instruction) :
    (machine.attempt instruction).log = [.executing (machine.trace instruction)] := by
  unfold attempt
  split <;> rfl

/-- A cycle logs the word it skips or the instruction it is about to execute,
whatever then becomes of it. -/
theorem cycle_log_cases (machine : Machine) :
    (machine.Malformed ∧
      machine.cycle.log = [.wordSkipped (.malformed machine.fetch machine.pc)]) ∨
    ∃ instruction : Instruction, instruction.SpelledBy machine.fetch ∧
      machine.cycle.log = [.executing (machine.trace instruction)] := by
  unfold cycle
  cases decoded : Instruction.decode machine.fetch machine.pc with
  | error failure =>
      obtain ⟨rfl, malformed⟩ := Instruction.decode_eq_error_iff.mp decoded
      exact .inl ⟨malformed, machine.skipMalformed_log _⟩
  | ok instruction =>
      exact .inr ⟨instruction, Instruction.decode_eq_ok_iff.mp decoded,
        machine.attempt_log instruction⟩

/-- What the one record of a cycle tells about the machine. -/
structure Recorded (machine : Machine) (record : LogRecord) : Prop where
  logged : machine.cycle.log = [record]
  warns : record.severity = .warn ↔ machine.Malformed
  traces : record.severity = .trace ↔ ¬machine.Malformed
  stops : machine.cycle.response = .awaitingKey ∨
    machine.cycle.response = .failed (.stackOverflow machine.pc) ∨
    machine.cycle.response = .failed (.stackUnderflow machine.pc) → record.severity = .trace
  shows : record.severity = .trace →
    ∃ instruction : Instruction, instruction.SpelledBy machine.fetch ∧
      (machine.trace instruction).ShownBy record.line

theorem Bounded.recorded {machine : Machine} (bounded : machine.Bounded) :
    ∃ record, machine.Recorded record := by
  have contract := (cycle_verdict bounded).contract
  rcases machine.cycle_log_cases with ⟨malformed, logged⟩ | ⟨instruction, spelled, logged⟩
  · refine ⟨_, logged, iff_of_true rfl malformed, iff_of_false nofun (not_not_intro malformed),
      ?_, nofun⟩
    intro stops
    have skipped := contract.malformed.mpr malformed
    rcases stops with stopped | stopped | stopped <;> cases skipped.symm.trans stopped
  · have formed : ¬machine.Malformed := not_not_intro ⟨instruction, spelled⟩
    exact ⟨_, logged, iff_of_false nofun formed, iff_of_true rfl formed, fun _ => rfl,
      fun _ => ⟨instruction, spelled, (bounded.trace spelled.fits).shownBy⟩⟩

/-- Two records of one text come from machines that agree on all that it shows. -/
theorem Recorded.agree {machine other : Machine} {record otherRecord : LogRecord}
    (bounded : other.Bounded) (recorded : machine.Recorded record)
    (isTrace : record.severity = .trace) (logged : other.cycle.log = [otherRecord])
    (same : record.line = otherRecord.line) :
    machine.pc = other.pc ∧ machine.fetch = other.fetch ∧ machine.registers = other.registers ∧
      machine.index = other.index ∧ machine.stack.depth = other.stack.depth := by
  obtain ⟨instruction, -, shown⟩ := recorded.shows isTrace
  rw [same] at shown
  rcases other.cycle_log_cases with ⟨-, skipped⟩ | ⟨otherInstruction, spelled, traced⟩
  · cases logged.symm.trans skipped
    exact shown.not_skipped.elim
  · cases logged.symm.trans traced
    exact shown.agree (bounded.trace spelled.fits).shownBy

/-- Every cycle of every run logs one record, a warning when the word at the
program counter is malformed and else a trace whose fields stand at fixed places;
mnemonics of decoded words fit their column; and no two machines that differ in what
a trace line shows log the same one. -/
theorem trace_lines_are_faithful (random otherRandom : RandomStream)
    (operations otherOperations : List Operation) :
    let machine := (powerOn random).after operations
    let other := (powerOn otherRandom).after otherOperations
    (∃ record, machine.Recorded record) ∧
      (∀ (word : Word) (instruction : Instruction), Instruction.decode? word = some instruction →
        instruction.mnemonic.length ≤ 16) ∧
      ∀ record otherRecord : LogRecord, machine.cycle.log = [record] →
        other.cycle.log = [otherRecord] → record.severity = .trace →
        record.line = otherRecord.line →
          machine.pc = other.pc ∧ machine.fetch = other.fetch ∧
            machine.registers = other.registers ∧ machine.index = other.index ∧
            machine.stack.depth = other.stack.depth := by
  intro machine other
  obtain ⟨only, recorded⟩ := (after_bounded random operations).recorded
  refine ⟨⟨only, recorded⟩, ?_, ?_⟩
  · intro word instruction decoded
    exact Instruction.length_mnemonic_le (Instruction.decode?_spelledBy decoded).fits
  · intro record otherRecord logged otherLogged isTrace same
    cases recorded.logged.symm.trans logged
    exact recorded.agree (after_bounded otherRandom otherOperations) isTrace otherLogged same

end Machine

end Chip8Vm
