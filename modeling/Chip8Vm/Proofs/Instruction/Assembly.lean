import Chip8Vm.Proofs.Instruction.Spelling
import Chip8Vm.Proofs.Text.Numeral

/-!
# Assembler text read back

An assembler reads a line as an operation and its operands, each operand by its
first characters.  It finds every instruction from its mnemonic, whatever the
operands are, so a mnemonic belongs to one instruction only.  No line about a
malformed word is read as an instruction, and such a line names its word; so
two words have the same line of a listing only when they spell the same shift.
-/

namespace Chip8Vm

/-! ## The words of a line -/

/-- The words of a line; blanks stand between them and commas do not count. -/
def wordsOf (line : String) : List String :=
  ((line.toList.filter (· ≠ ',')).splitOn ' ').map String.ofList

/-- A text with neither blanks nor commas. -/
def isWord (text : String) : Bool :=
  text.toList.all fun character => character ≠ ' ' && character ≠ ','

section Words

variable {text : String} (word : isWord text = true)

include word

theorem ne_of_isWord {character : Char} (member : character ∈ text.toList) :
    character ≠ ' ' ∧ character ≠ ',' := by
  simpa using List.all_eq_true.mp word character member

theorem filter_of_isWord : text.toList.filter (· ≠ ',') = text.toList := by
  apply List.filter_eq_self.mpr
  intro character member
  exact decide_eq_true (ne_of_isWord word member).2

theorem unbroken_of_isWord : ' ' ∉ text.toList := by
  intro member
  exact (ne_of_isWord word member).1 rfl

theorem wordsOf_isWord : wordsOf text = [text] := by
  rw [wordsOf, filter_of_isWord word, List.splitOn_eq_singleton (unbroken_of_isWord word),
    List.map_singleton, String.ofList_toList]

/-- A word, a blank with or without a comma before it, and the rest of a line. -/
theorem wordsOf_append {separator : String}
    (blank : separator.toList.filter (· ≠ ',') = [' ']) (rest : String) :
    wordsOf (text ++ separator ++ rest) = text :: wordsOf rest := by
  rw [wordsOf, String.toList_append, String.toList_append, List.filter_append,
    List.filter_append, filter_of_isWord word, blank, List.append_assoc, List.singleton_append,
    List.splitOn_append_cons_self_of_not_mem (unbroken_of_isWord word), List.map_cons,
    String.ofList_toList]
  rfl

end Words

namespace Word

/-- The words `8XY6`. -/
def IsShiftRight (word : Word) : Prop :=
  word.family = 0x8 ∧ word.toNat % 0x10 = 0x6

/-- The words `8XYE`. -/
def IsShiftLeft (word : Word) : Prop :=
  word.family = 0x8 ∧ word.toNat % 0x10 = 0xE

end Word

namespace Instruction

/-! ## Operands -/

/-- An operand as an assembler sees it. -/
inductive Operand where
  | register (number : Nat)
  | byte (value : UInt8)
  | address (value : Word)
  | count (value : UInt8)
  | name (text : String)

/-- A `V` stands before a register and `0x` before a byte or, with more than two
digits, an address; decimal digits are a count, and all else is a name. -/
def Operand.ofText (text : String) : Operand :=
  match text.toList with
  | 'V' :: numeral => .register (Numeral.value 16 numeral)
  | '0' :: 'x' :: numeral =>
      if numeral.length = 2 then
        .byte (UInt8.ofNat (Numeral.value 16 numeral))
      else
        .address (UInt16.ofNat (Numeral.value 16 numeral))
  | characters =>
      if characters.all Char.isDigit then
        .count (UInt8.ofNat (Numeral.value 10 characters))
      else
        .name text

theorem isWord_of_digits {text : String}
    (digits : ∀ character, character ∈ text.toList →
      ∃ place, place < 16 ∧ character = Numeral.digit place) : isWord text = true := by
  have apart : ∀ place, place < 16 → Numeral.digit place ≠ ' ' ∧ Numeral.digit place ≠ ',' := by
    decide
  apply List.all_eq_true.mpr
  intro character member
  obtain ⟨place, small, rfl⟩ := digits character member
  simpa using apart place small

theorem isWord_append {first second : String} (firstWord : isWord first = true)
    (secondWord : isWord second = true) : isWord (first ++ second) = true := by
  rw [isWord, String.toList_append, List.all_append, Bool.and_eq_true]
  exact ⟨firstWord, secondWord⟩

theorem isWord_hex (width number : Nat) : isWord (Numeral.hex width number) = true :=
  isWord_of_digits fun _ member => Numeral.mem_hex member

theorem isWord_hexLiteral (width number : Nat) :
    isWord (Numeral.hexLiteral width number) = true :=
  isWord_append rfl (isWord_hex width number)

theorem isWord_registerName (number : Nat) : isWord (registerName number) = true :=
  isWord_append rfl (isWord_hex 1 number)

theorem isWord_byteText (value : UInt8) : isWord (byteText value) = true :=
  isWord_hexLiteral 2 value.toNat

theorem isWord_addressText (value : Word) : isWord (addressText value) = true :=
  isWord_hexLiteral 3 value.toNat

theorem isWord_decimal (number : Nat) : isWord (Numeral.decimal number) = true := by
  apply isWord_of_digits
  intro character member
  obtain ⟨place, small, written⟩ := Numeral.mem_decimal member
  exact ⟨place, by omega, written⟩

namespace Operand

theorem ofText_registerName (number : Nat) :
    ofText (registerName number) = .register number := by
  have text : (registerName number).toList = 'V' :: (Numeral.hex 1 number).toList := by
    simp [registerName]
  rw [ofText, text]
  exact congrArg register (Numeral.value_hex 1 number)

theorem toList_hexLiteral (width number : Nat) :
    (Numeral.hexLiteral width number).toList =
      '0' :: 'x' :: (Numeral.hex width number).toList := by
  simp [Numeral.hexLiteral]

theorem ofText_byteText (value : UInt8) : ofText (byteText value) = .byte value := by
  have two : (Numeral.hex 2 value.toNat).toList.length = 2 := by
    rw [String.length_toList, Numeral.length_hex value.toNat_lt]
  rw [ofText, byteText, toList_hexLiteral]
  simp only [two, if_true, Numeral.value_hex, UInt8.ofNat_toNat]

theorem ofText_addressText (value : Word) : ofText (addressText value) = .address value := by
  have three : (Numeral.hex 3 value.toNat).toList.length ≠ 2 := by
    have least := Numeral.le_length_hex 3 value.toNat
    rw [String.length_toList]
    omega
  rw [ofText, addressText, toList_hexLiteral]
  simp only [three, if_false, Numeral.value_hex, UInt16.ofNat_toNat]

theorem ofText_decimal (value : UInt8) :
    ofText (Numeral.decimal value.toNat) = .count value := by
  have digits : ∀ character, character ∈ (Numeral.decimal value.toNat).toList →
      character.isDigit = true := by
    have each : ∀ place, place < 10 → (Numeral.digit place).isDigit = true := by
      decide
    intro character member
    obtain ⟨place, small, rfl⟩ := Numeral.mem_decimal member
    exact each place small
  unfold ofText
  split
  · rename_i text
    have letter := digits 'V' (by rw [text]; exact List.mem_cons_self)
    cases letter
  · rename_i text
    have letter := digits 'x' (by rw [text]; exact List.mem_cons_of_mem _ List.mem_cons_self)
    cases letter
  · rw [if_pos (List.all_eq_true.mpr digits), Numeral.value_decimal, UInt8.ofNat_toNat]

end Operand

/-! ## Instructions -/

/-- The instruction of an operation and its operands. -/
def ofOperands? : String → List Operand → Option Instruction
  | "CLS", [] => some .clearScreen
  | "RET", [] => some .ret
  | "JP", [.address nnn] => some (.jump nnn)
  | "CALL", [.address nnn] => some (.call nnn)
  | "SE", [.register x, .byte nn] => some (.skipIfByte x nn)
  | "SNE", [.register x, .byte nn] => some (.skipUnlessByte x nn)
  | "SE", [.register x, .register y] => some (.skipIfSame x y)
  | "LD", [.register x, .byte nn] => some (.loadByte x nn)
  | "ADD", [.register x, .byte nn] => some (.addByte x nn)
  | "LD", [.register x, .register y] => some (.copy x y)
  | "OR", [.register x, .register y] => some (.or x y)
  | "AND", [.register x, .register y] => some (.and x y)
  | "XOR", [.register x, .register y] => some (.xor x y)
  | "ADD", [.register x, .register y] => some (.add x y)
  | "SUB", [.register x, .register y] => some (.sub x y)
  | "SHR", [.register x] => some (.shiftRight x)
  | "SUBN", [.register x, .register y] => some (.subFrom x y)
  | "SHL", [.register x] => some (.shiftLeft x)
  | "SNE", [.register x, .register y] => some (.skipUnlessSame x y)
  | "LD", [.name "I", .address nnn] => some (.loadIndex nnn)
  | "JP", [.register 0, .address nnn] => some (.jumpFrom nnn)
  | "RND", [.register x, .byte nn] => some (.random x nn)
  | "DRW", [.register x, .register y, .count n] => some (.draw x y n)
  | "SKP", [.register x] => some (.skipIfKey x)
  | "SKNP", [.register x] => some (.skipUnlessKey x)
  | "LD", [.register x, .name "DT"] => some (.readDelay x)
  | "LD", [.register x, .name "K"] => some (.waitKey x)
  | "LD", [.name "DT", .register x] => some (.setDelay x)
  | "LD", [.name "ST", .register x] => some (.setSound x)
  | "ADD", [.name "I", .register x] => some (.addIndex x)
  | "LD", [.name "F", .register x] => some (.loadGlyph x)
  | "LD", [.name "B", .register x] => some (.storeDecimal x)
  | "LD", [.name "[I]", .register x] => some (.storeRegisters x)
  | "LD", [.register x, .name "[I]"] => some (.loadRegisters x)
  | _, _ => none

/-- The instruction that a line of assembler text stands for. -/
def assemble? (line : String) : Option Instruction :=
  match wordsOf line with
  | [] => none
  | operation :: operands => ofOperands? operation (operands.map Operand.ofText)

section OneOperand

variable (operation : String) {head operand : String} (spelled : head = operation ++ " ")
  (isOperation : isWord operation = true)

include spelled isOperation

theorem assemble?_one (isOperand : isWord operand = true) :
    assemble? (head ++ operand) = ofOperands? operation [.ofText operand] := by
  rw [spelled, assemble?, wordsOf_append isOperation rfl, wordsOf_isWord isOperand]
  rfl

theorem assemble?_register (number : Nat) :
    assemble? (head ++ registerName number) = ofOperands? operation [.register number] := by
  rw [assemble?_one operation spelled isOperation (isWord_registerName number),
    Operand.ofText_registerName]

theorem assemble?_address (value : Word) :
    assemble? (head ++ addressText value) = ofOperands? operation [.address value] := by
  rw [assemble?_one operation spelled isOperation (isWord_addressText value),
    Operand.ofText_addressText]

end OneOperand

section Shapes

variable {operation first second third : String} (isOperation : isWord operation = true)
  (isFirst : isWord first = true) (isSecond : isWord second = true)
  (isThird : isWord third = true)

include isOperation isFirst isSecond

theorem wordsOf_twoOperands :
    wordsOf (twoOperands operation first second) = [operation, first, second] := by
  have grouped : twoOperands operation first second =
      operation ++ " " ++ (first ++ ", " ++ second) := by
    simp only [twoOperands, String.append_assoc]
  rw [grouped, wordsOf_append isOperation rfl, wordsOf_append isFirst rfl,
    wordsOf_isWord isSecond]

theorem assemble?_two :
    assemble? (twoOperands operation first second) =
      ofOperands? operation [.ofText first, .ofText second] := by
  rw [assemble?, wordsOf_twoOperands isOperation isFirst isSecond]
  rfl

include isThird

theorem assemble?_three :
    assemble? (twoOperands operation first second ++ ", " ++ third) =
      ofOperands? operation [.ofText first, .ofText second, .ofText third] := by
  have grouped : twoOperands operation first second ++ ", " ++ third =
      operation ++ " " ++ (first ++ ", " ++ (second ++ ", " ++ third)) := by
    simp only [twoOperands, String.append_assoc]
  rw [assemble?, grouped, wordsOf_append isOperation rfl, wordsOf_append isFirst rfl,
    wordsOf_append isSecond rfl, wordsOf_isWord isThird]
  rfl

end Shapes

/-- The assembler finds every instruction from its mnemonic. -/
theorem assemble?_mnemonic (instruction : Instruction) :
    assemble? instruction.mnemonic = some instruction := by
  cases instruction
  case clearScreen | ret => rfl
  case jump nnn => exact assemble?_address "JP" rfl rfl nnn
  case call nnn => exact assemble?_address "CALL" rfl rfl nnn
  case shiftRight x => exact assemble?_register "SHR" rfl rfl x
  case shiftLeft x => exact assemble?_register "SHL" rfl rfl x
  case skipIfKey x => exact assemble?_register "SKP" rfl rfl x
  case skipUnlessKey x => exact assemble?_register "SKNP" rfl rfl x
  case skipIfByte x nn | skipUnlessByte x nn | loadByte x nn | addByte x nn | random x nn =>
      rw [mnemonic, assemble?_two rfl (isWord_registerName x) (isWord_byteText nn),
        Operand.ofText_registerName, Operand.ofText_byteText]
      rfl
  case skipIfSame x y | skipUnlessSame x y | copy x y | or x y | and x y | xor x y | add x y
      | sub x y | subFrom x y =>
      rw [mnemonic, assemble?_two rfl (isWord_registerName x) (isWord_registerName y),
        Operand.ofText_registerName, Operand.ofText_registerName]
      rfl
  case loadIndex nnn | jumpFrom nnn =>
      rw [mnemonic, assemble?_two rfl rfl (isWord_addressText nnn), Operand.ofText_addressText]
      rfl
  case readDelay x | waitKey x | loadRegisters x =>
      rw [mnemonic, assemble?_two rfl (isWord_registerName x) rfl, Operand.ofText_registerName]
      rfl
  case setDelay x | setSound x | addIndex x | loadGlyph x | storeDecimal x
      | storeRegisters x =>
      rw [mnemonic, assemble?_two rfl rfl (isWord_registerName x), Operand.ofText_registerName]
      rfl
  case draw x y n =>
      rw [mnemonic, assemble?_three rfl (isWord_registerName x) (isWord_registerName y)
        (isWord_decimal n.toNat), Operand.ofText_registerName, Operand.ofText_registerName,
        Operand.ofText_decimal]
      rfl

theorem mnemonic_injective {first second : Instruction}
    (same : first.mnemonic = second.mnemonic) : first = second := by
  have read := assemble?_mnemonic first
  rw [same, assemble?_mnemonic] at read
  exact (Option.some.inj read).symm

/-! ## Lines about malformed words -/

theorem malformed_grouped (word pc : String) :
    "Malformed opcode " ++ word ++ " at " ++ pc =
      "Malformed" ++ " " ++ ("opcode" ++ " " ++ (word ++ " " ++ ("at" ++ " " ++ pc))) := by
  have before : "Malformed opcode " = "Malformed" ++ " " ++ ("opcode" ++ " ") := rfl
  have between : " at " = " " ++ ("at" ++ " ") := rfl
  rw [before, between]
  simp only [String.append_assoc, -String.reduceAppend]

theorem wordsOf_malformed (word pc : Word) :
    wordsOf (Failure.malformed word pc).message =
      ["Malformed", "opcode", Numeral.hexLiteral 4 word.toNat, "at",
        Numeral.hexLiteral 3 pc.toNat] := by
  have first : isWord "Malformed" = true := rfl
  have second : isWord "opcode" = true := rfl
  have fourth : isWord "at" = true := rfl
  have grouped := malformed_grouped (Numeral.hexLiteral 4 word.toNat)
    (Numeral.hexLiteral 3 pc.toNat)
  refine (congrArg wordsOf grouped).trans ?_
  rw [wordsOf_append first rfl, wordsOf_append second rfl,
    wordsOf_append (isWord_hexLiteral 4 word.toNat) rfl, wordsOf_append fourth rfl,
    wordsOf_isWord (isWord_hexLiteral 3 pc.toNat)]

theorem assemble?_malformed (word pc : Word) :
    assemble? (Failure.malformed word pc).message = none := by
  rw [assemble?, wordsOf_malformed]
  rfl

theorem mnemonic_ne_malformed (instruction : Instruction) (word pc : Word) :
    instruction.mnemonic ≠ (Failure.malformed word pc).message := by
  intro same
  have read := assemble?_mnemonic instruction
  rw [same, assemble?_malformed] at read
  cases read

theorem malformed_word_injective {first second pc : Word}
    (same : (Failure.malformed first pc).message = (Failure.malformed second pc).message) :
    first = second := by
  have words := wordsOf_malformed first pc
  rw [same, wordsOf_malformed] at words
  have literal : Numeral.hexLiteral 4 second.toNat = Numeral.hexLiteral 4 first.toNat :=
    (List.cons.inj (List.cons.inj (List.cons.inj words).2).2).1
  apply UInt16.toNat_inj.mp
  exact (Numeral.hexLiteral_injective literal).symm

/-! ## Listings -/

theorem listing_of_some {word : Word} {instruction : Instruction}
    (decoded : decode? word = some instruction) (pc : Word) :
    listing word pc = instruction.mnemonic := by
  rw [listing, decode, decoded]

theorem listing_of_none {word : Word} (undecoded : decode? word = none) (pc : Word) :
    listing word pc = (Failure.malformed word pc).message := by
  rw [listing, decode, undecoded]

theorem fields_of_shift {word : Word} {instruction : Instruction} {x last : Nat}
    (decoded : decode? word = some instruction) (shifted : instruction.isShift = true)
    (operands : instruction.operands = [x]) (lastFits : last < 16)
    (encoded : instruction.encode = Word.ofNibbles 0x8 x 0x0 last) :
    (word.family = 0x8 ∧ word.toNat % 0x10 = last) ∧ word.x = x := by
  obtain ⟨fits, spelled⟩ := decode?_spelledBy decoded
  have xFits : x < 16 := fits.operands x (by simp [operands])
  rw [if_pos shifted, encoded] at spelled
  obtain ⟨family, field, ends⟩ := fields_of_withoutY xFits lastFits spelled
  exact ⟨⟨family, ends⟩, field⟩

theorem decode?_shiftRight_iff {word : Word} {x : Nat} :
    decode? word = some (.shiftRight x) ↔ word.IsShiftRight ∧ word.x = x := by
  constructor
  · intro decoded
    exact fields_of_shift decoded rfl rfl (by omega) rfl
  · rintro ⟨⟨family, last⟩, rfl⟩
    simp [decode?, decodeArithmetic?, family, last]

theorem decode?_shiftLeft_iff {word : Word} {x : Nat} :
    decode? word = some (.shiftLeft x) ↔ word.IsShiftLeft ∧ word.x = x := by
  constructor
  · intro decoded
    exact fields_of_shift decoded rfl rfl (by omega) rfl
  · rintro ⟨⟨family, last⟩, rfl⟩
    simp [decode?, decodeArithmetic?, family, last]

/-- Two words spell the same instruction if they are the same word or spell the
same shift, which ignores their third nibble. -/
theorem same_of_decode? {first second : Word} {instruction : Instruction}
    (firstDecoded : decode? first = some instruction)
    (secondDecoded : decode? second = some instruction) :
    first = second ∨
      (first.IsShiftRight ∧ second.IsShiftRight ∨ first.IsShiftLeft ∧ second.IsShiftLeft) ∧
        first.x = second.x := by
  by_cases shift : instruction.isShift = true
  · right
    cases instruction
    case shiftRight x =>
        obtain ⟨firstShift, firstField⟩ := decode?_shiftRight_iff.mp firstDecoded
        obtain ⟨secondShift, secondField⟩ := decode?_shiftRight_iff.mp secondDecoded
        exact ⟨.inl ⟨firstShift, secondShift⟩, firstField.trans secondField.symm⟩
    case shiftLeft x =>
        obtain ⟨firstShift, firstField⟩ := decode?_shiftLeft_iff.mp firstDecoded
        obtain ⟨secondShift, secondField⟩ := decode?_shiftLeft_iff.mp secondDecoded
        exact ⟨.inr ⟨firstShift, secondShift⟩, firstField.trans secondField.symm⟩
    all_goals cases shift
  · left
    have firstEncoded := (decode?_spelledBy firstDecoded).encoded
    have secondEncoded := (decode?_spelledBy secondDecoded).encoded
    rw [if_neg shift] at firstEncoded secondEncoded
    exact firstEncoded.symm.trans secondEncoded

theorem listing_of_same {first second : Word} {instruction : Instruction}
    (firstDecoded : decode? first = some instruction)
    (secondDecoded : decode? second = some instruction) (pc : Word) :
    listing first pc = listing second pc := by
  rw [listing_of_some firstDecoded, listing_of_some secondDecoded]

theorem same_of_listing {first second pc : Word} (same : listing first pc = listing second pc) :
    first = second ∨
      (first.IsShiftRight ∧ second.IsShiftRight ∨ first.IsShiftLeft ∧ second.IsShiftLeft) ∧
        first.x = second.x := by
  cases firstDecoded : decode? first with
  | some instruction =>
      rw [listing_of_some firstDecoded] at same
      cases secondDecoded : decode? second with
      | some other =>
          rw [listing_of_some secondDecoded] at same
          obtain rfl := mnemonic_injective same
          exact same_of_decode? firstDecoded secondDecoded
      | none =>
          rw [listing_of_none secondDecoded] at same
          exact absurd same (mnemonic_ne_malformed instruction second pc)
  | none =>
      rw [listing_of_none firstDecoded] at same
      cases secondDecoded : decode? second with
      | some other =>
          rw [listing_of_some secondDecoded] at same
          exact absurd same.symm (mnemonic_ne_malformed other first pc)
      | none =>
          rw [listing_of_none secondDecoded] at same
          exact .inl (malformed_word_injective same)

/-- A mnemonic belongs to one instruction, whatever its operands are.  At any
address two words have the same line of a listing exactly if they are the same word
or shift the same register in the same direction. -/
theorem mnemonics_identify_instructions :
    (∀ first second : Instruction, first.mnemonic = second.mnemonic ↔ first = second) ∧
      ∀ first second pc : Word,
        listing first pc = listing second pc ↔
          first = second ∨
            (first.IsShiftRight ∧ second.IsShiftRight ∨
                first.IsShiftLeft ∧ second.IsShiftLeft) ∧
              first.x = second.x := by
  constructor
  · intro first second
    constructor
    · exact mnemonic_injective
    · intro same
      rw [same]
  · intro first second pc
    constructor
    · exact same_of_listing
    · rintro (rfl | ⟨⟨firstShift, secondShift⟩ | ⟨firstShift, secondShift⟩, field⟩)
      · rfl
      · exact listing_of_same (decode?_shiftRight_iff.mpr ⟨firstShift, field⟩)
          (decode?_shiftRight_iff.mpr ⟨secondShift, rfl⟩) pc
      · exact listing_of_same (decode?_shiftLeft_iff.mpr ⟨firstShift, field⟩)
          (decode?_shiftLeft_iff.mpr ⟨secondShift, rfl⟩) pc

end Instruction

end Chip8Vm
