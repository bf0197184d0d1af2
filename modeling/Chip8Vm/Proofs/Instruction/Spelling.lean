import Chip8Vm.Instruction.Listing

/-!
# Which words spell which instructions

An instruction fits when every operand lies in the range of its place in a
word.  A word spells a fitting instruction when encoding the instruction gives
the word back, up to the third nibble of the two shifts, which they ignore.
Decoding finds exactly the instruction that a word spells.
-/

namespace Chip8Vm

namespace Word

/-- A word with its third nibble zero. -/
def withoutY (word : Word) : Word :=
  UInt16.ofNat (word.toNat - word.y * 0x10)

theorem toNat_withoutY (word : Word) :
    word.withoutY.toNat = word.toNat - word.toNat / 0x10 % 0x10 * 0x10 := by
  have bound := word.toNat_lt
  simp [withoutY, y]
  omega

theorem toNat_ofNibbles {first second third fourth : Nat}
    (firstFits : first < 16) (secondFits : second < 16)
    (thirdFits : third < 16) (fourthFits : fourth < 16) :
    (ofNibbles first second third fourth).toNat =
      first * 0x1000 + second * 0x100 + third * 0x10 + fourth := by
  simp [ofNibbles]
  omega

end Word

namespace Instruction

/-- The numbers of the registers that an instruction names. -/
def operands : Instruction → List Nat
  | .clearScreen | .ret | .jump _ | .call _ | .loadIndex _ | .jumpFrom _ => []
  | .skipIfByte x _ | .skipUnlessByte x _ | .loadByte x _ | .addByte x _
  | .shiftRight x | .shiftLeft x | .random x _ | .skipIfKey x | .skipUnlessKey x
  | .readDelay x | .waitKey x | .setDelay x | .setSound x | .addIndex x
  | .loadGlyph x | .storeDecimal x | .storeRegisters x | .loadRegisters x => [x]
  | .skipIfSame x y | .copy x y | .or x y | .and x y | .xor x y | .add x y
  | .sub x y | .subFrom x y | .skipUnlessSame x y | .draw x y _ => [x, y]

def address? : Instruction → Option Word
  | .jump nnn | .call nnn | .loadIndex nnn | .jumpFrom nnn => some nnn
  | _ => none

def rows? : Instruction → Option UInt8
  | .draw _ _ n => some n
  | _ => none

/-- Every operand lies in the range of its place in a word. -/
structure Fits (instruction : Instruction) : Prop where
  operands : ∀ number, number ∈ instruction.operands → number < 16
  address : ∀ nnn, instruction.address? = some nnn → nnn.toNat < 0x1000
  rows : ∀ n, instruction.rows? = some n → n.toNat < 0x10

/-- The instructions that ignore the third nibble of their word. -/
def isShift : Instruction → Bool
  | .shiftRight _ | .shiftLeft _ => true
  | _ => false

/-- A word spells an instruction that fits if it is the instruction's
encoding, the ignored nibble of a shift aside. -/
structure SpelledBy (instruction : Instruction) (word : Word) : Prop where
  fits : instruction.Fits
  encoded : instruction.encode = if instruction.isShift then word.withoutY else word

theorem toNat_withByte {family x byte : Nat}
    (familyFits : family < 16) (xFits : x < 16) (byteFits : byte < 0x100) :
    (withByte family x byte).toNat = family * 0x1000 + x * 0x100 + byte := by
  simp [withByte]
  omega

theorem toNat_withAddress {family : Nat} {nnn : Word}
    (familyFits : family < 16) (addressFits : nnn.toNat < 0x1000) :
    (withAddress family nnn).toNat = family * 0x1000 + nnn.toNat := by
  simp [withAddress]
  omega

/-! ## Words from their fields -/

theorem withByte_fields (word : Word) :
    withByte word.family word.x (word.toNat % 0x100) = word := by
  have bound := word.toNat_lt
  apply UInt16.toNat_inj.mp
  rw [toNat_withByte word.family_lt word.x_lt (Nat.mod_lt _ (by decide))]
  simp only [Word.family, Word.x]
  omega

theorem withAddress_fields (word : Word) : withAddress word.family word.nnn = word := by
  have bound := word.toNat_lt
  apply UInt16.toNat_inj.mp
  rw [toNat_withAddress word.family_lt (by simp; omega), Word.toNat_nnn]
  simp only [Word.family]
  omega

theorem ofNibbles_fields (word : Word) :
    Word.ofNibbles word.family word.x word.y (word.toNat % 0x10) = word := by
  have bound := word.toNat_lt
  apply UInt16.toNat_inj.mp
  rw [Word.toNat_ofNibbles word.family_lt word.x_lt word.y_lt (Nat.mod_lt _ (by decide))]
  simp only [Word.family, Word.x, Word.y]
  omega

theorem ofNibbles_withoutY (word : Word) :
    Word.ofNibbles word.family word.x 0 (word.toNat % 0x10) = word.withoutY := by
  have bound := word.toNat_lt
  apply UInt16.toNat_inj.mp
  rw [Word.toNat_ofNibbles word.family_lt word.x_lt (by decide) (Nat.mod_lt _ (by decide)),
    Word.toNat_withoutY]
  simp only [Word.family, Word.x]
  omega

/-! ## Decoding finds a spelled instruction -/

section Shapes

variable {word : Word} {instruction : Instruction} {family low : Nat}

theorem spelledBy_of_address (isFamily : word.family = family)
    (encoded : instruction.encode = withAddress family word.nnn)
    (unshifted : instruction.isShift = false) (operands : instruction.operands = [])
    (address : instruction.address? = some word.nnn) (rows : instruction.rows? = none) :
    instruction.SpelledBy word := by
  refine ⟨⟨?_, ?_, ?_⟩, ?_⟩
  · simp [operands]
  · intro nnn carried
    cases address.symm.trans carried
    rw [Word.toNat_nnn]
    omega
  · simp [rows]
  · rw [encoded, unshifted, ← isFamily]
    exact withAddress_fields word

theorem spelledBy_of_byte (isFamily : word.family = family) (isLow : word.toNat % 0x100 = low)
    (encoded : instruction.encode = withByte family word.x low)
    (unshifted : instruction.isShift = false) (operands : instruction.operands = [word.x])
    (address : instruction.address? = none) (rows : instruction.rows? = none) :
    instruction.SpelledBy word := by
  refine ⟨⟨?_, ?_, ?_⟩, ?_⟩
  · simp [operands, word.x_lt]
  · simp [address]
  · simp [rows]
  · rw [encoded, unshifted, ← isFamily, ← isLow]
    exact withByte_fields word

theorem spelledBy_of_nibbles (isFamily : word.family = family) (isLow : word.toNat % 0x10 = low)
    (encoded : instruction.encode = Word.ofNibbles family word.x word.y low)
    (unshifted : instruction.isShift = false)
    (operands : instruction.operands = [word.x, word.y])
    (address : instruction.address? = none)
    (rows : instruction.rows? = none ∨ instruction.rows? = some word.n) :
    instruction.SpelledBy word := by
  refine ⟨⟨?_, ?_, ?_⟩, ?_⟩
  · simp [operands, word.x_lt, word.y_lt]
  · simp [address]
  · intro n drawn
    rcases rows with absent | present
    · cases absent.symm.trans drawn
    · cases present.symm.trans drawn
      rw [Word.toNat_n]
      omega
  · rw [encoded, unshifted, ← isFamily, ← isLow]
    exact ofNibbles_fields word

theorem spelledBy_of_shift (isFamily : word.family = family) (isLow : word.toNat % 0x10 = low)
    (encoded : instruction.encode = Word.ofNibbles family word.x 0 low)
    (shifted : instruction.isShift = true) (operands : instruction.operands = [word.x])
    (address : instruction.address? = none) (rows : instruction.rows? = none) :
    instruction.SpelledBy word := by
  refine ⟨⟨?_, ?_, ?_⟩, ?_⟩
  · simp [operands, word.x_lt]
  · simp [address]
  · simp [rows]
  · rw [encoded, shifted, ← isFamily, ← isLow]
    exact ofNibbles_withoutY word

end Shapes

theorem decodeArithmetic?_spelledBy {word : Word} {instruction : Instruction}
    (family : word.family = 0x8)
    (decoded : decodeArithmetic? word = some instruction) :
    instruction.SpelledBy word := by
  unfold decodeArithmetic? at decoded
  split at decoded
  case h_7 low | h_9 low =>
      cases decoded
      exact spelledBy_of_shift family low rfl rfl rfl rfl rfl
  case h_10 => cases decoded
  all_goals
    rename_i low
    cases decoded
    exact spelledBy_of_nibbles family low rfl rfl rfl rfl (.inl rfl)

theorem decodeKey?_spelledBy {word : Word} {instruction : Instruction}
    (family : word.family = 0xE) (decoded : decodeKey? word = some instruction) :
    instruction.SpelledBy word := by
  unfold decodeKey? at decoded
  split at decoded <;> cases decoded
  all_goals
    rename_i low
    exact spelledBy_of_byte family low rfl rfl rfl rfl rfl

theorem decodeDevice?_spelledBy {word : Word} {instruction : Instruction}
    (family : word.family = 0xF) (decoded : decodeDevice? word = some instruction) :
    instruction.SpelledBy word := by
  unfold decodeDevice? at decoded
  split at decoded <;> cases decoded
  all_goals
    rename_i low
    exact spelledBy_of_byte family low rfl rfl rfl rfl rfl

theorem decode?_spelledBy {word : Word} {instruction : Instruction}
    (decoded : decode? word = some instruction) : instruction.SpelledBy word := by
  unfold decode? at decoded
  split at decoded
  case h_1 family =>
      split at decoded <;> cases decoded
      all_goals
        rename_i value
        refine ⟨⟨?_, ?_, ?_⟩, UInt16.toNat_inj.mp value.symm⟩
        · simp [operands]
        · simp [address?]
        · simp [rows?]
  case h_2 family | h_3 family | h_11 family | h_12 family =>
      cases decoded
      exact spelledBy_of_address family rfl rfl rfl rfl rfl
  case h_4 family | h_5 family | h_7 family | h_8 family | h_13 family =>
      cases decoded
      exact spelledBy_of_byte family word.toNat_nn.symm rfl rfl rfl rfl rfl
  case h_6 family | h_10 family =>
      split at decoded <;> cases decoded
      rename_i low
      exact spelledBy_of_nibbles family low rfl rfl rfl rfl (.inl rfl)
  case h_14 family =>
      cases decoded
      exact spelledBy_of_nibbles family word.toNat_n.symm rfl rfl rfl rfl (.inr rfl)
  case h_9 family => exact decodeArithmetic?_spelledBy family decoded
  case h_15 family => exact decodeKey?_spelledBy family decoded
  case h_16 family => exact decodeDevice?_spelledBy family decoded
  case h_17 => cases decoded

/-! ## A spelled instruction is decoded -/

section Fields

variable {family x y low : Nat} {nn : UInt8} {nnn : Word}

theorem family_withByte (familyFits : family < 16) (xFits : x < 16) (lowFits : low < 0x100) :
    (withByte family x low).family = family := by
  simp only [Word.family, toNat_withByte familyFits xFits lowFits]
  omega

theorem x_withByte (familyFits : family < 16) (xFits : x < 16) (lowFits : low < 0x100) :
    (withByte family x low).x = x := by
  simp only [Word.x, toNat_withByte familyFits xFits lowFits]
  omega

theorem low_withByte (familyFits : family < 16) (xFits : x < 16) (lowFits : low < 0x100) :
    (withByte family x low).toNat % 0x100 = low := by
  rw [toNat_withByte familyFits xFits lowFits]
  omega

theorem nn_withByte (familyFits : family < 16) (xFits : x < 16) :
    (withByte family x nn.toNat).nn = nn := by
  apply UInt8.toNat_inj.mp
  rw [Word.toNat_nn, low_withByte familyFits xFits nn.toNat_lt]

theorem family_withAddress (familyFits : family < 16) (addressFits : nnn.toNat < 0x1000) :
    (withAddress family nnn).family = family := by
  simp only [Word.family, toNat_withAddress familyFits addressFits]
  omega

theorem nnn_withAddress (familyFits : family < 16) (addressFits : nnn.toNat < 0x1000) :
    (withAddress family nnn).nnn = nnn := by
  apply UInt16.toNat_inj.mp
  rw [Word.toNat_nnn, toNat_withAddress familyFits addressFits]
  omega

theorem fields_ofNibbles (familyFits : family < 16) (xFits : x < 16) (yFits : y < 16)
    (lowFits : low < 0x10) :
    (Word.ofNibbles family x y low).family = family ∧
      (Word.ofNibbles family x y low).x = x ∧ (Word.ofNibbles family x y low).y = y ∧
      (Word.ofNibbles family x y low).toNat % 0x10 = low := by
  simp only [Word.family, Word.x, Word.y,
    Word.toNat_ofNibbles familyFits xFits yFits lowFits]
  omega

theorem n_ofNibbles {n : UInt8} (familyFits : family < 16) (xFits : x < 16) (yFits : y < 16)
    (rowsFit : n.toNat < 0x10) : (Word.ofNibbles family x y n.toNat).n = n := by
  apply UInt8.toNat_inj.mp
  rw [Word.toNat_n, (fields_ofNibbles familyFits xFits yFits rowsFit).2.2.2]

end Fields

theorem decode?_encode {instruction : Instruction} (fits : instruction.Fits) :
    decode? instruction.encode = some instruction := by
  cases instruction
  case clearScreen | ret => rfl
  case jump nnn | call nnn | loadIndex nnn | jumpFrom nnn =>
      have addressFits : nnn.toNat < 0x1000 := fits.address nnn rfl
      simp [encode, decode?, family_withAddress, nnn_withAddress, addressFits]
  case skipIfByte x nn | skipUnlessByte x nn | loadByte x nn | addByte x nn | random x nn =>
      have xFits : x < 16 := fits.operands x (by simp [operands])
      have byteFits := nn.toNat_lt
      simp [encode, decode?, family_withByte, x_withByte, nn_withByte, xFits, byteFits]
  case skipIfKey x | skipUnlessKey x =>
      have xFits : x < 16 := fits.operands x (by simp [operands])
      simp [encode, decode?, decodeKey?, family_withByte, x_withByte, low_withByte, xFits]
  case readDelay x | waitKey x | setDelay x | setSound x | addIndex x | loadGlyph x
      | storeDecimal x | storeRegisters x | loadRegisters x =>
      have xFits : x < 16 := fits.operands x (by simp [operands])
      simp [encode, decode?, decodeDevice?, family_withByte, x_withByte, low_withByte, xFits]
  case skipIfSame x y | skipUnlessSame x y | copy x y | or x y | and x y | xor x y | add x y
      | sub x y | subFrom x y =>
      have xFits : x < 16 := fits.operands x (by simp [operands])
      have yFits : y < 16 := fits.operands y (by simp [operands])
      simp [encode, decode?, decodeArithmetic?, fields_ofNibbles, xFits, yFits]
  case shiftRight x | shiftLeft x =>
      have xFits : x < 16 := fits.operands x (by simp [operands])
      simp [encode, decode?, decodeArithmetic?, fields_ofNibbles, xFits]
  case draw x y n =>
      have xFits : x < 16 := fits.operands x (by simp [operands])
      have yFits : y < 16 := fits.operands y (by simp [operands])
      have rowsFit : n.toNat < 0x10 := fits.rows n rfl
      simp [encode, decode?, fields_ofNibbles, n_ofNibbles, xFits, yFits, rowsFit]

/-- A word of the register-to-register family and the word without its third
nibble agree on everything that tells the shifts apart. -/
theorem fields_of_withoutY {word : Word} {x last : Nat} (xFits : x < 16) (lastFits : last < 16)
    (cleared : Word.ofNibbles 0x8 x 0x0 last = word.withoutY) :
    word.family = 0x8 ∧ word.x = x ∧ word.toNat % 0x10 = last := by
  have value := congrArg UInt16.toNat cleared
  rw [Word.toNat_ofNibbles (by decide) xFits (by decide) lastFits,
    Word.toNat_withoutY] at value
  simp only [Word.family, Word.x]
  omega

theorem decode?_of_spelledBy {word : Word} {instruction : Instruction}
    (spelled : instruction.SpelledBy word) : decode? word = some instruction := by
  obtain ⟨fits, encoded⟩ := spelled
  by_cases shift : instruction.isShift
  · rw [if_pos shift] at encoded
    cases instruction
    case shiftRight x | shiftLeft x =>
        have xFits : x < 16 := fits.operands x (by simp [operands])
        obtain ⟨family, xField, last⟩ := fields_of_withoutY xFits (by decide) encoded
        simp [decode?, decodeArithmetic?, family, xField, last]
    all_goals simp [isShift] at shift
  · rw [if_neg shift] at encoded
    rw [← encoded]
    exact decode?_encode fits

/-- Decoding finds exactly the instruction that a word spells. -/
theorem decode?_eq_some_iff {word : Word} {instruction : Instruction} :
    decode? word = some instruction ↔ instruction.SpelledBy word :=
  ⟨decode?_spelledBy, decode?_of_spelledBy⟩

theorem decode?_eq_none_iff {word : Word} :
    decode? word = none ↔ ¬∃ instruction : Instruction, instruction.SpelledBy word := by
  rw [Option.eq_none_iff_forall_ne_some]
  constructor
  · intro none ⟨instruction, spelled⟩
    exact none instruction (decode?_of_spelledBy spelled)
  · intro unspelled instruction decoded
    exact unspelled ⟨instruction, decode?_spelledBy decoded⟩

/-! ## The words of three instructions -/

theorem decode?_call_iff (word : Word) :
    (∃ nnn, decode? word = some (.call nnn)) ↔ word.family = 0x2 := by
  constructor
  · intro ⟨nnn, decoded⟩
    obtain ⟨fits, encoded⟩ := decode?_spelledBy decoded
    have spelled : withAddress 0x2 nnn = word := encoded
    rw [← spelled]
    exact family_withAddress (by decide) (fits.address nnn rfl)
  · intro family
    exact ⟨word.nnn, by simp [decode?, family]⟩

theorem decode?_ret_iff (word : Word) : decode? word = some .ret ↔ word = 0x00EE := by
  constructor
  · intro decoded
    have spelled : 0x00EE = word := (decode?_spelledBy decoded).encoded
    exact spelled.symm
  · intro ret
    rw [ret]
    rfl

theorem decode?_waitKey {word : Word} (family : word.family = 0xF) (byte : word.nn = 0x0A) :
    decode? word = some (.waitKey word.x) := by
  have low : word.toNat % 0x100 = 0x0A := by
    rw [← Word.toNat_nn, byte]
    rfl
  simp [decode?, decodeDevice?, family, low]

theorem decode?_waitKey_iff (word : Word) :
    (∃ x, decode? word = some (.waitKey x)) ↔ word.family = 0xF ∧ word.nn = 0x0A := by
  constructor
  · intro ⟨x, decoded⟩
    obtain ⟨fits, encoded⟩ := decode?_spelledBy decoded
    have xFits : x < 16 := fits.operands x (by simp [operands])
    have spelled : withByte 0xF x (0x0A : UInt8).toNat = word := encoded
    rw [← spelled]
    exact ⟨family_withByte (by decide) xFits (by decide), nn_withByte (by decide) xFits⟩
  · intro ⟨family, byte⟩
    exact ⟨word.x, decode?_waitKey family byte⟩

/-! ## Decoding at an address -/

theorem decode_eq_ok_iff {word pc : Word} {instruction : Instruction} :
    decode word pc = .ok instruction ↔ instruction.SpelledBy word := by
  rw [← decode?_eq_some_iff]
  unfold decode
  cases decode? word with
  | none => simp
  | some decoded => simp

theorem decode_eq_error_iff {word pc : Word} {failure : Failure} :
    decode word pc = .error failure ↔
      failure = .malformed word pc ∧
        ¬∃ instruction : Instruction, instruction.SpelledBy word := by
  rw [← decode?_eq_none_iff]
  unfold decode
  cases decode? word with
  | none => simp [eq_comm]
  | some decoded => simp

/-- Decoding and encoding at any address: an instruction that fits is read back
from its encoding; what is read from a word fits and encodes to that word, the
ignored nibble of a shift cleared; and the one failure there is comes exactly
from the words that spell no instruction. -/
theorem decode_accepts_exactly_encodings (pc : Word) :
    (∀ instruction : Instruction, instruction.Fits →
        decode instruction.encode pc = .ok instruction) ∧
      (∀ (word : Word) (instruction : Instruction), decode word pc = .ok instruction →
        instruction.Fits ∧
          instruction.encode = if instruction.isShift then word.withoutY else word) ∧
      ∀ word : Word,
        (decode word pc = .error (.malformed word pc) ↔
          ¬∃ instruction : Instruction, instruction.SpelledBy word) ∧
        ∀ failure, decode word pc = .error failure → failure = .malformed word pc := by
  refine ⟨?_, ?_, ?_⟩
  · intro instruction fits
    unfold decode
    rw [decode?_encode fits]
  · intro word instruction decoded
    have spelled := decode_eq_ok_iff.mp decoded
    exact ⟨spelled.fits, spelled.encoded⟩
  · intro word
    constructor
    · rw [decode_eq_error_iff]
      exact and_iff_right rfl
    · intro failure failed
      exact (decode_eq_error_iff.mp failed).1

-- The third nibble of a shift is lost, that of any other word is not.
example : decode 0x8AB6 0x200 = .ok (.shiftRight 0xA) ∧ (shiftRight 0xA).encode = 0x8A06 ∧
    decode 0x8AB7 0x200 = .ok (.subFrom 0xA 0xB) ∧ (subFrom 0xA 0xB).encode = 0x8AB7 ∧
    decode 0x8AB8 0x200 = .error (.malformed 0x8AB8 0x200) :=
  ⟨rfl, rfl, rfl, rfl, rfl⟩

end Instruction

end Chip8Vm
