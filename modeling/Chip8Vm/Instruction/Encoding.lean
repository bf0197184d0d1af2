import Chip8Vm.Instruction.Basic

/-!
# Instructions as words

Decoding sorts a word by its first nibble and then by as much of the rest as
its family needs.  Encoding writes the same table the other way; the two
shifts ignore their third nibble, which encoding leaves zero.
-/

namespace Chip8Vm

namespace Instruction

/-- The register-to-register family, sorted by the last nibble. -/
def decodeArithmetic? (word : Word) : Option Instruction :=
  match word.toNat % 0x10 with
  | 0x0 => some (.copy word.x word.y)
  | 0x1 => some (.or word.x word.y)
  | 0x2 => some (.and word.x word.y)
  | 0x3 => some (.xor word.x word.y)
  | 0x4 => some (.add word.x word.y)
  | 0x5 => some (.sub word.x word.y)
  | 0x6 => some (.shiftRight word.x)
  | 0x7 => some (.subFrom word.x word.y)
  | 0xE => some (.shiftLeft word.x)
  | _ => none

/-- The family of keys, sorted by the low byte. -/
def decodeKey? (word : Word) : Option Instruction :=
  match word.toNat % 0x100 with
  | 0x9E => some (.skipIfKey word.x)
  | 0xA1 => some (.skipUnlessKey word.x)
  | _ => none

/-- The family of timers, the index and memory, sorted by the low byte. -/
def decodeDevice? (word : Word) : Option Instruction :=
  match word.toNat % 0x100 with
  | 0x07 => some (.readDelay word.x)
  | 0x0A => some (.waitKey word.x)
  | 0x15 => some (.setDelay word.x)
  | 0x18 => some (.setSound word.x)
  | 0x1E => some (.addIndex word.x)
  | 0x29 => some (.loadGlyph word.x)
  | 0x33 => some (.storeDecimal word.x)
  | 0x55 => some (.storeRegisters word.x)
  | 0x65 => some (.loadRegisters word.x)
  | _ => none

/-- The instruction that a word spells, if it spells one. -/
def decode? (word : Word) : Option Instruction :=
  match word.family with
  | 0x0 =>
      match word.toNat with
      | 0x00E0 => some .clearScreen
      | 0x00EE => some .ret
      | _ => none
  | 0x1 => some (.jump word.nnn)
  | 0x2 => some (.call word.nnn)
  | 0x3 => some (.skipIfByte word.x word.nn)
  | 0x4 => some (.skipUnlessByte word.x word.nn)
  | 0x5 => if word.toNat % 0x10 = 0 then some (.skipIfSame word.x word.y) else none
  | 0x6 => some (.loadByte word.x word.nn)
  | 0x7 => some (.addByte word.x word.nn)
  | 0x8 => decodeArithmetic? word
  | 0x9 => if word.toNat % 0x10 = 0 then some (.skipUnlessSame word.x word.y) else none
  | 0xA => some (.loadIndex word.nnn)
  | 0xB => some (.jumpFrom word.nnn)
  | 0xC => some (.random word.x word.nn)
  | 0xD => some (.draw word.x word.y word.n)
  | 0xE => decodeKey? word
  | 0xF => decodeDevice? word
  | _ => none

def withByte (family x byte : Nat) : Word :=
  UInt16.ofNat (family * 0x1000 + x * 0x100 + byte)

def withAddress (family : Nat) (nnn : Word) : Word :=
  UInt16.ofNat (family * 0x1000 + nnn.toNat)

/-- The word that spells an instruction whose operands fit their places. -/
def encode : Instruction → Word
  | .clearScreen => 0x00E0
  | .ret => 0x00EE
  | .jump nnn => withAddress 0x1 nnn
  | .call nnn => withAddress 0x2 nnn
  | .skipIfByte x nn => withByte 0x3 x nn.toNat
  | .skipUnlessByte x nn => withByte 0x4 x nn.toNat
  | .skipIfSame x y => Word.ofNibbles 0x5 x y 0x0
  | .loadByte x nn => withByte 0x6 x nn.toNat
  | .addByte x nn => withByte 0x7 x nn.toNat
  | .copy x y => Word.ofNibbles 0x8 x y 0x0
  | .or x y => Word.ofNibbles 0x8 x y 0x1
  | .and x y => Word.ofNibbles 0x8 x y 0x2
  | .xor x y => Word.ofNibbles 0x8 x y 0x3
  | .add x y => Word.ofNibbles 0x8 x y 0x4
  | .sub x y => Word.ofNibbles 0x8 x y 0x5
  | .shiftRight x => Word.ofNibbles 0x8 x 0x0 0x6
  | .subFrom x y => Word.ofNibbles 0x8 x y 0x7
  | .shiftLeft x => Word.ofNibbles 0x8 x 0x0 0xE
  | .skipUnlessSame x y => Word.ofNibbles 0x9 x y 0x0
  | .loadIndex nnn => withAddress 0xA nnn
  | .jumpFrom nnn => withAddress 0xB nnn
  | .random x nn => withByte 0xC x nn.toNat
  | .draw x y n => Word.ofNibbles 0xD x y n.toNat
  | .skipIfKey x => withByte 0xE x 0x9E
  | .skipUnlessKey x => withByte 0xE x 0xA1
  | .readDelay x => withByte 0xF x 0x07
  | .waitKey x => withByte 0xF x 0x0A
  | .setDelay x => withByte 0xF x 0x15
  | .setSound x => withByte 0xF x 0x18
  | .addIndex x => withByte 0xF x 0x1E
  | .loadGlyph x => withByte 0xF x 0x29
  | .storeDecimal x => withByte 0xF x 0x33
  | .storeRegisters x => withByte 0xF x 0x55
  | .loadRegisters x => withByte 0xF x 0x65

end Instruction

end Chip8Vm
