import Chip8Vm.Instruction.Basic
import Chip8Vm.Text.Numeral

/-!
# Assembler text

Register numbers are written in hexadecimal without padding, bytes with two
digits and addresses with three at the least; a row count is decimal.
-/

namespace Chip8Vm

namespace Instruction

def registerName (number : Nat) : String :=
  "V" ++ Numeral.hex 1 number

def byteText (value : UInt8) : String :=
  Numeral.hexLiteral 2 value.toNat

def addressText (address : Word) : String :=
  Numeral.hexLiteral 3 address.toNat

def twoOperands (operation left right : String) : String :=
  operation ++ " " ++ left ++ ", " ++ right

def mnemonic : Instruction → String
  | .clearScreen => "CLS"
  | .ret => "RET"
  | .jump nnn => "JP " ++ addressText nnn
  | .call nnn => "CALL " ++ addressText nnn
  | .skipIfByte x nn => twoOperands "SE" (registerName x) (byteText nn)
  | .skipUnlessByte x nn => twoOperands "SNE" (registerName x) (byteText nn)
  | .skipIfSame x y => twoOperands "SE" (registerName x) (registerName y)
  | .loadByte x nn => twoOperands "LD" (registerName x) (byteText nn)
  | .addByte x nn => twoOperands "ADD" (registerName x) (byteText nn)
  | .copy x y => twoOperands "LD" (registerName x) (registerName y)
  | .or x y => twoOperands "OR" (registerName x) (registerName y)
  | .and x y => twoOperands "AND" (registerName x) (registerName y)
  | .xor x y => twoOperands "XOR" (registerName x) (registerName y)
  | .add x y => twoOperands "ADD" (registerName x) (registerName y)
  | .sub x y => twoOperands "SUB" (registerName x) (registerName y)
  | .shiftRight x => "SHR " ++ registerName x
  | .subFrom x y => twoOperands "SUBN" (registerName x) (registerName y)
  | .shiftLeft x => "SHL " ++ registerName x
  | .skipUnlessSame x y => twoOperands "SNE" (registerName x) (registerName y)
  | .loadIndex nnn => twoOperands "LD" "I" (addressText nnn)
  | .jumpFrom nnn => twoOperands "JP" "V0" (addressText nnn)
  | .random x nn => twoOperands "RND" (registerName x) (byteText nn)
  | .draw x y n =>
      twoOperands "DRW" (registerName x) (registerName y) ++ ", " ++ Numeral.decimal n.toNat
  | .skipIfKey x => "SKP " ++ registerName x
  | .skipUnlessKey x => "SKNP " ++ registerName x
  | .readDelay x => twoOperands "LD" (registerName x) "DT"
  | .waitKey x => twoOperands "LD" (registerName x) "K"
  | .setDelay x => twoOperands "LD" "DT" (registerName x)
  | .setSound x => twoOperands "LD" "ST" (registerName x)
  | .addIndex x => twoOperands "ADD" "I" (registerName x)
  | .loadGlyph x => twoOperands "LD" "F" (registerName x)
  | .storeDecimal x => twoOperands "LD" "B" (registerName x)
  | .storeRegisters x => twoOperands "LD" "[I]" (registerName x)
  | .loadRegisters x => twoOperands "LD" (registerName x) "[I]"

end Instruction

end Chip8Vm
