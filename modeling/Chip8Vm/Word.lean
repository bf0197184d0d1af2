/-!
# Instruction words

An instruction word is sixteen bits long.  Its operands are read off fixed
positions; every word has a value at every position, whether or not it spells
an instruction.
-/

namespace Chip8Vm

/-- Sixteen bits: an instruction word, an address or a return address. -/
abbrev Word := UInt16

namespace Word

/-- The most significant nibble, which sorts the words into sixteen families. -/
def family (word : Word) : Nat :=
  word.toNat / 0x1000

/-- The second nibble, a register number. -/
def x (word : Word) : Nat :=
  word.toNat / 0x100 % 0x10

/-- The third nibble, a register number. -/
def y (word : Word) : Nat :=
  word.toNat / 0x10 % 0x10

def n (word : Word) : UInt8 :=
  UInt8.ofNat (word.toNat % 0x10)

def nn (word : Word) : UInt8 :=
  UInt8.ofNat (word.toNat % 0x100)

/-- The low twelve bits, an address. -/
def nnn (word : Word) : Word :=
  UInt16.ofNat (word.toNat % 0x1000)

/-- The word of two consecutive bytes, high byte first. -/
def ofBytes (high low : UInt8) : Word :=
  UInt16.ofNat (high.toNat * 0x100 + low.toNat)

def ofNibbles (first second third fourth : Nat) : Word :=
  UInt16.ofNat (first * 0x1000 + second * 0x100 + third * 0x10 + fourth)

theorem family_lt (word : Word) : word.family < 16 := by
  have bound := word.toNat_lt
  unfold family
  omega

theorem x_lt (word : Word) : word.x < 16 :=
  Nat.mod_lt _ (by decide)

theorem y_lt (word : Word) : word.y < 16 :=
  Nat.mod_lt _ (by decide)

@[simp] theorem toNat_n (word : Word) : word.n.toNat = word.toNat % 0x10 := by
  have bound : word.toNat % 0x10 < 0x100 := by omega
  simp [n, Nat.mod_eq_of_lt bound]

@[simp] theorem toNat_nn (word : Word) : word.nn.toNat = word.toNat % 0x100 := by
  simp [nn]

@[simp] theorem toNat_nnn (word : Word) : word.nnn.toNat = word.toNat % 0x1000 := by
  have bound : word.toNat % 0x1000 < 0x10000 := by omega
  simp [nnn, Nat.mod_eq_of_lt bound]

@[simp] theorem toNat_ofBytes (high low : UInt8) :
    (ofBytes high low).toNat = high.toNat * 0x100 + low.toNat := by
  have highBound := high.toNat_lt
  have lowBound := low.toNat_lt
  simp [ofBytes]
  omega

end Word

end Chip8Vm
