import Chip8Vm.Word

/-!
# Memory

Memory is 4096 bytes.  An address is a word of which only the low twelve bits
count, so reading and writing are total and wrap around the end of memory.
-/

namespace Chip8Vm

/-- The bytes of memory by address. -/
abbrev Memory := Vector UInt8 4096

namespace Memory

def size : Nat := 4096

/-- The bits of a word that count in an address. -/
def addressMask : Word := 0x0FFF

/-- Where programs are loaded and where execution starts. -/
def programStart : Word := 0x200

/-- The number of bytes between the start of a program and the end of memory. -/
def maxProgramSize : Nat := size - programStart.toNat

/-- An address brought into the range of memory. -/
def wrap (address : Word) : Word :=
  address &&& addressMask

theorem toNat_wrap (address : Word) : (wrap address).toNat = address.toNat % 4096 := by
  simpa [wrap, addressMask] using Nat.and_two_pow_sub_one_eq_mod address.toNat 12

def cell (address : Word) : Fin 4096 :=
  ⟨(wrap address).toNat, by rw [toNat_wrap]; exact Nat.mod_lt _ (by decide)⟩

def read (memory : Memory) (address : Word) : UInt8 :=
  memory[cell address]

def write (memory : Memory) (address : Word) (value : UInt8) : Memory :=
  memory.set (cell address) value

/-- Memory with consecutive bytes replaced, the first one at `start`. -/
def writeAll (memory : Memory) (start : Word) : List UInt8 → Memory
  | [] => memory
  | value :: rest => (memory.write start value).writeAll (start + 1) rest

def readAll (memory : Memory) (start : Word) (count : Nat) : List UInt8 :=
  (List.range count).map fun offset => memory.read (start + UInt16.ofNat offset)

theorem read_write (memory : Memory) (written address : Word) (value : UInt8) :
    (memory.write written value).read address =
      if cell written = cell address then value else memory.read address := by
  simp [read, write, Vector.getElem_set, Fin.ext_iff]

theorem length_readAll (memory : Memory) (start : Word) (count : Nat) :
    (memory.readAll start count).length = count := by
  simp [readAll]

end Memory

end Chip8Vm
