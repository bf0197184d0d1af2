import Chip8Vm.Word

/-!
# The call stack

Sixteen slots for return addresses and a count of those in use.  Leaving a
subroutine lowers the count and keeps the slot's contents, so a slot beyond
the count still shows the last address it held.
-/

namespace Chip8Vm

/-- The slots of the call stack and the number of them in use. -/
structure CallStack where
  slots : Vector Word 16
  depth : UInt8

namespace CallStack

def capacity : Nat := 16

/-- No slot in use and every slot zero. -/
def empty : CallStack where
  slots := Vector.replicate 16 0
  depth := 0

/-- The return addresses in use, the oldest first. -/
def addresses (stack : CallStack) : List Word :=
  stack.slots.toList.take stack.depth.toNat

/-- Takes a slot for a return address, unless all are in use. -/
def push? (stack : CallStack) (address : Word) : Option CallStack :=
  if free : stack.depth.toNat < 16 then
    some
      { slots := stack.slots.set stack.depth.toNat address
        depth := stack.depth + 1 }
  else
    none

/-- The slot of the newest return address.  There is none when no slot is in
use or the count lies beyond the last slot. -/
def top? (stack : CallStack) : Option Word :=
  if stack.depth = 0 then none else stack.slots[stack.depth.toNat - 1]?

/-- Gives the newest slot back and keeps its contents. -/
def pop (stack : CallStack) : CallStack :=
  { stack with depth := stack.depth - 1 }

theorem addresses_push? {stack pushed : CallStack} {address : Word}
    (taken : stack.push? address = some pushed) :
    pushed.addresses = stack.addresses ++ [address] := by
  unfold push? at taken
  split at taken
  · rename_i free
    cases taken
    have next : (stack.depth + 1).toNat = stack.depth.toNat + 1 := by
      simp [UInt8.toNat_add]
      omega
    simp only [addresses, next, Vector.toList_set]
    rw [List.take_add_one]
    simp [free, List.take_set_of_le]
  · cases taken

theorem addresses_empty : empty.addresses = [] := rfl

theorem length_addresses {stack : CallStack} (bounded : stack.depth.toNat ≤ 16) :
    stack.addresses.length = stack.depth.toNat := by
  simp [addresses, bounded]

theorem addresses_pop {stack : CallStack} (used : stack.depth ≠ 0)
    (bounded : stack.depth.toNat ≤ 16) :
    stack.pop.addresses = stack.addresses.dropLast := by
  have positive : stack.depth.toNat ≠ 0 := fun zero => used (UInt8.toNat_inj.mp zero)
  have lowered : (stack.depth - 1).toNat = stack.depth.toNat - 1 := by
    have one : (1 : UInt8) ≤ stack.depth := UInt8.le_iff_toNat_le.mpr (by simp; omega)
    simp [UInt8.toNat_sub_of_le _ _ one]
  simp only [addresses, pop, lowered, List.dropLast_eq_take, List.take_take]
  rw [List.length_take, Vector.length_toList]
  congr 1
  omega

theorem top?_eq_getLast? {stack : CallStack} (bounded : stack.depth.toNat ≤ 16) :
    stack.top? = stack.addresses.getLast? := by
  unfold top?
  split
  · rename_i unused
    simp [addresses, unused]
  · rename_i used
    have positive : stack.depth.toNat ≠ 0 := fun zero => used (UInt8.toNat_inj.mp zero)
    have within : stack.depth.toNat - 1 < 16 := by omega
    have below : stack.depth.toNat - 1 < stack.depth.toNat := by omega
    rw [List.getLast?_eq_getElem?, length_addresses bounded]
    simp [addresses, below, within]

theorem push?_isSome_iff (stack : CallStack) (address : Word) :
    (stack.push? address).isSome ↔ stack.depth.toNat < 16 := by
  unfold push?
  split <;> simp_all

end CallStack

end Chip8Vm
