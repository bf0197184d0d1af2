/-!
# Timers

Two byte timers that count down to zero and stay there.  The delay timer is
read by programs; a tone plays while the sound timer runs.
-/

namespace Chip8Vm

structure Timers where
  delay : UInt8
  sound : UInt8
  deriving DecidableEq

namespace Timers

def stopped : Timers where
  delay := 0
  sound := 0

/-- A timer one tick later, never below zero. -/
def lowered (timer : UInt8) : UInt8 :=
  if timer = 0 then 0 else timer - 1

def tick (timers : Timers) : Timers where
  delay := lowered timers.delay
  sound := lowered timers.sound

def sounding (timers : Timers) : Bool :=
  0 < timers.sound

/-- The usual number of ticks in a second. -/
def ticksPerSecond : Nat := 60

theorem toNat_lowered (timer : UInt8) : (lowered timer).toNat = timer.toNat - 1 := by
  unfold lowered
  split
  · simp_all
  · rename_i running
    have positive : timer.toNat ≠ 0 := fun zero => running (UInt8.toNat_inj.mp zero)
    rw [UInt8.toNat_sub_of_le _ _ (UInt8.le_iff_toNat_le.mpr (by simp; omega))]
    rfl

end Timers

end Chip8Vm
