/-!
# Random bytes

A source of randomness is an endless stream of 64-bit draws together with the
number of draws taken.  A random byte is the low byte of a draw.
-/

namespace Chip8Vm

/-- A stream of draws and the number of those already taken. -/
structure RandomStream where
  draws : Nat → UInt64
  taken : Nat

namespace RandomStream

/-- The arithmetic progression modulo 2 ^ 64 with the given start and step. -/
def progression (start step : UInt64) : RandomStream where
  draws := fun position => start + UInt64.ofNat position * step
  taken := 0

def nextByte (random : RandomStream) : UInt8 :=
  (random.draws random.taken).toUInt8

def advance (random : RandomStream) : RandomStream :=
  { random with taken := random.taken + 1 }

end RandomStream

end Chip8Vm
