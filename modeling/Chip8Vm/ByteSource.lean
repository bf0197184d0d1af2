/-!
# Byte sources

A source delivers its bytes in pieces and then ends or breaks.  A piece
without bytes is how a source says that it has ended.
-/

namespace Chip8Vm

/-- Bytes to be read piece by piece. -/
inductive ByteSource where
  | ended
  | broken (reason : String)
  | delivers (piece : List UInt8) (rest : ByteSource)

namespace ByteSource

def ofBytes (bytes : List UInt8) : ByteSource :=
  .delivers bytes .ended

/-- Reads until the source ends or `limit` bytes have arrived.  A source that
breaks before that gives its reason; one that would break later is not asked
again. -/
def readUpTo : ByteSource → Nat → Except String (List UInt8)
  | _, 0 => .ok []
  | .ended, _ => .ok []
  | .broken reason, _ => .error reason
  | .delivers [] _, _ => .ok []
  | .delivers piece rest, limit =>
      match rest.readUpTo (limit - piece.length) with
      | .ok bytes => .ok (piece.take limit ++ bytes)
      | .error reason => .error reason

end ByteSource

end Chip8Vm
