-- SUMMARY: Reading the bytes of one instruction in order.
import CodeLift.ByteOrder
import CodeLift.DecodeError

/-!
# Cursors

A cursor divides the bytes at hand into those that belong to the instruction so
far and those still to come. Reading moves bytes from the second part to the
end of the first, so the two together stay what they were.
-/

namespace CodeLift.X86

structure Cursor where
  taken : List UInt8
  rest : List UInt8
  deriving DecidableEq

def Cursor.size (c : Cursor) : Nat := c.taken.length + c.rest.length

/-- A reading step over the bytes of an instruction. -/
abbrev Decoding (α : Type) := StateT Cursor (Except Fault) α

namespace Decoding

/-- Read the next `n` bytes. -/
def bytes (n : Nat) : Decoding (List UInt8) := fun c =>
  if c.rest.length < n then .error (.truncated (c.taken.length + n) c.size)
  else .ok (c.rest.take n, ⟨c.taken ++ c.rest.take n, c.rest.drop n⟩)

def byte : Decoding UInt8 := fun c =>
  match c.rest with
  | [] => .error (.truncated (c.taken.length + 1) c.size)
  | b :: rest => .ok (b, ⟨c.taken ++ [b], rest⟩)

/-- Read a two's complement number of `bits` bits. -/
def signed (bits : Nat) : Decoding Int := do
  return signedLittleEndian (← bytes (bits / 8))

/-- Fail with the bytes read so far as an unknown opcode. -/
def unknownOpcode {α : Type} : Decoding α := fun c => .error (.unknownOpcode c.taken)

def fail {α : Type} (fault : Fault) : Decoding α := fun _ => .error fault

/-- Read a part that needs at least one byte more than there are if it is cut off. -/
def whole {α : Type} (part : Decoding α) : Decoding α := fun c =>
  match part c with
  | .ok result => .ok result
  | .error _ => .error (.truncated (c.size + 1) c.size)

end Decoding

end CodeLift.X86
