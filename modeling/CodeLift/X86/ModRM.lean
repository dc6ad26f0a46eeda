-- SUMMARY: Operands given by the ModR/M and SIB bytes.
import CodeLift.Operand
import CodeLift.X86.Cursor
import CodeLift.X86.Prefixes

/-!
# ModR/M operands

The ModR/M byte names a register by its `reg` field, and by `mode` and `rm` a
register or a memory reference. The address size selects one of two schemes:
with 16 bits eight fixed sums of registers, with 32 bits any register, or a SIB
byte with base, index and scale. A displacement of one, two or four bytes
follows.
-/

namespace CodeLift.X86

structure ModRM where
  mode : Nat
  reg : Nat
  rm : Nat
  deriving DecidableEq

def ModRM.ofByte (b : UInt8) : ModRM := ⟨b.toNat / 64, b.toNat / 8 % 8, b.toNat % 8⟩

/-- The scale, index and base of a SIB byte. -/
structure Sib where
  scale : Nat
  index : Nat
  base : Nat
  deriving DecidableEq

def Sib.ofByte (b : UInt8) : Sib := ⟨1 <<< (b.toNat / 64), b.toNat / 8 % 8, b.toNat % 8⟩

/-- The registers that a register number picks from. -/
inductive Bank where
  | general (bits : Nat)
  | mmx
  | xmm
  deriving DecidableEq

def Bank.register (b : Bank) (n : Nat) : Register :=
  match b with
  | .general bits => X86.general n bits
  | .mmx => mm n
  | .xmm => X86.xmm n

/-- The width of an operand from this bank. -/
def Bank.bits : Bank → Nat
  | .general bits => bits
  | .mmx => 64
  | .xmm => 128

namespace Decoding

def modRM : Decoding ModRM := do
  return .ofByte (← byte)

/-! ## Memory references -/

/-- Base and index of a 16-bit reference. -/
def registers16 : Nat → Register × Option Register
  | 0 => (bx, some si)
  | 1 => (bx, some di)
  | 2 => (bp, some si)
  | 3 => (bp, some di)
  | 4 => (si, none)
  | 5 => (di, none)
  | 6 => (bp, none)
  | _ => (bx, none)

/-- The displacement of a reference with a base: none, one byte, or `bits` bits. -/
def displacement (mode bits : Nat) : Decoding Int :=
  if mode = 1 then signed 8 else if mode = 2 then signed bits else pure 0

def memory16 (m : ModRM) (bits : Nat) : Decoding MemoryRef :=
  if m.mode = 0 ∧ m.rm = 6 then do
    let place ← signed 16
    return ⟨none, none, 1, place % modulus 16, bits, none⟩
  else do
    let (base, index) := registers16 m.rm
    let place ← displacement m.mode 16
    return ⟨some base, index, 1, place, bits, none⟩

/-- A base register with displacement, or only a displacement of 32 bits. -/
def memory32Based (mode base bits : Nat) (index : Option Register) (scale : Nat) :
    Decoding MemoryRef :=
  if mode = 0 ∧ base = 5 then do
    let place ← signed 32
    return ⟨none, index, scale, place, bits, none⟩
  else do
    let place ← displacement mode 32
    return ⟨some (general base 32), index, scale, place, bits, none⟩

def memory32 (m : ModRM) (bits : Nat) : Decoding MemoryRef :=
  if m.rm = 4 then do
    let sib := Sib.ofByte (← byte)
    if sib.index = 4 then memory32Based m.mode sib.base bits none 1
    else memory32Based m.mode sib.base bits (some (general sib.index 32)) sib.scale
  else memory32Based m.mode m.rm bits none 1

/-! ## Operands -/

/-- The operand named by `mode` and `rm`, with the segment override. -/
def rmOperand (sizes : Sizes) (m : ModRM) (bank : Bank) : Decoding Operand :=
  if m.mode = 3 then pure (.register (bank.register m.rm))
  else do
    let place ← whole (if sizes.address = 16 then memory16 m bank.bits else memory32 m bank.bits)
    return .memory { place with segment := sizes.segment }

/-- The register named by `reg`. -/
def regOperand (m : ModRM) (bank : Bank) : Operand := .register (bank.register m.reg)

end Decoding

end CodeLift.X86
