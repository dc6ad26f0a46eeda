-- SUMMARY: Prefix bytes of an instruction and the sizes they select.
import CodeLift.X86.Registers

/-!
# Prefixes

Any number of prefix bytes stand before the opcode. Of several segment
overrides the last counts, and repetition changes nothing. `Sizes` is what the
rest of the decoder sees of mode and prefixes.
-/

namespace CodeLift.X86

structure Prefixes where
  lock : Bool
  repeatNotEqual : Bool
  repeatEqual : Bool
  /-- The segment override. -/
  segment : Option Register
  operandSize : Bool
  addressSize : Bool
  deriving DecidableEq

namespace Prefixes

def none : Prefixes := ⟨false, false, false, .none, false, false⟩

/-- Take note of a byte, if it is a prefix byte. -/
def note? (p : Prefixes) (b : UInt8) : Option Prefixes :=
  match b.toNat with
  | 0xF0 => some { p with lock := true }
  | 0xF2 => some { p with repeatNotEqual := true }
  | 0xF3 => some { p with repeatEqual := true }
  | 0x26 => some { p with segment := some es }
  | 0x2E => some { p with segment := some cs }
  | 0x36 => some { p with segment := some ss }
  | 0x3E => some { p with segment := some ds }
  | 0x64 => some { p with segment := some fs }
  | 0x65 => some { p with segment := some gs }
  | 0x66 => some { p with operandSize := true }
  | 0x67 => some { p with addressSize := true }
  | _ => .none

end Prefixes

/-- The other one of the sizes 16 and 32. -/
def otherSize (bits : Nat) : Nat := if bits = 16 then 32 else 16

/-- What mode and prefixes mean to the rest of an instruction. -/
structure Sizes where
  operand : Nat
  address : Nat
  segment : Option Register
  /-- The operand size prefix is present; it selects SSE registers. -/
  wide : Bool
  deriving DecidableEq

def Prefixes.sizes (p : Prefixes) (m : Mode) : Sizes where
  operand := if p.operandSize then otherSize m.bits else m.bits
  address := if p.addressSize then otherSize m.bits else m.bits
  segment := p.segment
  wide := p.operandSize

end CodeLift.X86
