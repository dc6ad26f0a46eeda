-- SUMMARY: Instruction operands and their text.
import CodeLift.Address.Text
import CodeLift.Register

/-!
# Operands

An operand is a register, an immediate value, a memory reference
`segment:[base + index * scale + displacement]`, or the address that a direct
jump or call goes to. All but the last have a width.
-/

namespace CodeLift

open Text

structure MemoryRef where
  base : Option Register
  index : Option Register
  scale : Nat
  displacement : Int
  /-- The width of the access. -/
  bits : Nat
  /-- The segment register that is asked for explicitly. -/
  segment : Option Register
  deriving DecidableEq

inductive Operand where
  | register (r : Register)
  | immediate (value : Int) (bits : Nat)
  | memory (m : MemoryRef)
  | address (a : Address)
  deriving DecidableEq

namespace Operand

def isRegister : Operand → Bool
  | .register _ => true
  | _ => false

def isImmediate : Operand → Bool
  | .immediate _ _ => true
  | _ => false

def isMemory : Operand → Bool
  | .memory _ => true
  | _ => false

def register? : Operand → Option Register
  | .register r => some r
  | _ => none

def bits? : Operand → Option Nat
  | .register r => some r.bits
  | .immediate _ bits => some bits
  | .memory m => some m.bits
  | .address _ => none

end Operand

/-- The low `bits` bits of an immediate value, at most 64. -/
def immediateBits (value : Int) (bits : Nat) : Nat := (value % modulus (min bits 64)).toNat

/-! ## Printer -/

/-- A signed number by sign and lower-case digits: `-0x1f`. -/
def signedHex (value : Int) : String :=
  (if value < 0 then "-0x" else "0x") ++ String.ofList (lowerHex value.natAbs)

/-- The parts of a memory reference that are registers, joined by `+`. -/
def MemoryRef.registersText (m : MemoryRef) : String :=
  let base := m.base.toList.map Register.name
  let index := m.index.toList.map fun r => if 1 < m.scale then s!"{r.name}*{m.scale}" else r.name
  "+".intercalate (base ++ index)

/-- The displacement behind the registers. Alone it is written as an unsigned 64-bit number. -/
def MemoryRef.displacementText (m : MemoryRef) : String :=
  if m.base.isNone && m.index.isNone then String.ofList (upperHex (wrap64 m.displacement))
  else if m.displacement = 0 then ""
  else
    (if m.displacement < 0 then "-" else "+") ++ String.ofList (upperHex m.displacement.natAbs)

def MemoryRef.render (m : MemoryRef) : String :=
  let segment := match m.segment with
    | some r => r.name ++ ":"
    | none => ""
  segment ++ "[" ++ m.registersText ++ m.displacementText ++ "]"

def Operand.render : Operand → String
  | .register r => r.name
  | .immediate value _ => signedHex value
  | .memory m => m.render
  | .address a => a.render

end CodeLift
