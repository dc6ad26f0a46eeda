-- SUMMARY: The opcode maps: which encoding form an opcode byte selects.
import CodeLift.Instruction
import CodeLift.X86.Registers

/-!
# Encoding forms

An opcode byte selects a form: which operation it is, and which parts follow.
`Form.ofOpcode?` is the map of one-byte opcodes, `SecondForm.ofOpcode?` that of
the opcodes behind `0F`. A byte outside the maps is an unknown opcode.
-/

namespace CodeLift.X86

/-- The operations that share the regular block of opcodes and the immediate group. -/
inductive Alu where
  | add
  | or
  | adc
  | sbb
  | and
  | sub
  | xor
  | cmp
  deriving DecidableEq

namespace Alu

def ofIndex : Nat → Alu
  | 0 => .add
  | 1 => .or
  | 2 => .adc
  | 3 => .sbb
  | 4 => .and
  | 5 => .sub
  | 6 => .xor
  | _ => .cmp

def mnemonic : Alu → String
  | .add => "add"
  | .or => "or"
  | .adc => "adc"
  | .sbb => "sbb"
  | .and => "and"
  | .sub => "sub"
  | .xor => "xor"
  | .cmp => "cmp"

def operation : Alu → Operation
  | .add => .add
  | .or => .or
  | .adc => .addWithCarry
  | .sbb => .subWithBorrow
  | .and => .and
  | .sub => .sub
  | .xor => .xor
  | .cmp => .compare

end Alu

/-- The forms of one-byte opcodes. A narrow form works on bytes; a short one has a byte
immediate or displacement. -/
inductive Form where
  | alu (op : Alu) (narrow toRegister : Bool)
  | aluAccumulator (op : Alu) (narrow : Bool)
  | aluImmediate (narrow short : Bool)
  | pushSegment (number : Nat)
  | popSegment (number : Nat)
  | pushRegister (number : Nat)
  | popRegister (number : Nat)
  | pushImmediate (short : Bool)
  | popOperand
  | move (narrow toRegister : Bool)
  | moveSegment (toSegment : Bool)
  | moveImmediate (number : Nat) (narrow : Bool)
  | moveImmediateOperand (narrow : Bool)
  | branchShort (condition : Condition)
  | call
  | jump (short : Bool)
  | ret (popsMore : Bool)
  | nop
  | indirect
  | secondMap
  deriving DecidableEq

/-- The regular block `00` to `3F`: eight operations with six forms each. -/
def Form.ofRegular (code : Nat) : Form :=
  let op := Alu.ofIndex (code / 8)
  let narrow := code % 2 == 0
  if code % 8 < 4 then .alu op narrow (code / 2 % 2 == 1) else .aluAccumulator op narrow

def Form.ofOpcode? (opcode : UInt8) : Option Form :=
  let code := opcode.toNat
  let narrow := code % 2 == 0
  if code < 0x40 ∧ code % 8 < 6 then some (.ofRegular code)
  else if code = 0x06 ∨ code = 0x0E ∨ code = 0x16 ∨ code = 0x1E then some (.pushSegment (code / 8))
  else if code = 0x07 ∨ code = 0x17 ∨ code = 0x1F then some (.popSegment (code / 8))
  else if code = 0x0F then some .secondMap
  else if 0x50 ≤ code ∧ code ≤ 0x57 then some (.pushRegister (code % 8))
  else if 0x58 ≤ code ∧ code ≤ 0x5F then some (.popRegister (code % 8))
  else if code = 0x68 then some (.pushImmediate false)
  else if code = 0x6A then some (.pushImmediate true)
  else if 0x70 ≤ code ∧ code ≤ 0x7F then some (.branchShort (.ofCode code))
  else if 0x80 ≤ code ∧ code ≤ 0x83 then some (.aluImmediate narrow (code != 0x81))
  else if 0x88 ≤ code ∧ code ≤ 0x8B then some (.move narrow (code / 2 % 2 == 1))
  else if code = 0x8C then some (.moveSegment false)
  else if code = 0x8E then some (.moveSegment true)
  else if code = 0x8F then some .popOperand
  else if code = 0x90 then some .nop
  else if 0xB0 ≤ code ∧ code ≤ 0xBF then some (.moveImmediate (code % 8) (code < 0xB8))
  else if code = 0xC2 then some (.ret true)
  else if code = 0xC3 then some (.ret false)
  else if code = 0xC6 ∨ code = 0xC7 then some (.moveImmediateOperand narrow)
  else if code = 0xE8 then some .call
  else if code = 0xE9 then some (.jump false)
  else if code = 0xEB then some (.jump true)
  else if code = 0xFF then some .indirect
  else none

/-- The forms of opcodes behind `0F`. -/
inductive SecondForm where
  | branchNear (condition : Condition)
  | exclusiveOr
  deriving DecidableEq

def SecondForm.ofOpcode? (opcode : UInt8) : Option SecondForm :=
  let code := opcode.toNat
  if 0x80 ≤ code ∧ code ≤ 0x8F then some (.branchNear (.ofCode code))
  else if code = 0xEF then some .exclusiveOr
  else none

end CodeLift.X86
