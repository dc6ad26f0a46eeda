-- SUMMARY: Decoded machine instructions: operation, operands and control flow.
import CodeLift.Condition
import CodeLift.Operand

/-!
# Instructions

An instruction is what a decoder makes of some bytes at an address: an
operation with operands, destination first, and where control goes next.
-/

namespace CodeLift

open Text

/-- What an instruction does, apart from its operands. -/
inductive Operation where
  | move
  | push
  | pop
  | add
  | sub
  | addWithCarry
  | subWithBorrow
  | and
  | or
  | xor
  | compare
  | jump
  | conditionalJump
  | call
  | ret
  | nop
  | other (code : Nat)
  deriving DecidableEq

/-- The word for an operation in saved data. -/
def Operation.tag : Operation → String
  | .move => "Move"
  | .push => "Push"
  | .pop => "Pop"
  | .add => "Add"
  | .sub => "Sub"
  | .addWithCarry => "AddWithCarry"
  | .subWithBorrow => "SubWithBorrow"
  | .and => "And"
  | .or => "Or"
  | .xor => "Xor"
  | .compare => "Compare"
  | .jump => "Jump"
  | .conditionalJump => "ConditionalJump"
  | .call => "Call"
  | .ret => "Return"
  | .nop => "Nop"
  | .other _ => "Other"

/-- The operations without a code. -/
def Operation.plain : List Operation :=
  [.move, .push, .pop, .add, .sub, .addWithCarry, .subWithBorrow, .and, .or, .xor, .compare,
   .jump, .conditionalJump, .call, .ret, .nop]

/-- The operation without a code that a word stands for. -/
def Operation.ofTag? (tag : String) : Option Operation :=
  Operation.plain.find? fun o => o.tag == tag

/-- The name of an operation in reports. -/
def Operation.name : Operation → String
  | .move => "move"
  | .push => "push"
  | .pop => "pop"
  | .add => "add"
  | .sub => "sub"
  | .addWithCarry => "adc"
  | .subWithBorrow => "sbb"
  | .and => "and"
  | .or => "or"
  | .xor => "xor"
  | .compare => "compare"
  | .jump => "jump"
  | .conditionalJump => "cond_jump"
  | .call => "call"
  | .ret => "return"
  | .nop => "nop"
  | .other _ => "other"

/-- Where control goes after an instruction. -/
inductive Flow where
  | sequential
  | jump (target : Address)
  | branch (target : Address) (condition : Condition) (next : Address)
  | indirectJump
  | call (target next : Address)
  | indirectCall
  | ret
  | halt
  deriving DecidableEq

/-- The word for a flow in reports. -/
def Flow.kind : Flow → String
  | .sequential => "Sequential"
  | .jump _ => "UnconditionalBranch"
  | .branch _ _ _ => "ConditionalBranch"
  | .indirectJump => "IndirectBranch"
  | .call _ _ => "Call"
  | .indirectCall => "IndirectCall"
  | .ret => "Return"
  | .halt => "Halt"

structure Instruction where
  address : Address
  bytes : List UInt8
  mnemonic : String
  operation : Operation
  operands : List Operand
  flow : Flow
  deriving DecidableEq

namespace Instruction

def length (i : Instruction) : Nat := i.bytes.length

/-- The address of the following instruction. -/
def next (i : Instruction) : Address := i.address.advance i.length

def isCall (i : Instruction) : Bool :=
  match i.flow with
  | .call _ _ | .indirectCall => true
  | _ => false

def isReturn (i : Instruction) : Bool := i.flow == .ret

/-- Control never goes on to the following instruction. -/
def leaves (i : Instruction) : Bool :=
  match i.flow with
  | .jump _ | .indirectJump | .ret | .halt => true
  | _ => false

/-- One line of a listing: address, bytes in eight columns, mnemonic and operands. -/
def render (i : Instruction) : String :=
  let bytes := String.join (i.bytes.map fun b => String.ofList (byteHex b ++ [' ']))
  let filler := String.ofList (List.replicate (3 * (8 - i.length)) ' ')
  let operands :=
    if i.operands.isEmpty then "" else " " ++ ",".intercalate (i.operands.map Operand.render)
  s!"{i.address.render}  {bytes}{filler} {i.mnemonic}{operands}"

end Instruction

end CodeLift
