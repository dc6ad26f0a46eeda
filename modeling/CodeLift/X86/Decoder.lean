-- SUMMARY: Decoding one instruction.
import CodeLift.X86.Form
import CodeLift.X86.ModRM

/-!
# Decoding

Decoding has two stages. The first reads the bytes and knows nothing of the
address: it gives a `Body`, in which jumps and calls have distances. The second
places the body at an address and turns distances into targets, counted from the
end of the instruction. An instruction has at most 15 bytes.
-/

namespace CodeLift.X86

/-- The greatest length of an instruction. -/
def maxLength : Nat := 15

/-- What a transfer of control by a distance does. -/
inductive Transfer where
  | jump
  | call
  | branch (condition : Condition)
  deriving DecidableEq

/-- What the bytes of an instruction say, wherever it stands. -/
inductive Body where
  | plain (mnemonic : String) (operation : Operation) (operands : List Operand) (flow : Flow)
  | relative (transfer : Transfer) (distance : Int)
  deriving DecidableEq

/-- A body from which control goes on in sequence. -/
def Body.sequential (mnemonic : String) (operation : Operation) (operands : List Operand) : Body :=
  .plain mnemonic operation operands .sequential

/-! ## Reading bodies -/

namespace Decoding

/-- The width of an operand: a byte in narrow forms. -/
def width (sizes : Sizes) (narrow : Bool) : Nat := if narrow then 8 else sizes.operand

/-- Two operands, destination first. -/
def inOrder (toRegister : Bool) (rm reg : Operand) : List Operand :=
  if toRegister then [reg, rm] else [rm, reg]

/-- The form of a register and a register or memory operand. -/
def pair (sizes : Sizes) (bank : Bank) (toRegister : Bool) : Decoding (List Operand) := do
  let m ← modRM
  let rm ← rmOperand sizes m bank
  return inOrder toRegister rm (regOperand m bank)

/-- The body behind the second opcode byte. -/
def secondBody (sizes : Sizes) : SecondForm → Decoding Body
  | .branchNear condition => do
    return .relative (.branch condition) (← signed sizes.operand)
  | .exclusiveOr => do
    return .sequential "pxor" .xor (← pair sizes (if sizes.wide then .xmm else .mmx) true)

/-- The body behind the opcode byte. -/
def body (sizes : Sizes) : Form → Decoding Body
  | .alu op narrow toRegister => do
    let operands ← pair sizes (.general (width sizes narrow)) toRegister
    return .sequential op.mnemonic op.operation operands
  | .aluAccumulator op narrow => do
    let bits := width sizes narrow
    let value ← signed bits
    return .sequential op.mnemonic op.operation
      [.register (general 0 bits), .immediate value bits]
  | .aluImmediate narrow short => do
    let bits := width sizes narrow
    let m ← modRM
    let rm ← rmOperand sizes m (.general bits)
    let value ← signed (if short then 8 else bits)
    let op := Alu.ofIndex m.reg
    return .sequential op.mnemonic op.operation [rm, .immediate value bits]
  | .pushSegment number =>
    match segment? number with
    | some r => return .sequential "push" .push [.register r]
    | none => unknownOpcode
  | .popSegment number =>
    match segment? number with
    | some r => return .sequential "pop" .pop [.register r]
    | none => unknownOpcode
  | .pushRegister number =>
    return .sequential "push" .push [.register (general number sizes.operand)]
  | .popRegister number =>
    return .sequential "pop" .pop [.register (general number sizes.operand)]
  | .pushImmediate short => do
    let value ← signed (width sizes short)
    return .sequential "push" .push [.immediate value sizes.operand]
  | .popOperand => do
    let m ← modRM
    if m.reg ≠ 0 then fail (.invalidEncoding "8F requires /0")
    else
      let rm ← rmOperand sizes m (.general sizes.operand)
      return .sequential "pop" .pop [rm]
  | .move narrow toRegister => do
    let operands ← pair sizes (.general (width sizes narrow)) toRegister
    return .sequential "mov" .move operands
  | .moveSegment toSegment => do
    let m ← modRM
    match segment? m.reg with
    | none => fail (.invalidEncoding "no such segment register")
    | some r =>
      let rm ← rmOperand sizes m (.general 16)
      return .sequential "mov" .move (inOrder toSegment rm (.register r))
  | .moveImmediate number narrow => do
    let bits := width sizes narrow
    let value ← signed bits
    return .sequential "mov" .move [.register (general number bits), .immediate value bits]
  | .moveImmediateOperand narrow => do
    let bits := width sizes narrow
    let m ← modRM
    if m.reg ≠ 0 then fail (.invalidEncoding "C6/C7 require /0")
    else
      let rm ← rmOperand sizes m (.general bits)
      let value ← signed bits
      return .sequential "mov" .move [rm, .immediate value bits]
  | .branchShort condition => do
    return .relative (.branch condition) (← signed 8)
  | .call => do
    return .relative .call (← signed sizes.operand)
  | .jump short => do
    return .relative .jump (← signed (width sizes short))
  | .ret popsMore =>
    if popsMore then do
      let extra ← signed 16
      return .plain "ret" .ret [.immediate (extra % modulus 16) 16] .ret
    else return .plain "ret" .ret [] .ret
  | .nop => return .sequential "nop" .nop []
  | .indirect => do
    let m ← modRM
    let rm ← rmOperand sizes m (.general sizes.operand)
    match m.reg with
    | 2 => return .plain "call" .call [rm] .indirectCall
    | 4 => return .plain "jmp" .jump [rm] .indirectJump
    | 6 => return .sequential "push" .push [rm]
    | n => fail (.unsupported s!"FF /{n}")
  | .secondMap => do
    match SecondForm.ofOpcode? (← byte) with
    | some form => secondBody sizes form
    | none => unknownOpcode

/-- Read prefix bytes and the opcode byte behind them. -/
def opcodeFrom (p : Prefixes) (taken : List UInt8) :
    List UInt8 → Except Fault ((Prefixes × UInt8) × Cursor)
  | [] => .error (.truncated (taken.length + 1) taken.length)
  | b :: rest =>
    match p.note? b with
    | some p => opcodeFrom p (taken ++ [b]) rest
    | none => .ok ((p, b), ⟨taken ++ [b], rest⟩)

def opcode : Decoding (Prefixes × UInt8) := fun c => opcodeFrom .none c.taken c.rest

/-- Read a whole instruction. -/
def instruction (mode : Mode) : Decoding Body := do
  let (prefixes, opcode) ← opcode
  match Form.ofOpcode? opcode with
  | some form => body (prefixes.sizes mode) form
  | none => unknownOpcode

end Decoding

/-- The body that the bytes spell, and the bytes that belong to it. -/
def readBody (mode : Mode) (bytes : List UInt8) : Except Fault (Body × List UInt8) :=
  match Decoding.instruction mode ⟨[], bytes.take maxLength⟩ with
  | .ok (body, c) => .ok (body, c.taken)
  | .error fault => .error fault

/-! ## Placing bodies -/

/-- The instruction of a body at an address. -/
def Body.place (body : Body) (address : Address) (bytes : List UInt8) : Instruction :=
  match body with
  | .plain mnemonic operation operands flow =>
    ⟨address, bytes, mnemonic, operation, operands, flow⟩
  | .relative transfer distance =>
    let next := address.advance bytes.length
    let target := next.displace distance
    match transfer with
    | .jump => ⟨address, bytes, "jmp", .jump, [.address target], .jump target⟩
    | .call => ⟨address, bytes, "call", .call, [.address target], .call target next⟩
    | .branch condition =>
      ⟨address, bytes, "j" ++ condition.suffix, .conditionalJump, [.address target],
        .branch target condition next⟩

/-- Decode the instruction at an address from the bytes there. -/
def decode (mode : Mode) (address : Address) (bytes : List UInt8) :
    Except DecodeError Instruction :=
  match readBody mode bytes with
  | .ok (body, bytes) => .ok (body.place address bytes)
  | .error fault => .error ⟨address, fault⟩

end CodeLift.X86
