-- SUMMARY: Rewriting one instruction: its statements, and what becomes of its procedure.
import CodeLift.DecodeError
import CodeLift.InPlace
import CodeLift.X86.Progress

/-!
# Rewriting an instruction

An instruction is rewritten step by step: its operands are looked at, statements are
emitted, the frame is asked for identifiers, and what is known about the processor
is changed. There is one function for each operation, and each of them may refuse
the instruction at any of its steps.

Two idioms are special. An exclusive or of a register with itself only zeroes it and
leaves the flags alone; any other exclusive or is refused. Registers and stack slots
get identifiers only when their instruction has been rewritten.
-/

namespace CodeLift.X86

/-- Why there is no cluster. -/
inductive LiftError where
  | unsupported (i : Instruction)
  | undecodable (e : DecodeError)
  deriving DecidableEq

namespace LiftError

def address : LiftError → Address
  | .unsupported i => i.address
  | .undecodable e => e.address

/-- The bytes that are passed over: the instruction, or one byte. -/
def length : LiftError → Nat
  | .unsupported i => i.length
  | .undecodable _ => 1

/-- The word for an error in reports. -/
def kind : LiftError → String
  | .unsupported _ => "UnsupportedInstruction"
  | .undecodable e => e.fault.kind

def message : LiftError → String
  | .unsupported i => s!"unsupported instruction at {i.address.render}: {i.render}"
  | .undecodable e => e.message

end LiftError

/-- What a rewriting works on. -/
structure Work where
  progress : Progress
  /-- The statements so far. -/
  statements : List Stmt
  /-- What has been reported so far. -/
  events : List Event

abbrev Rewriter := InPlace LiftError Work

/-! ## Steps -/

namespace Rewriter

def emit (statement : Stmt) : Rewriter Unit :=
  modify fun w => { w with statements := w.statements ++ [statement] }

def report (events : List Event) : Rewriter Unit :=
  modify fun w => { w with events := w.events ++ events }

def state : Rewriter State := return (← get).progress.state

def onProgress (f : Progress → Progress) : Rewriter Unit :=
  modify fun w => { w with progress := f w.progress }

def onState (f : State → State) : Rewriter Unit := onProgress (·.withState f)

def onFrame (f : Frame → Frame) : Rewriter Unit := onProgress (·.withFrame f)

/-- Refuse the instruction unless there is a value to go on with. -/
def demand {α : Type} (i : Instruction) : Option α → Rewriter α
  | some x => return x
  | none => throw (.unsupported i)

/-- The destination and the source. -/
def operands (i : Instruction) : Rewriter (Operand × Operand) :=
  match i.operands with
  | [dst, src] => return (dst, src)
  | _ => throw (.unsupported i)

/-- The only operand. -/
def operand (i : Instruction) : Rewriter Operand :=
  match i.operands with
  | [o] => return o
  | _ => throw (.unsupported i)

end Rewriter

open Rewriter

/-! ## Operations -/

namespace Setting

variable (s : Setting)

/-- The group of the flags in `mask`. -/
def flags (i : Instruction) (mask : Nat) : Rewriter FlagGroup :=
  demand i ((processor s.mode).flags.group? mask)

def rewriteMove (i : Instruction) : Rewriter Unit := do
  let (dst, src) ← operands i
  if dst.isImmediate then throw (.unsupported i)
  emit (.set (s.expr dst) (s.expr src))
  onState fun t => setOperand dst (operandValue t src) t

def rewriteArithmetic (op : BinaryOp) (i : Instruction) : Rewriter Unit := do
  let (dst, src) ← operands i
  let bits ← demand i dst.bits?
  let group ← s.flags i arithmeticMask
  onFrame (·.addFlags group)
  emit (.set (s.expr dst) (.binary op (s.expr dst) (s.expr src) bits))
  emit (.set (.flags group) (.conditionOf (s.expr dst)))
  onState (foldInto op dst src)
  onState (·.grow (growthOf op dst src))
  onState (·.setFlag group .unknown)

def rewriteCompare (i : Instruction) : Rewriter Unit := do
  let (dst, src) ← operands i
  let bits ← demand i dst.bits?
  let group ← s.flags i arithmeticMask
  onFrame (·.addFlags group)
  emit (.set (.flags group) (.conditionOf (.binary .sub (s.expr dst) (s.expr src) bits)))
  onState (·.setFlag group .unknown)

def rewriteLogical (op : BinaryOp) (i : Instruction) : Rewriter Unit := do
  let (dst, src) ← operands i
  let bits ← demand i dst.bits?
  let group ← s.flags i logicalMask
  let cleared ← s.flags i carryFlag
  onFrame (·.addFlags group)
  onFrame (·.addFlags cleared)
  emit (.set (s.expr dst) (.binary op (s.expr dst) (s.expr src) bits))
  emit (.set (.flags group) (.conditionOf (s.expr dst)))
  emit (.set (.flags cleared) (.constant (.ofBool false)))
  onState (foldInto op dst src)
  onState (·.setFlag group .unknown)
  onState (·.setFlag cleared (.ofBool false))

/-- Only a register is zeroed that is combined with itself. -/
def rewriteXor (i : Instruction) : Rewriter Unit := do
  let r ← demand i (sameRegister? i.operands)
  report [.debug .translator s!"{i.address.render}: {i.mnemonic} zeroes {r.name}"]
  emit (.set (.register r) (.constant (.zero r.bits)))
  onState (·.setRegister r (.zero r.bits))

/-- Move the stack pointer by `bytes`, and keep track of its value. -/
def rewriteStackPointer (bytes : Int) : Rewriter Unit := do
  emit (moveStackPointer s.mode bytes)
  onState (shiftStackPointer s.mode bytes)

def rewritePush (i : Instruction) : Rewriter Unit := do
  let src ← operand i
  s.rewriteStackPointer (-s.slotBytes src)
  emit (.store (s.slotAccess src) (s.expr src))
  let value := operandValue (← state) src
  onState (·.grow (s.slotBytes src))
  let offset := (← state).top
  onState (·.setSlot offset value)
  onFrame (·.addLocal offset (slotBits s.mode src))

def rewritePop (i : Instruction) : Rewriter Unit := do
  let dst ← operand i
  if dst.isImmediate then throw (.unsupported i)
  emit (.set (s.expr dst) (s.slotAccess dst))
  s.rewriteStackPointer (s.slotBytes dst)
  let t ← state
  onState (setOperand dst (t.slot t.top))
  onState (·.grow (-s.slotBytes dst))

def rewriteCall (i : Instruction) : Rewriter Unit := do
  let target ← operand i
  let site := (← state).callSite s.returnSize
  emit (.call (s.callee target) s.returnSize)
  let signature := s.calleeSignature? target
  if signature.isNone && (callSlot? s.mode target).isNone then
    report [.warned i.address "indirect call to unknown callee"]
  onState (·.afterCall site signature)
  report (State.afterCallEvents site signature)

def rewriteJump (i : Instruction) : Rewriter Unit := do
  let target ← operand i
  emit (.goto (s.expr target))

def rewriteBranch (i : Instruction) : Rewriter Unit :=
  match i.flow with
  | .branch target condition _ => do
    let group ← s.flags i (conditionMask condition)
    onFrame (·.addFlags group)
    emit (.branch (.test condition group) target)
  | _ => throw (.unsupported i)

def rewriteReturn (i : Instruction) : Rewriter Unit :=
  match i.operands with
  | [] => emit (.ret s.returnSize 0)
  | [.immediate value bits] => emit (.ret s.returnSize (immediateBits value bits % modulus 16))
  | _ => throw (.unsupported i)

/-! ## Instructions -/

def rewrite (i : Instruction) : Rewriter Unit :=
  match i.operation with
  | .nop => emit .nop
  | .move => s.rewriteMove i
  | .add => s.rewriteArithmetic .add i
  | .sub => s.rewriteArithmetic .sub i
  | .compare => s.rewriteCompare i
  | .and => s.rewriteLogical .and i
  | .or => s.rewriteLogical .or i
  | .xor => rewriteXor i
  | .push => s.rewritePush i
  | .pop => s.rewritePop i
  | .call => s.rewriteCall i
  | .jump => s.rewriteJump i
  | .conditionalJump => s.rewriteBranch i
  | .ret => s.rewriteReturn i
  | .addWithCarry | .subWithBorrow | .other _ => throw (.unsupported i)

/-- Ask for the identifiers of a rewritten instruction, and follow the frame pointer. -/
def commit (i : Instruction) (slots : List (Int × Nat)) : Rewriter Unit := do
  onFrame (s.nameOperands i.operands slots)
  match written? i with
  | some (dst, src) => onProgress (·.follow dst src)
  | none => return

/-- Rewrite an instruction and commit it. The slots it addresses are those before the rewriting. -/
def lift (i : Instruction) : Rewriter Unit := do
  let slots := i.operands.filterMap (← get).progress.slot?
  s.rewrite i
  s.commit i slots

end Setting

end CodeLift.X86
