-- SUMMARY: What is known at a point of a procedure, and how instructions read and change it.
import CodeLift.Frame
import CodeLift.Rtl.Fold
import CodeLift.State
import CodeLift.X86.Translation

/-!
# Progress

`Progress` is what is known at a point of a procedure: the processor state, the
identifiers handed out so far, and the depth at which the frame pointer was
loaded from the stack pointer.

A stack slot is told by its offset from the stack pointer at entry, whether it
is addressed through the stack pointer or through a frame pointer that was
copied from it.
-/

namespace CodeLift.X86

structure Progress where
  state : State
  frame : Frame
  /-- The depth at which the frame pointer was a copy of the stack pointer. -/
  frameDepth : Option Int
  deriving DecidableEq

/-- Change the state alone. -/
def Progress.withState (p : Progress) (f : State → State) : Progress :=
  { p with state := f p.state }

/-- Change the frame alone. -/
def Progress.withFrame (p : Progress) (f : Frame → Frame) : Progress :=
  { p with frame := f p.frame }

/-! ## Values -/

/-- What is known about the value of an operand. -/
def operandValue (s : State) : Operand → Constant
  | .register r => s.register r
  | .immediate value bits => .ofInt bits value
  | .address a => .ofNat a.width.bits a.linear
  | .memory _ => .unknown

/-! ## Changes of the state -/

/-- Set the operand to a value, if it is a register. -/
def setOperand (o : Operand) (value : Constant) (s : State) : State :=
  match o with
  | .register r => s.setRegister r value
  | _ => s

/-- The bytes by which `dst op src` grows the stack. -/
def growthOf (op : BinaryOp) (dst src : Operand) : Int :=
  match dst, src with
  | .register r, .immediate value _ =>
    if isStackPointer r then
      match op with
      | .sub => value
      | _ => -value
    else 0
  | _, _ => 0

/-- Write the folded result of `dst op src` to `dst`. -/
def foldInto (op : BinaryOp) (dst src : Operand) (s : State) : State :=
  match dst with
  | .register r => s.setRegister r (op.fold (s.register r) (operandValue s src) r.bits)
  | _ => s

/-- Move the stack pointer by `bytes`, as far as its value is known. -/
def shiftStackPointer (mode : Mode) (bytes : Int) (s : State) : State :=
  let sp := stackPointer mode.bits
  s.setRegister sp ((s.register sp).displace bytes)

namespace Progress

/-! ## Stack slots and the frame pointer -/

/-- The depth that the offsets of a base register are counted from. -/
def depthOf? (p : Progress) (base : Register) : Option Int :=
  if isStackPointer base then some p.state.depth
  else if isFramePointer base then p.frameDepth
  else none

/-- The offset from the stack pointer at entry of the slot that a reference addresses. -/
def entryOffset? (p : Progress) (m : MemoryRef) : Option Int :=
  match m.index, m.base.bind p.depthOf? with
  | none, some depth =>
    if -modulus 31 ≤ m.displacement ∧ m.displacement < modulus 31 then
      some (wrap32 (m.displacement - depth))
    else none
  | _, _ => none

/-- The stack slot that an operand addresses, with the width of the access. -/
def slot? (p : Progress) : Operand → Option (Int × Nat)
  | .memory m => (p.entryOffset? m).map fun offset => (offset, m.bits)
  | _ => none

/-- Follow a write to `dst`: a frame pointer is of use only as a copy of the stack pointer. -/
def follow (p : Progress) (dst : Operand) (src : Option Operand) : Progress :=
  match dst with
  | .register r =>
    if isFramePointer r then
      match src with
      | some (.register source) =>
        { p with frameDepth := if isStackPointer source then some p.state.depth else none }
      | _ => { p with frameDepth := none }
    else p
  | _ => p

end Progress

/-- The operand that an instruction writes, and the one that a move copies there. -/
def written? (i : Instruction) : Option (Operand × Option Operand) :=
  match i.operation, i.operands with
  | .move, dst :: rest => some (dst, rest.head?)
  | .add, dst :: _ | .sub, dst :: _ | .and, dst :: _ | .or, dst :: _ | .xor, dst :: _
  | .pop, dst :: _ => some (dst, none)
  | _, _ => none

/-! ## Calls and identifiers -/

namespace Setting

variable (s : Setting)

/-- The signature of the procedure that a call goes to. -/
def calleeSignature? (target : Operand) : Option Signature :=
  ((callSlot? s.mode target).bind s.host.signature?).or
    ((s.import? target).bind fun name => Signature.ofDecoratedName? name s.returnSize)

/-- Ask for the identifier of a stack slot; the return address has none. -/
def nameSlot (f : Frame) (slot : Int × Nat) : Frame :=
  if slot.1 < 0 then f.addLocal slot.1 slot.2
  else if (s.returnSize : Int) ≤ slot.1 then f.addArgument slot.1 slot.2
  else f

/-- Ask for the identifiers of an instruction's registers and stack slots. -/
def nameOperands (operands : List Operand) (slots : List (Int × Nat)) (f : Frame) : Frame :=
  slots.foldl s.nameSlot ((operands.filterMap Operand.register?).foldl Frame.addRegister f)

end Setting

end CodeLift.X86
