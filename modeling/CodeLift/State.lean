-- SUMMARY: What is known about a processor at a point of a procedure.
import CodeLift.Event
import CodeLift.Processor
import CodeLift.Signature
import CodeLift.Store

/-!
# Processor states

While a procedure is lifted, a state keeps what is known about registers, flag
groups and stack slots, and how far the stack has grown since entry. Writes are
exact: writing `eax` does not change what `ax` reads. Stack slots are told by
their offset from the stack pointer at entry.

A state may know a flag group that compiled code keeps clear across procedure
boundaries; such a state also reports when a procedure is left.
-/

namespace CodeLift

structure State where
  processor : Processor
  /-- The flag group that is clear on entry and after every call. -/
  cleared : Option FlagGroup
  registers : Store Register
  /-- The flag groups, by mask. -/
  flags : Store Nat
  /-- The stack slots, by offset. -/
  stack : Store Int
  /-- The address of the instruction being lifted. -/
  pointer : Option Address
  /-- The bytes pushed since entry. -/
  depth : Int
  deriving DecidableEq

/-- What is noted just before a call. -/
structure CallSite where
  returnSize : Nat
  /-- The depth before the return address is pushed. -/
  depth : Int
  deriving DecidableEq

/-- The depth behind a call of a procedure with the given signature. -/
def CallSite.depthAfter (site : CallSite) (signature : Signature) : Int :=
  wrap32 (site.depth - signature.extraBytes site.returnSize)

namespace State

/-- A state in which nothing is known. -/
def initial (processor : Processor) (cleared : Option FlagGroup) : State :=
  ⟨processor, cleared, .empty, .empty, .empty, none, 0⟩

/-! ## Reading and writing -/

def register (s : State) (r : Register) : Constant := s.registers.get r

def setRegister (s : State) (r : Register) (value : Constant) : State :=
  { s with registers := s.registers.set r value }

def flag (s : State) (g : FlagGroup) : Constant := s.flags.get g.mask

def setFlag (s : State) (g : FlagGroup) (value : Constant) : State :=
  { s with flags := s.flags.set g.mask value }

def slot (s : State) (offset : Int) : Constant := s.stack.get offset

def setSlot (s : State) (offset : Int) (value : Constant) : State :=
  { s with stack := s.stack.set offset value }

/-- Grow the stack by `bytes`. -/
def grow (s : State) (bytes : Int) : State := { s with depth := wrap32 (s.depth + bytes) }

/-- The offset of the stack slot at the stack pointer. -/
def top (s : State) : Int := wrap32 (-s.depth)

/-- Move to an instruction. Its selector becomes the value of the code segment register. -/
def setPointer (s : State) (a : Address) : State :=
  match s.processor.codeSegment, a.selector? with
  | some cs, some selector =>
    { s with pointer := some a, registers := s.registers.set cs (.ofNat cs.bits selector.toNat) }
  | _, _ => { s with pointer := some a }

/-- The registers with a known value. -/
def knownRegisters (s : State) : List (Register × Constant) := s.registers.known

/-! ## Procedure boundaries -/

/-- Clear the flag group that compiled code keeps clear. -/
def clear (s : State) : State :=
  match s.cleared with
  | some g => s.setFlag g (.ofBool false)
  | none => s

def enter (s : State) : State := s.clear

/-- What is reported on leaving a procedure with the given signature. -/
def leaveEvents (s : State) (signature : Signature) : List Event :=
  if s.cleared.isSome then
    [.debug .conventions
      s!"left {signature.name} at depth {s.depth} (callee pops {signature.stackDelta})"]
  else []

/-! ## Calls -/

def callSite (s : State) (returnSize : Nat) : CallSite := ⟨returnSize, s.depth⟩

/-- Forget the registers that a call does not keep, and take its arguments off the stack. -/
def applyCall (s : State) (site : CallSite) (signature : Signature) : State :=
  let lost := signature.trashed ++ signature.result.toList
  { lost.foldl (fun s r => s.setRegister r .unknown) s with depth := site.depthAfter signature }

/-- What is reported behind a call. -/
def callEvents (site : CallSite) (signature : Signature) : List Event :=
  [.trace .calls
    (s!"after call to {signature.name}: {signature.extraBytes site.returnSize} extra byte(s) " ++
      s!"popped, depth {site.depthAfter signature}")]

/-- The state behind a call. Without a signature nothing is assumed of the callee. -/
def afterCall (s : State) (site : CallSite) (signature : Option Signature) : State :=
  match signature with
  | some signature => (s.applyCall site signature).clear
  | none => s.clear

def afterCallEvents (site : CallSite) (signature : Option Signature) : List Event :=
  match signature with
  | some signature => callEvents site signature
  | none => []

end State

end CodeLift
