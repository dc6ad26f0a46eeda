-- SUMMARY: The tables of a processor that never change.
import CodeLift.ByteOrder
import CodeLift.Flag
import CodeLift.Register.Table
import CodeLift.Width

/-!
# Processors

A processor is known by its registers, its flags, its distinguished registers
and the sizes that pushes, calls and pointers have.
-/

namespace CodeLift

structure Processor where
  name : String
  description : String
  registers : RegisterTable
  flags : FlagTable
  stackPointer : Register
  instructionPointer : Register
  /-- The register that selects the segment of code, where addresses have one. -/
  codeSegment : Option Register
  /-- The width of a near pointer. -/
  pointerWidth : Width
  /-- The width of a stack slot. -/
  wordBits : Nat
  order : ByteOrder
  /-- The bytes that a call pushes. -/
  returnSize : Nat
  deriving DecidableEq

/-- Addresses of this processor name a segment. -/
def Processor.isSegmented (p : Processor) : Bool := p.codeSegment.isSome

end CodeLift
