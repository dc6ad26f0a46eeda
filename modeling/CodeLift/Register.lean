-- SUMMARY: Registers as bit ranges of storage domains.
import CodeLift.Width

/-!
# Registers

A register is a range of bits in a storage domain. The register that owns a
domain gives it its number; a register carved out of another one lies in the
same domain. Registers alias when they share a domain and a bit.

Bit masks have 128 bits: what lies above them is not seen by the masks. Positions
in a domain are counted in 16 bits, so that a sum of them may wrap around.
-/

namespace CodeLift

inductive RegisterClass where
  | general
  | vector
  | segment
  | stackPointer
  | programCounter
  | flags
  | other
  deriving DecidableEq

/-- The word for a register class in tables and saved data. -/
def RegisterClass.name : RegisterClass → String
  | .general => "General"
  | .vector => "Vector"
  | .segment => "Segment"
  | .stackPointer => "StackPointer"
  | .programCounter => "ProgramCounter"
  | .flags => "Flags"
  | .other => "Other"

def RegisterClass.all : List RegisterClass :=
  [.general, .vector, .segment, .stackPointer, .programCounter, .flags, .other]

def RegisterClass.ofName? (name : String) : Option RegisterClass :=
  RegisterClass.all.find? fun c => c.name == name

structure Register where
  name : String
  number : Nat
  domain : Nat
  /-- The first bit in the domain. -/
  offset : Nat
  bits : Nat
  kind : RegisterClass
  deriving DecidableEq

namespace Register

/-- A register that owns the domain of its number. -/
def root (name : String) (number : Nat) (kind : RegisterClass) (bits : Nat) : Register :=
  ⟨name, number, number, 0, bits, kind⟩

/-- The register of `bits` bits that starts at bit `offset` of `r`. -/
def carve (r : Register) (name : String) (number offset bits : Nat) : Register :=
  ⟨name, number, r.domain, (r.offset + offset) % modulus 16, bits, r.kind⟩

/-- A register carved out of another one. -/
def isPart (r : Register) : Bool := r.domain != r.number

/-- The position behind the last bit, as it is counted. -/
def countedEnd (r : Register) : Nat := (r.offset + r.bits) % modulus 16

/-- The bits of the register in its domain, as far as 128 bits reach. -/
def mask (r : Register) : Nat := (modulus (min r.bits 128) - 1) * modulus r.offset % modulus 128

/-- The registers have a bit in common. -/
def overlaps (a b : Register) : Bool := a.domain == b.domain && a.mask &&& b.mask != 0

/-- Every bit of `b` is a bit of `a`. -/
def covers (a b : Register) : Bool := a.domain == b.domain && a.mask &&& b.mask == b.mask

end Register

end CodeLift
