-- SUMMARY: Finding the places in memory that refer to known addresses.
import CodeLift.Event
import CodeLift.Image.Segment
import CodeLift.X86.Reference

/-!
# Scanning

A scan tries every position of a reader's range and keeps those that refer to
one of the known addresses. A call or jump counts only if its target can be
executed, as far as segments are known at all.
-/

namespace CodeLift

/-- The kinds of reference that a scan looks for. -/
structure ScanKinds where
  pointers : Bool
  calls : Bool
  jumps : Bool
  deriving DecidableEq

def ScanKinds.all : ScanKinds := ⟨true, true, true⟩

structure Scan where
  mode : X86.Mode
  segments : SegmentMap
  known : List Address
  kinds : ScanKinds

namespace Scan

def isKnown (s : Scan) (a : Address) : Bool := s.known.any (·.coincides a)

/-- The address may be the target of a call or jump. -/
def isCode (s : Scan) (a : Address) : Bool := s.segments.isEmpty || s.segments.isExecutable a

/-- The place where the reader stands refers to a known address. -/
def matchesAt (s : Scan) (r : Reader) : Bool :=
  (s.kinds.pointers && (X86.matchPointer s.mode r).1.any s.isKnown) ||
  (s.kinds.calls && (X86.matchCall s.mode r).1.any fun a => s.isKnown a && s.isCode a) ||
  (s.kinds.jumps && (X86.matchJump s.mode r).1.any fun a => s.isKnown a && s.isCode a)

/-- The hits among the next `n` positions. -/
def hitsFrom (s : Scan) : Nat → Reader → List Address
  | 0, _ => []
  | n + 1, r =>
    let rest := s.hitsFrom n { r with position := r.position + 1 }
    if s.matchesAt r then r.address :: rest else rest

/-- The places in the reader's range that refer to a known address, in order. -/
def hits (s : Scan) (r : Reader) : List Address := s.hitsFrom r.remaining r

/-- What is reported of the hits. -/
def events (hits : List Address) : List Event :=
  hits.map fun a => .trace .scanner s!"reference at {a.render}"

end Scan

end CodeLift
