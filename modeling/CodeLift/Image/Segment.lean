-- SUMMARY: Named segments of a loaded program and the map of them.
import CodeLift.Image

/-!
# Segments

A segment is a named image with access rights. A segment map keeps segments in
the order of their start, one per start, and looks an address up in the last
segment that does not start behind it.
-/

namespace CodeLift

structure Access where
  read : Bool
  write : Bool
  execute : Bool
  deriving DecidableEq

/-- The rights as a number: 1 for reading, 2 for writing, 4 for execution. -/
def Access.bits (a : Access) : Nat := a.read.toNat + 2 * a.write.toNat + 4 * a.execute.toNat

structure Segment where
  name : String
  image : Image
  access : Access
  deriving DecidableEq

namespace Segment

def start (s : Segment) : Address := s.image.base

def limit (s : Segment) : Address := s.image.limit

def contains (s : Segment) (a : Address) : Bool := s.image.contains a

end Segment

structure SegmentMap where
  segments : List Segment
  deriving DecidableEq

namespace SegmentMap

def empty : SegmentMap := ⟨[]⟩

/-- Insert in order of start, in place of a segment with the same start. -/
def insertSorted (s : Segment) : List Segment → List Segment
  | [] => [s]
  | x :: rest =>
    match s.start.order x.start with
    | .lt => s :: x :: rest
    | .eq => s :: rest
    | .gt => x :: insertSorted s rest

def insert (m : SegmentMap) (s : Segment) : SegmentMap := ⟨insertSorted s m.segments⟩

def size (m : SegmentMap) : Nat := m.segments.length

def isEmpty (m : SegmentMap) : Bool := m.segments.isEmpty

/-- The last segment that starts at the address or before it, if it contains the address. -/
def at? (m : SegmentMap) (a : Address) : Option Segment :=
  ((m.segments.filter fun s => s.start.linear ≤ a.linear).getLast?).filter (·.contains a)

def isMapped (m : SegmentMap) (a : Address) : Bool := (m.at? a).isSome

def isExecutable (m : SegmentMap) (a : Address) : Bool := (m.at? a).any (·.access.execute)

end SegmentMap

end CodeLift
