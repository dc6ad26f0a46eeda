-- SUMMARY: Stretches of loaded bytes and positions in them.
import CodeLift.Address.Text

/-!
# Images

An image is a stretch of bytes loaded at a base address. A position is a byte
offset; the end of the image is a position too, but not one of its bytes.
Positions are told from addresses by the linear distance from the base.
-/

namespace CodeLift

/-- Why an access to an image failed. -/
inductive ImageError where
  | outOfBounds (address : Address) (requested available : Nat)
  | notMapped (address : Address)
  deriving DecidableEq

/-- The word for an error in reports. -/
def ImageError.kind : ImageError → String
  | .outOfBounds _ _ _ => "OutOfBounds"
  | .notMapped _ => "AddressNotMapped"

def ImageError.message : ImageError → String
  | .outOfBounds address requested available =>
    s!"out of bounds at {address.render}: requested {requested} bytes, {available} available"
  | .notMapped address => s!"address {address.render} is not mapped"

structure Image where
  base : Address
  bytes : List UInt8
  deriving DecidableEq

namespace Image

def size (m : Image) : Nat := m.bytes.length

/-- The address at a position. -/
def addressAt (m : Image) (position : Nat) : Address := m.base.advance position

/-- The address just past the last byte. -/
def limit (m : Image) : Address := m.addressAt m.size

/-- The position at an address, the end included. -/
def position? (m : Image) (a : Address) : Option Nat :=
  if m.base.linear ≤ a.linear ∧ a.linear - m.base.linear ≤ m.size then
    some (a.linear - m.base.linear)
  else none

/-- The address is that of a byte. -/
def contains (m : Image) (a : Address) : Bool :=
  match m.position? a with
  | some position => position < m.size
  | none => false

/-- The bytes with `data` in place of those from `position` on. -/
def overwrite (m : Image) (position : Nat) (data : List UInt8) : Image :=
  { m with
    bytes := m.bytes.take position ++ data ++ m.bytes.drop (position + data.length) }

theorem le_size_of_position? {m : Image} {a : Address} {position : Nat}
    (h : m.position? a = some position) : position ≤ m.size := by
  unfold position? at h
  split at h
  · next hrange =>
    cases h
    exact hrange.2
  · cases h

end Image

end CodeLift
