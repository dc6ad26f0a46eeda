-- SUMMARY: Addresses, flat or in a real-mode segment, and their arithmetic.
import CodeLift.Width

/-!
# Addresses

An address is an offset in a space: a flat space of some width, or a real-mode
segment, whose offsets have 16 bits. Every address has a linear form, and two
addresses are the same place when their linear forms agree, whatever spaces they
are written in.

Displacements stay in the space of the address. `advance` and `displace` wrap
around at its size; `add?` refuses to leave it.
-/

namespace CodeLift

/-- Where offsets are counted. -/
inductive Space where
  | flat (width : Width)
  | segment (selector : UInt16)
  deriving DecidableEq

/-- The width of an offset. -/
def Space.width : Space → Width
  | .flat w => w
  | .segment _ => .w16

/-- The number of offsets. -/
def Space.size (s : Space) : Nat := modulus s.width.bits

/-- The linear form of offset zero. -/
def Space.origin : Space → Nat
  | .flat _ => 0
  | .segment selector => selector.toNat * 16

theorem Space.size_pos (s : Space) : 0 < s.size := modulus_pos _

structure Address where
  space : Space
  offset : Nat
  offset_lt : offset < space.size
  deriving DecidableEq

@[ext] theorem Address.ext {a b : Address} (hspace : a.space = b.space)
    (hoffset : a.offset = b.offset) : a = b := by
  obtain ⟨space, offset, h⟩ := a
  obtain ⟨_, _, h'⟩ := b
  cases hspace
  cases hoffset
  rfl

/-- Why an address could not be made. -/
inductive AddressError where
  | tooWide (value bits : Nat)
  | notInSegment (selector offset : Nat)
  | malformed (text : String)
  deriving DecidableEq

namespace Address

/-! ## Making addresses -/

/-- The address of an offset, which wraps around at the size of the space. -/
def wrapping (space : Space) (offset : Nat) : Address :=
  ⟨space, offset % space.size, Nat.mod_lt _ space.size_pos⟩

def flat? (width : Width) (value : Nat) : Except AddressError Address :=
  if h : value < (Space.flat width).size then .ok ⟨.flat width, value, h⟩
  else .error (.tooWide value width.bits)

def segmented? (selector offset : Nat) : Except AddressError Address :=
  if h : selector < modulus 16 ∧ offset < modulus 16 then
    .ok ⟨.segment (UInt16.ofNat selector), offset, h.2⟩
  else .error (.notInSegment selector offset)

/-! ## Views -/

def linear (a : Address) : Nat := a.space.origin + a.offset

def width (a : Address) : Width := a.space.width

def selector? (a : Address) : Option UInt16 :=
  match a.space with
  | .flat _ => none
  | .segment selector => some selector

def isSegmented (a : Address) : Bool := a.selector?.isSome

/-- Both addresses are the same place. -/
def coincides (a b : Address) : Bool := a.linear == b.linear

/-- The order of places. -/
def order (a b : Address) : Ordering := compare a.linear b.linear

/-- The linear distance from `b` to `a`, as a signed 64-bit integer. -/
def distance (a b : Address) : Int := ((a.linear : Int) - b.linear).bmod (modulus 64)

/-! ## Displacement -/

/-- The address `n` bytes on, wrapping around at the end of its space. -/
def advance (a : Address) (n : Nat) : Address := wrapping a.space (a.offset + n)

/-- The address displaced by `d`, wrapping around at both ends of its space. -/
def displace (a : Address) (d : Int) : Address := a.advance (wrap64 d)

/-- The address displaced by `d`, if that stays in its space. -/
def add? (a : Address) (d : Int) : Option Address :=
  if h : 0 ≤ a.offset + d ∧ a.offset + d < a.space.size then
    some ⟨a.space, (a.offset + d).toNat, by omega⟩
  else none

@[simp] theorem space_advance (a : Address) (n : Nat) : (a.advance n).space = a.space := rfl

@[simp] theorem space_displace (a : Address) (d : Int) : (a.displace d).space = a.space := rfl

theorem offset_advance (a : Address) (n : Nat) :
    (a.advance n).offset = (a.offset + n) % a.space.size := rfl

@[simp] theorem advance_zero (a : Address) : a.advance 0 = a := by
  obtain ⟨space, offset, h⟩ := a
  simp [advance, wrapping, Nat.mod_eq_of_lt h]

theorem advance_advance (a : Address) (m n : Nat) :
    (a.advance m).advance n = a.advance (m + n) := by
  simp [advance, wrapping, Nat.add_assoc]

end Address

end CodeLift
