-- SUMMARY: Known values of a width, and the unknown value.
import CodeLift.Text.Hex
import CodeLift.Width

/-!
# Constants

A constant is a value of some width, or unknown. Values have at most 128 bits:
a constant of a greater width keeps 128 of them.
-/

namespace CodeLift

inductive Constant where
  | unknown
  | known (bits value : Nat)
  deriving DecidableEq

namespace Constant

/-- The low `bits` bits of `value`, at most 128. -/
def ofNat (bits value : Nat) : Constant := .known bits (value % modulus (min bits 128))

/-- The low `bits` bits of `value` in two's complement, at most 128. -/
def ofInt (bits : Nat) (value : Int) : Constant :=
  .known bits (value % modulus (min bits 128)).toNat

def zero (bits : Nat) : Constant := .known bits 0

/-- A truth value of one bit. -/
def ofBool (b : Bool) : Constant := .known 1 b.toNat

def isKnown : Constant → Bool
  | .unknown => false
  | .known _ _ => true

def bits? : Constant → Option Nat
  | .unknown => none
  | .known bits _ => some bits

/-- The value, if it has at most 64 bits. -/
def word? : Constant → Option Nat
  | .unknown => none
  | .known _ value => if value < modulus 64 then some value else none

/-- The constant displaced by `d`, wrapping around at its width. -/
def displace (c : Constant) (d : Int) : Constant :=
  match c with
  | .unknown => .unknown
  | .known bits value => ofInt bits (value + d)

/-- Small values in decimal, others in hexadecimal, with the width in angle brackets. -/
def render : Constant → String
  | .unknown => "<invalid>"
  | .known bits value =>
    if value < 10 then s!"{value}<{bits}>"
    else s!"0x{String.ofList (Text.upperHex value)}<{bits}>"

end Constant

end CodeLift
