-- SUMMARY: Hexadecimal text of numbers and bytes, and the values of its digits.

/-!
# Hexadecimal text

Addresses are written in upper case with a fixed least number of digits,
bytes in lower case with two. Reading a digit accepts both cases.
-/

namespace CodeLift.Text

/-! ## Writing -/

/-- The shortest lower-case digits of `n`. -/
def lowerHex (n : Nat) : List Char := Nat.toDigits 16 n

/-- The shortest upper-case digits of `n`. -/
def upperHex (n : Nat) : List Char := (lowerHex n).map Char.toUpper

/-- The upper-case digits of `n`, filled with zeros up to `width`. -/
def upperHexFilled (width n : Nat) : List Char := (upperHex n).leftpad width '0'

/-- The two lower-case digits of a byte. -/
def byteHex (b : UInt8) : List Char := (lowerHex b.toNat).leftpad 2 '0'

/-- A list of bytes as it stands in messages: `[66, f4]`. -/
def bytesHex (bytes : List UInt8) : String :=
  "[" ++ ", ".intercalate (bytes.map fun b => String.ofList (byteHex b)) ++ "]"

/-! ## Reading -/

/-- The value of a hexadecimal digit of either case. -/
def hexDigit? (c : Char) : Option Nat :=
  if '0' ≤ c ∧ c ≤ '9' then some (c.toNat - '0'.toNat)
  else if 'a' ≤ c ∧ c ≤ 'f' then some (c.toNat - 'a'.toNat + 10)
  else if 'A' ≤ c ∧ c ≤ 'F' then some (c.toNat - 'A'.toNat + 10)
  else none

/-- The value of a decimal digit. -/
def decimalDigit? (c : Char) : Option Nat :=
  if '0' ≤ c ∧ c ≤ '9' then some (c.toNat - '0'.toNat) else none

/-- Read bytes of two digits each. -/
def bytesOfHex? : List Char → Option (List UInt8)
  | [] => some []
  | [_] => none
  | a :: b :: rest => do
    let high ← hexDigit? a
    let low ← hexDigit? b
    return UInt8.ofNat (16 * high + low) :: (← bytesOfHex? rest)

end CodeLift.Text
