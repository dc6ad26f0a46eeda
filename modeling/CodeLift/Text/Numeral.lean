-- SUMMARY: Reading unsigned numerals with an upper limit.
import CodeLift.Text.Hex

/-!
# Unsigned numerals

A numeral is an optional `+` and at least one digit. Its value has to stay
below a limit; leading zeros do not count.
-/

namespace CodeLift.Text

/-- The value of a list of digits, most significant first. -/
def positional (base : Nat) (digits : List Nat) : Nat :=
  digits.foldl (fun value d => value * base + d) 0

/-- The characters of a numeral after its optional sign. -/
def unsigned : List Char → List Char
  | '+' :: rest => rest
  | text => text

/-- Read a numeral whose digits are those that `digit?` accepts. -/
def numeral? (base : Nat) (digit? : Char → Option Nat) (limit : Nat) (text : List Char) :
    Option Nat :=
  match unsigned text with
  | [] => none
  | body =>
    match body.mapM digit? with
    | none => none
    | some digits =>
      if positional base digits < limit then some (positional base digits) else none

/-- Read a hexadecimal numeral below `limit`. -/
def hexNumeral? (limit : Nat) (text : List Char) : Option Nat :=
  numeral? 16 hexDigit? limit text

/-- Read a decimal numeral below `limit`. -/
def decimalNumeral? (limit : Nat) (text : List Char) : Option Nat :=
  numeral? 10 decimalDigit? limit text

end CodeLift.Text
