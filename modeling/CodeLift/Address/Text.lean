-- SUMMARY: The text of addresses, written and read, and the messages of their errors.
import CodeLift.Address
import CodeLift.Text.Blank
import CodeLift.Text.Numeral
import CodeLift.Text.Quoted

/-!
# The text of addresses

A flat address is written in upper-case hexadecimal with the digits of its full
width, a segmented one as `selector:offset` with four digits each. Reading
accepts surrounding blanks, one `0x` and one sign before each number, and any
count of digits; the width of a flat address is told by the length of its text.
-/

namespace CodeLift.Address

open Text

/-! ## Writing -/

def chars (a : Address) : List Char :=
  match a.space with
  | .flat width => upperHexFilled (width.bits / 4) a.offset
  | .segment selector => upperHexFilled 4 selector.toNat ++ ':' :: upperHexFilled 4 a.offset

def render (a : Address) : String := String.ofList a.chars

/-! ## Reading -/

/-- The text after one leading `0x` or `0X`. -/
def unmarked : List Char → List Char
  | '0' :: 'x' :: rest => rest
  | '0' :: 'X' :: rest => rest
  | text => text

/-- One number of an address; an error carries the whole text. -/
def readPart (whole part : List Char) : Except AddressError Nat :=
  match hexNumeral? (modulus 64) (unmarked (trim part)) with
  | some value => .ok value
  | none => .error (.malformed (String.ofList whole))

/-- Read trimmed text, with `width` for a flat address. -/
def readTrimmed (width : Width) (text : List Char) : Except AddressError Address :=
  match splitFirst ':' text with
  | some (before, after) => do
    let selector ← readPart text before
    let offset ← readPart text after
    segmented? selector offset
  | none => do
    let value ← readPart text text
    flat? width value

/-- Read an address, with `width` if it is flat. -/
def readAs (width : Width) (text : String) : Except AddressError Address :=
  readTrimmed width (trim text.toList)

/-- The width of a flat address, told by the length of its text in UTF-8. -/
def widthOfText (text : List Char) : Width :=
  let length := (String.ofList (unmarked text)).utf8ByteSize
  if length ≤ 4 then .w16 else if length ≤ 8 then .w32 else .w64

/-- Read an address whose width is told by its text. -/
def read (text : String) : Except AddressError Address :=
  let trimmed := trim text.toList
  readTrimmed (widthOfText trimmed) trimmed

end CodeLift.Address

namespace CodeLift

open Text

/-- The word for an error in reports. -/
def AddressError.kind : AddressError → String
  | .tooWide _ _ => "AddressOutOfRange"
  | .notInSegment _ _ => "SegmentedAddressOutOfRange"
  | .malformed _ => "InvalidAddress"

def AddressError.message : AddressError → String
  | .tooWide value bits =>
    s!"address 0x{String.ofList (lowerHex value)} does not fit in {bits} bits"
  | .notInSegment selector offset =>
    s!"segmented address 0x{String.ofList (lowerHex selector)}" ++
      s!":0x{String.ofList (lowerHex offset)} out of range"
  | .malformed text => s!"invalid address: {quoted text}"

end CodeLift
