-- SUMMARY: Text in double quotes, with escapes for what cannot be shown.
import CodeLift.Text.Hex
import CodeLift.Text.Printable

/-!
# Quoted text

A quote and a backslash are escaped by a backslash, the usual controls have
their letters, and every other character that is not printable is written by its
code point in braces.
-/

namespace CodeLift.Text

/-- One character inside double quotes. -/
def quotedChar (c : Char) : List Char :=
  if c = '"' then ['\\', '"']
  else if c = '\\' then ['\\', '\\']
  else if c = '\n' then ['\\', 'n']
  else if c = '\r' then ['\\', 'r']
  else if c = '\t' then ['\\', 't']
  else if c = '\x00' then ['\\', '0']
  else if isPrintable c then [c]
  else ['\\', 'u', '\x7b'] ++ lowerHex c.toNat ++ ['\x7d']

/-- The text between double quotes. -/
def quoted (text : String) : String :=
  String.ofList ('"' :: text.toList.flatMap quotedChar ++ ['"'])

end CodeLift.Text
