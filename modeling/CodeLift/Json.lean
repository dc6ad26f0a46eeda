-- SUMMARY: JSON values and their indented text.
import CodeLift.Text.Hex

/-!
# JSON

JSON values as they are saved and reported. Objects keep their fields in order.
Of numbers only integers are of interest; `fraction` stands for any other number.
-/

namespace CodeLift

inductive Json where
  | null
  | bool (b : Bool)
  | number (n : Int)
  | fraction
  | string (s : String)
  | array (elements : List Json)
  | object (fields : List (String × Json))

namespace Json

def strings (list : List String) : Json := .array (list.map .string)

def string? : Json → Option String
  | .string s => some s
  | _ => none

/-- The integer, if it is at least zero and below `limit`. -/
def natBelow? (limit : Nat) : Json → Option Nat
  | .number n => if 0 ≤ n ∧ n < limit then some n.toNat else none
  | _ => none

/-! ## Printer -/

/-- One character inside a string. -/
def stringChar (c : Char) : List Char :=
  if c = '"' then ['\\', '"']
  else if c = '\\' then ['\\', '\\']
  else if c = '\n' then ['\\', 'n']
  else if c = '\r' then ['\\', 'r']
  else if c = '\t' then ['\\', 't']
  else if c = '\x08' then ['\\', 'b']
  else if c = '\x0c' then ['\\', 'f']
  else if c.toNat < 0x20 then ['\\', 'u'] ++ (Text.lowerHex c.toNat).leftpad 4 '0'
  else [c]

def stringText (s : String) : String :=
  String.ofList ('"' :: s.toList.flatMap stringChar ++ ['"'])

/-- A new line at an indentation of `depth` steps. -/
def newLine (depth : Nat) : String := "\n" ++ String.ofList (List.replicate (2 * depth) ' ')

/-- The parts between brackets, one a line; empty brackets stand alone. -/
def bracketed (opening closing : String) (depth : Nat) (parts : List String) : String :=
  if parts.isEmpty then opening ++ closing
  else
    let lines := parts.map fun part => newLine (depth + 1) ++ part
    opening ++ ",".intercalate lines ++ newLine depth ++ closing

mutual

/-- The text of a value that stands at an indentation of `depth` steps. -/
def renderAt (depth : Nat) : Json → String
  | .null => "null"
  | .bool true => "true"
  | .bool false => "false"
  | .number n => toString n
  | .fraction => "null"
  | .string s => stringText s
  | .array elements => bracketed "[" "]" depth (renderElements (depth + 1) elements)
  | .object fields => bracketed "\x7b" "\x7d" depth (renderFields (depth + 1) fields)

def renderElements (depth : Nat) : List Json → List String
  | [] => []
  | e :: rest => renderAt depth e :: renderElements depth rest

def renderFields (depth : Nat) : List (String × Json) → List String
  | [] => []
  | (key, value) :: rest =>
    (stringText key ++ ": " ++ renderAt depth value) :: renderFields depth rest

end

def render (j : Json) : String := renderAt 0 j

end Json

end CodeLift
