-- SUMMARY: What a caller may assume of a procedure, and decorated procedure names.
import CodeLift.Storage
import CodeLift.Text.Blank
import CodeLift.Text.Numeral
import CodeLift.Width

/-!
# Signatures

A signature says what a call of a procedure does to the caller: where the
result is, which registers are lost, and how many bytes the procedure takes off
the stack, its return address included. The decorated name `_f@12` tells that
the procedure `f` removes 12 bytes of arguments.
-/

namespace CodeLift

open Text

structure Parameter where
  name : String
  bits : Nat
  storage : Storage
  deriving DecidableEq

structure Signature where
  name : String
  result : Option Register
  parameters : List Parameter
  /-- The registers whose values do not survive a call. -/
  trashed : List Register
  /-- The bytes taken off the stack, the return address included. -/
  stackDelta : Int
  deriving DecidableEq

namespace Signature

/-- A procedure that takes only its return address off the stack. -/
def plain (name : String) (returnSize : Nat) : Signature := ⟨name, none, [], [], returnSize⟩

/-- The name before a decoration: one leading underscore does not belong to it. -/
def undecorated : List Char → List Char
  | '_' :: rest => rest
  | text => text

/-- The signature that a decorated name stands for; its stack delta fits 32 bits. -/
def ofDecoratedName? (text : String) (returnSize : Nat) : Option Signature := do
  let (before, after) ← splitLast '@' text.toList
  let bytes ← decimalNumeral? (modulus 31) after
  if undecorated before = [] ∨ modulus 31 ≤ returnSize + bytes then none
  else
    some { plain (String.ofList (undecorated before)) returnSize with
      stackDelta := returnSize + bytes }

/-- The bytes taken off the stack beyond the return address. -/
def extraBytes (s : Signature) (returnSize : Nat) : Int := wrap32 (s.stackDelta - returnSize)

def render (s : Signature) : String :=
  let result := match s.result with
    | some r => r.name
    | none => "void"
  s!"{result} {s.name}(" ++ ", ".intercalate (s.parameters.map Parameter.name) ++ ")"

end Signature

end CodeLift
