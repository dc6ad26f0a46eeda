-- SUMMARY: Storage locations of a procedure and the identifiers that name them.
import CodeLift.Flag
import CodeLift.Text.Hex

/-!
# Storage and identifiers

A procedure keeps its values in registers, flag groups and stack slots. Slots
below the stack pointer at entry are locals, slots above the return address are
arguments; both are told by their offset from the stack pointer at entry.
-/

namespace CodeLift

inductive Storage where
  | register (r : Register)
  | flags (g : FlagGroup)
  | stackLocal (offset : Int)
  | stackArgument (offset : Int)
  deriving DecidableEq

/-- The name of a location: locals and arguments are numbered by their offset. -/
def Storage.name : Storage → String
  | .register r => r.name
  | .flags g => g.name
  | .stackLocal offset => "loc" ++ String.ofList (Text.upperHexFilled 2 offset.natAbs)
  | .stackArgument offset =>
    "arg" ++ String.ofList (Text.upperHexFilled 2 (offset % modulus 32).toNat)

/-- A named location seen at some width. -/
structure Identifier where
  name : String
  bits : Nat
  storage : Storage
  deriving DecidableEq

end CodeLift
