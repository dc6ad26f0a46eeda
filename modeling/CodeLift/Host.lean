-- SUMMARY: What the surrounding program knows about the code being lifted.
import CodeLift.Address
import CodeLift.Signature

/-!
# Hosts

A host answers questions about addresses of the program under study: the import
that an address stands for, the signature of the procedure there, and whether
control reaches the address from elsewhere.
-/

namespace CodeLift

structure Host where
  importName? : Address → Option String
  signature? : Address → Option Signature
  isJumpTarget : Address → Bool

/-- The host that knows nothing. -/
def Host.silent : Host := ⟨fun _ => none, fun _ => none, fun _ => false⟩

/-- A host that answers from lists; of several entries for one place the first counts. -/
def Host.ofLists (imports : List (Address × String)) (signatures : List (Address × Signature))
    (targets : List Address) : Host where
  importName? a := (imports.find? (·.1.coincides a)).map Prod.snd
  signature? a := (signatures.find? (·.1.coincides a)).map Prod.snd
  isJumpTarget a := targets.any (·.coincides a)

end CodeLift
