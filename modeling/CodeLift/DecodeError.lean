-- SUMMARY: Why bytes do not decode to an instruction.
import CodeLift.Address.Text

/-!
# Decode errors

Bytes that start no instruction, an instruction that is cut off, a combination
that no processor accepts, and an instruction that the decoder does not know.
-/

namespace CodeLift

open Text

inductive Fault where
  | unknownOpcode (bytes : List UInt8)
  | truncated (needed available : Nat)
  | invalidEncoding (reason : String)
  | unsupported (reason : String)
  deriving DecidableEq

structure DecodeError where
  address : Address
  fault : Fault
  deriving DecidableEq

/-- The word for a fault in reports. -/
def Fault.kind : Fault → String
  | .unknownOpcode _ => "UnknownOpcode"
  | .truncated _ _ => "Truncated"
  | .invalidEncoding _ => "InvalidEncoding"
  | .unsupported _ => "Unsupported"

def DecodeError.message (e : DecodeError) : String :=
  match e.fault with
  | .unknownOpcode bytes => s!"unknown opcode at {e.address.render}: {bytesHex bytes}"
  | .truncated needed available =>
    s!"truncated instruction at {e.address.render}: need {needed} bytes, have {available}"
  | .invalidEncoding reason => s!"invalid encoding at {e.address.render}: {reason}"
  | .unsupported reason => s!"unsupported instruction at {e.address.render}: {reason}"

end CodeLift
