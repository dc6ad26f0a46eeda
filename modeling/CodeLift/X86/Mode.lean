-- SUMMARY: The two operating modes of the processor and their names.
import CodeLift.Text.Folding

/-!
# Operating modes

Real mode has 16-bit offsets in segments, protected mode a flat 32-bit space.
The mode sets the default size of operands and addresses.
-/

namespace CodeLift.X86

inductive Mode where
  | real16
  | protected32
  deriving DecidableEq

namespace Mode

/-- The name of the architecture in this mode. -/
def architectureName : Mode → String
  | .real16 => "x86-real-16"
  | .protected32 => "x86-protected-32"

def description : Mode → String
  | .real16 => "Intel x86 real mode, 16-bit segmented"
  | .protected32 => "Intel x86 protected mode, 32-bit flat"

/-- The default size of operands and addresses. -/
def bits : Mode → Nat
  | .real16 => 16
  | .protected32 => 32

theorem bits_le (m : Mode) : m.bits ≤ 32 := by
  cases m <;> decide

/-- The word for the mode in saved options. -/
def optionValue : Mode → String
  | .real16 => "real16"
  | .protected32 => "protected32"

/-- Read the word for a mode, in any case; there are short forms. -/
def ofOption? (word : String) : Option Mode :=
  let word := Text.folded word
  if ["real16", "real", "16"].contains word then some .real16
  else if ["protected32", "protected", "32"].contains word then some .protected32
  else none

theorem ofOption?_optionValue (m : Mode) : ofOption? m.optionValue = some m := by
  cases m <;> decide

end Mode

end CodeLift.X86
