-- SUMMARY: The sixteen branch conditions, their codes, suffixes and inverses.

/-!
# Conditions

A conditional jump tests one of sixteen conditions, which come in pairs of a
condition and its inverse. The low four bits of the opcode are the condition's
code; codes of one pair differ in the last bit.
-/

namespace CodeLift

inductive Condition where
  | equal
  | notEqual
  | above
  | aboveOrEqual
  | below
  | belowOrEqual
  | greater
  | greaterOrEqual
  | less
  | lessOrEqual
  | sign
  | notSign
  | overflow
  | notOverflow
  | parity
  | notParity
  deriving DecidableEq

namespace Condition

/-- The conditions in the order of their codes. -/
def byCode : List Condition :=
  [.overflow, .notOverflow, .below, .aboveOrEqual, .equal, .notEqual, .belowOrEqual, .above,
   .sign, .notSign, .parity, .notParity, .less, .greaterOrEqual, .lessOrEqual, .greater]

/-- The condition of an opcode, told by its low four bits. -/
def ofCode (code : Nat) : Condition := byCode.getD (code % 16) .greater

def inverse : Condition → Condition
  | .equal => .notEqual
  | .notEqual => .equal
  | .above => .belowOrEqual
  | .aboveOrEqual => .below
  | .below => .aboveOrEqual
  | .belowOrEqual => .above
  | .greater => .lessOrEqual
  | .greaterOrEqual => .less
  | .less => .greaterOrEqual
  | .lessOrEqual => .greater
  | .sign => .notSign
  | .notSign => .sign
  | .overflow => .notOverflow
  | .notOverflow => .overflow
  | .parity => .notParity
  | .notParity => .parity

@[simp] theorem inverse_inverse (c : Condition) : c.inverse.inverse = c := by
  cases c <;> rfl

/-- The ending of the mnemonic of a conditional jump. -/
def suffix : Condition → String
  | .equal => "e"
  | .notEqual => "ne"
  | .above => "a"
  | .aboveOrEqual => "ae"
  | .below => "b"
  | .belowOrEqual => "be"
  | .greater => "g"
  | .greaterOrEqual => "ge"
  | .less => "l"
  | .lessOrEqual => "le"
  | .sign => "s"
  | .notSign => "ns"
  | .overflow => "o"
  | .notOverflow => "no"
  | .parity => "p"
  | .notParity => "np"

/-- The word for a condition in saved data. -/
def name : Condition → String
  | .equal => "Equal"
  | .notEqual => "NotEqual"
  | .above => "Above"
  | .aboveOrEqual => "AboveOrEqual"
  | .below => "Below"
  | .belowOrEqual => "BelowOrEqual"
  | .greater => "Greater"
  | .greaterOrEqual => "GreaterOrEqual"
  | .less => "Less"
  | .lessOrEqual => "LessOrEqual"
  | .sign => "Sign"
  | .notSign => "NotSign"
  | .overflow => "Overflow"
  | .notOverflow => "NotOverflow"
  | .parity => "Parity"
  | .notParity => "NotParity"

def ofName? (name : String) : Option Condition := byCode.find? fun c => c.name == name

end Condition

end CodeLift
