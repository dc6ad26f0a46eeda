-- SUMMARY: Comparing words without regard to case.

/-!
# Case folding

Option values and policies are words of ASCII letters, digits and hyphens, and
are read in any case. Outside ASCII the only character whose lower-case form is
an ASCII letter is KELVIN SIGN, which folds to `k`; every other character stays
outside ASCII and so never matches.
-/

namespace CodeLift.Text

/-- The lower-case form of a character, as far as it can be ASCII. -/
def foldCase (c : Char) : Char :=
  if c = '\u212A' then 'k' else c.toLower

/-- The word with every character folded. -/
def folded (word : String) : String := String.ofList (word.toList.map foldCase)

end CodeLift.Text
