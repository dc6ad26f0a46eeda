-- SUMMARY: The white space of Unicode, trimming, and splitting at a character.

/-!
# White space

`isBlank` is the property `White_Space` of the Unicode character database:
25 characters in ten ranges. Every character that the core library calls white
space has it (`isBlank_of_isWhitespace`).
-/

namespace CodeLift.Text

/-- The ranges of the property `White_Space`. -/
def blankRanges : List (Nat × Nat) :=
  [(0x09, 0x0D), (0x20, 0x20), (0x85, 0x85), (0xA0, 0xA0), (0x1680, 0x1680),
   (0x2000, 0x200A), (0x2028, 0x2029), (0x202F, 0x202F), (0x205F, 0x205F), (0x3000, 0x3000)]

def isBlank (c : Char) : Bool :=
  blankRanges.any fun (first, last) => first ≤ c.toNat && c.toNat ≤ last

theorem isBlank_of_isWhitespace {c : Char} (h : c.isWhitespace = true) : isBlank c = true := by
  simp only [Char.isWhitespace, Bool.or_eq_true, decide_eq_true_eq] at h
  rcases h with ((h | h) | h) | h <;> subst h <;> decide

/-! ## Trimming and splitting -/

/-- Drop white space at both ends. -/
def trim (text : List Char) : List Char :=
  ((text.dropWhile isBlank).reverse.dropWhile isBlank).reverse

/-- Split at the first `c`, which belongs to neither part. -/
def splitFirst (c : Char) : List Char → Option (List Char × List Char)
  | [] => none
  | x :: rest =>
    if x = c then some ([], rest)
    else (splitFirst c rest).map fun (before, after) => (x :: before, after)

/-- Split at the last `c`, which belongs to neither part. -/
def splitLast (c : Char) (text : List Char) : Option (List Char × List Char) :=
  (splitFirst c text.reverse).map fun (after, before) => (before.reverse, after.reverse)

end CodeLift.Text
