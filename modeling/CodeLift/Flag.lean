-- SUMMARY: Condition flags, named groups of them, and the flag table of a machine.
import CodeLift.Register

/-!
# Flags

A flag is a bit of the flag register with a letter. A group is a set of flags
treated as one unit; its name lists the letters of its flags in table order.
Reading a name takes the letters in any order and case, and knows aliases that
are never written.
-/

namespace CodeLift

structure Flag where
  mask : Nat
  letter : Char
  deriving DecidableEq

structure FlagGroup where
  register : Register
  mask : Nat
  name : String
  deriving DecidableEq

namespace FlagGroup

/-- The groups have a flag in common. -/
def overlaps (a b : FlagGroup) : Bool :=
  a.register.domain == b.register.domain && a.mask &&& b.mask != 0

/-- Every flag of `b` is a flag of `a`. -/
def covers (a b : FlagGroup) : Bool :=
  a.register.domain == b.register.domain && a.mask &&& b.mask == b.mask

end FlagGroup

/-- The flags of a machine. Letters are kept in upper case. -/
structure FlagTable where
  register : Register
  flags : List Flag
  aliases : List Flag
  deriving DecidableEq

namespace FlagTable

/-! ## Making tables -/

def ofFlags (register : Register) (flags : List Flag) : FlagTable :=
  ⟨register, flags.map fun f => ⟨f.mask, f.letter.toUpper⟩, []⟩

/-- Add a letter that is read as `mask` but never written. -/
def withAlias (t : FlagTable) (letter : Char) (mask : Nat) : FlagTable :=
  { t with aliases := t.aliases ++ [⟨mask, letter.toUpper⟩] }

/-! ## Names and masks -/

def union (masks : List Nat) : Nat := masks.foldl (· ||| ·) 0

/-- The mask of every flag. -/
def all (t : FlagTable) : Nat := union (t.flags.map Flag.mask)

/-- The letters of the flags in `mask`, in table order. -/
def letters (t : FlagTable) (mask : Nat) : List Char :=
  (t.flags.filter fun f => mask &&& f.mask != 0).map Flag.letter

def nameOf (t : FlagTable) (mask : Nat) : String := String.ofList (t.letters mask)

/-- The mask of one letter; a flag comes before an alias. -/
def maskOfLetter? (t : FlagTable) (c : Char) : Option Nat :=
  ((t.flags ++ t.aliases).find? (·.letter == c.toUpper)).map Flag.mask

/-- The union of the letters' masks; an unknown letter adds nothing. -/
def maskOf (t : FlagTable) (name : String) : Nat := union (name.toList.filterMap t.maskOfLetter?)

/-- The group of the flags in `mask`, if there is one. -/
def group? (t : FlagTable) (mask : Nat) : Option FlagGroup :=
  if mask &&& t.all = 0 then none
  else some ⟨t.register, mask &&& t.all, t.nameOf (mask &&& t.all)⟩

def groupNamed? (t : FlagTable) (name : String) : Option FlagGroup := t.group? (t.maskOf name)

end FlagTable

end CodeLift
