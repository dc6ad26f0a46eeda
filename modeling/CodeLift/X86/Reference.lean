-- SUMMARY: Encodings that refer to an address.
import CodeLift.Image.Reader
import CodeLift.X86.Mode

/-!
# References

A place in memory refers to an address by a word that is a near pointer, or by
the opcode of a relative call or jump and its distance. Matching a place moves
the reader behind what it read, also where nothing matches.
-/

namespace CodeLift.X86

/-- The outcome of matching: the address referred to, and the reader behind it. -/
abbrev Match := Option Address × Reader

/-- The size of a near pointer or distance. -/
def Mode.wordBytes (m : Mode) : Nat := m.bits / 8

/-- The address of a near pointer that stands at `place`: in real mode it stays in the segment. -/
def Mode.nearAddress (m : Mode) (place : Address) (offset : Nat) : Address :=
  match m, place.selector? with
  | .real16, some selector => .wrapping (.segment selector) offset
  | .real16, none => .wrapping (.flat .w16) offset
  | .protected32, _ => .wrapping (.flat .w32) offset

/-- Match a word as a near pointer. -/
def matchPointer (m : Mode) (r : Reader) : Match :=
  match r.unsigned m.wordBytes with
  | .ok (offset, rest) => (some (m.nearAddress r.address offset), rest)
  | .error _ => (none, r)

/-- Match a distance of `size` bytes, counted from its end. -/
def matchDistance (size : Nat) (r : Reader) : Match :=
  match r.signed size with
  | .ok (distance, rest) => (some (rest.address.displace distance), rest)
  | .error _ => (none, r)

/-- Match a relative call. -/
def matchCall (m : Mode) (r : Reader) : Match :=
  match r.unsigned 1 with
  | .ok (0xE8, rest) => matchDistance m.wordBytes rest
  | .ok (_, rest) => (none, rest)
  | .error _ => (none, r)

/-- Match a relative jump. -/
def matchJump (m : Mode) (r : Reader) : Match :=
  match r.unsigned 1 with
  | .ok (0xE9, rest) => matchDistance m.wordBytes rest
  | .ok (0xEB, rest) => matchDistance 1 rest
  | .ok (_, rest) => (none, rest)
  | .error _ => (none, r)

end CodeLift.X86
