-- SUMMARY: Operators applied to known constants.
import CodeLift.Rtl.Expr

/-!
# Constant folding

Constants are folded as words of 64 bits, and the result is cut to its width. A
constant that is unknown or does not fit a word makes the result unknown.
-/

namespace CodeLift

/-- An operator applied to two words of 64 bits. -/
def BinaryOp.onWords : BinaryOp → Nat → Nat → Nat
  | .add, x, y => (x + y) % modulus 64
  | .sub, x, y => (x + modulus 64 - y) % modulus 64
  | .mul, x, y => x * y % modulus 64
  | .and, x, y => x &&& y
  | .or, x, y => x ||| y
  | .xor, x, y => x ^^^ y

/-- An operator applied to two constants, with a result of `bits` bits. -/
def BinaryOp.fold (op : BinaryOp) (a b : Constant) (bits : Nat) : Constant :=
  match a.word?, b.word? with
  | some x, some y => .ofNat bits (op.onWords x y)
  | _, _ => .unknown

end CodeLift
