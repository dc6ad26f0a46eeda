-- SUMMARY: Numbers of a fixed number of bits, and the widths of machine words.

/-!
# Word widths

Numbers of `n` bits wrap around at `modulus n`. Addresses and machine words are
16, 32 or 64 bits wide. Stack depths and frame offsets are signed 32-bit
quantities; `wrap32` brings an integer back into their range.
-/

namespace CodeLift

/-! ## Numbers of bits -/

/-- The number of values that `bits` bits can have. -/
def modulus (bits : Nat) : Nat := 1 <<< bits

theorem modulus_eq_pow (bits : Nat) : modulus bits = Nat.pow 2 bits := Nat.one_shiftLeft bits

theorem modulus_pos (bits : Nat) : 0 < modulus bits := by
  rw [modulus_eq_pow]
  exact Nat.two_pow_pos bits

@[simp] theorem modulus_zero : modulus 0 = 1 := rfl

theorem modulus_add (m n : Nat) : modulus (m + n) = modulus m * modulus n := by
  simp only [modulus_eq_pow]
  exact Nat.pow_add 2 m n

theorem modulus_dvd {m n : Nat} (h : m ≤ n) : modulus m ∣ modulus n := by
  rw [modulus_eq_pow, modulus_eq_pow]
  exact Nat.pow_dvd_pow 2 h

theorem modulus_le {m n : Nat} (h : m ≤ n) : modulus m ≤ modulus n :=
  Nat.le_of_dvd (modulus_pos n) (modulus_dvd h)

/-! ## Words -/

inductive Width where
  | w16
  | w32
  | w64
  deriving DecidableEq

def Width.bits : Width → Nat
  | .w16 => 16
  | .w32 => 32
  | .w64 => 64

def Width.bytes (w : Width) : Nat := w.bits / 8

/-- The greatest value of this width. -/
def Width.mask (w : Width) : Nat := modulus w.bits - 1

def Width.ofBits? : Nat → Option Width
  | 16 => some .w16
  | 32 => some .w32
  | 64 => some .w64
  | _ => none

@[simp] theorem Width.ofBits?_bits (w : Width) : Width.ofBits? w.bits = some w := by
  cases w <;> rfl

/-- The signed 32-bit integer congruent to `n`. -/
def wrap32 (n : Int) : Int := n.bmod (modulus 32)

/-- The unsigned 64-bit integer congruent to `n`. -/
def wrap64 (n : Int) : Nat := (n % modulus 64).toNat

end CodeLift
