-- SUMMARY: Arithmetic on constants in machine words is exact arithmetic modulo the width.
import CodeLift.Proofs.Displacement
import CodeLift.Proofs.Rtl.Constants

/-!
# Arithmetic on constants

Constants are combined as words of 64 bits, and displaced as words of 128 bits to which the
displacement is extended with its sign; a mask cuts the result to its width. A displaced
expression adds or subtracts the magnitude of the displacement instead. All of this comes to
the arithmetic of the integers modulo the width (`Constant.arithmetic_exact`).
-/

namespace CodeLift

/-! ## Operators -/

/-- The value of an operator over the integers; the last three work bit by bit. -/
def BinaryOp.onIntegers : BinaryOp → Nat → Nat → Int
  | .add, x, y => x + y
  | .sub, x, y => x - y
  | .mul, x, y => x * y
  | .and, x, y => (x &&& y : Nat)
  | .or, x, y => (x ||| y : Nat)
  | .xor, x, y => (x ^^^ y : Nat)

theorem BinaryOp.value_eq_onIntegers (op : BinaryOp) (x y bits : Nat) :
    (op.value x y bits : Int) = op.onIntegers x y % modulus bits := by
  cases op with
  | add => exact value_add x y bits
  | sub => exact value_sub x y bits
  | mul => rw [value_mul, onIntegers, Int.natCast_emod, Int.natCast_mul]
  | and => rw [value_and, onIntegers, Int.natCast_emod]
  | or => rw [value_or, onIntegers, Int.natCast_emod]
  | xor => rw [value_xor, onIntegers, Int.natCast_emod]

/-- An operator on words of 64 bits. -/
def BinaryOp.onUInt64 : BinaryOp → UInt64 → UInt64 → UInt64
  | .add, x, y => x + y
  | .sub, x, y => x - y
  | .mul, x, y => x * y
  | .and, x, y => x &&& y
  | .or, x, y => x ||| y
  | .xor, x, y => x ^^^ y

theorem BinaryOp.toNat_onUInt64 (op : BinaryOp) (x y : UInt64) :
    (op.onUInt64 x y).toNat = op.onWords x.toNat y.toNat := by
  cases op with
  | add => exact UInt64.toNat_add x y
  | sub =>
    have hy := y.toNat_lt
    have hsub := UInt64.toNat_sub x y
    rw [onUInt64, onWords, modulus_64]
    omega
  | mul => exact UInt64.toNat_mul x y
  | and => exact UInt64.toNat_and x y
  | or => exact UInt64.toNat_or x y
  | xor => exact UInt64.toNat_xor x y

namespace Constant

variable {a b c : Constant} {bits x y : Nat}

/-- The constant has a value, which fits 64 bits. -/
def IsWord (c : Constant) (x : Nat) : Prop := (∃ bits, c = known bits x) ∧ x < modulus 64

theorem word?_eq_some_iff : c.word? = some x ↔ c.IsWord x := by
  cases c with
  | unknown => exact iff_of_false nofun fun ⟨⟨_, h⟩, _⟩ => nomatch h
  | known bits value =>
    rw [word?, Option.ite_none_right_eq_some, Option.some_inj]
    constructor
    · rintro ⟨hlt, rfl⟩
      exact ⟨⟨bits, rfl⟩, hlt⟩
    · rintro ⟨⟨_, heq⟩, hlt⟩
      cases heq
      exact ⟨hlt, rfl⟩

theorem word?_eq_none (h : ¬∃ x, c.IsWord x) : c.word? = none :=
  Option.eq_none_iff_forall_ne_some.2 fun x hx => h ⟨x, word?_eq_some_iff.1 hx⟩

/-! ## Words of 128 bits -/

/-- A word of 128 bits cut by a mask, unless the width is as great. -/
def masked (bits : Nat) (word : BitVec 128) : Constant :=
  .known bits (if 128 ≤ bits then word else word &&& ((1#128 <<< bits) - 1#128)).toNat

theorem toNat_mask (h : bits < 128) : ((1#128 <<< bits) - 1#128).toNat = Nat.pow 2 bits - 1 := by
  have hlt : Nat.pow 2 bits < Nat.pow 2 128 := Nat.pow_lt_pow_of_lt (by decide) h
  have hone : (1#128 <<< bits).toNat = Nat.pow 2 bits := by
    rw [BitVec.toNat_shiftLeft, BitVec.toNat_ofNat, Nat.one_mod_two_pow (by decide),
      Nat.one_shiftLeft]
    exact Nat.mod_eq_of_lt hlt
  rw [BitVec.toNat_sub_of_le, hone]
  · rfl
  · rw [BitVec.le_def, hone]
    exact Nat.two_pow_pos bits

theorem masked_eq (bits : Nat) (word : BitVec 128) : masked bits word = ofNat bits word.toNat := by
  unfold masked ofNat
  split
  · next hwide =>
    rw [Nat.min_eq_right hwide, modulus_eq_pow]
    exact congrArg _ (Nat.mod_eq_of_lt word.isLt).symm
  · next hwide =>
    have hnarrow : bits < 128 := Nat.lt_of_not_le hwide
    rw [Nat.min_eq_left hnarrow.le, modulus_eq_pow, BitVec.toNat_and, toNat_mask hnarrow]
    exact congrArg _ (Nat.and_two_pow_sub_one_eq_mod _ _)

theorem ofInt_natCast (bits n : Nat) : ofInt bits n = ofNat bits n := by
  rw [ofInt, ofNat, ← Int.natCast_emod, Int.toNat_natCast]

/-- Words of 128 bits are wide enough for every width. -/
theorem masked_ofInt (bits : Nat) (v : Int) : masked bits (.ofInt 128 v) = ofInt bits v := by
  have hword : ((BitVec.ofInt 128 v).toNat : Int) = v % modulus 128 := by
    rw [BitVec.toNat_ofInt]
    exact @cast_toNat_emod 128 v
  have hdvd : (modulus (min bits 128) : Int) ∣ modulus 128 :=
    Int.natCast_dvd_natCast.2 (modulus_dvd (Nat.min_le_right bits 128))
  rw [masked_eq, ofNat, ofInt, ← Int.emod_emod_of_dvd v hdvd, ← hword, ← Int.natCast_emod,
    Int.toNat_natCast]

/-- The constant displaced by a signed word, which is extended to 128 bits. -/
def displaceWord (c : Constant) (d : Int64) : Constant :=
  match c with
  | .unknown => .unknown
  | .known bits value => masked bits (.ofNat 128 value + d.toBitVec.signExtend 128)

theorem displaceWord_eq (c : Constant) (d : Int64) : c.displaceWord d = c.displace d.toInt := by
  cases c with
  | unknown => rfl
  | known bits value =>
    have hsum : BitVec.ofNat 128 value + d.toBitVec.signExtend 128 =
        .ofInt 128 (value + d.toInt) := by
      rw [BitVec.ofInt_add, BitVec.ofInt_natCast]
      rfl
    rw [displaceWord, hsum, masked_ofInt, displace]

end Constant

/-- An operator applied to two constants as words of 64 bits. -/
def BinaryOp.foldWords (op : BinaryOp) (a b : Constant) (bits : Nat) : Constant :=
  match a.word?, b.word? with
  | some x, some y => .masked bits ((op.onUInt64 (.ofNat x) (.ofNat y)).toBitVec.setWidth 128)
  | _, _ => .unknown

theorem BinaryOp.foldWords_eq (op : BinaryOp) (a b : Constant) (bits : Nat) :
    op.foldWords a b bits = op.fold a b bits := by
  have hword : ∀ (c : Constant) (z : Nat), c.word? = some z → (UInt64.ofNat z).toNat = z :=
    fun c z hz => UInt64.toNat_ofNat_of_lt (Constant.word?_eq_some_iff.1 hz).2
  unfold foldWords fold
  cases hx : a.word? with
  | none => rfl
  | some x =>
    cases hy : b.word? with
    | none => rfl
    | some y =>
      change Constant.masked bits _ = .ofNat bits (op.onWords x y)
      rw [Constant.masked_eq, BitVec.toNat_setWidth_of_le (by decide), UInt64.toNat_toBitVec,
        op.toNat_onUInt64, hword a x hx, hword b y hy]

/-- The absolute value of a signed word, as a word. -/
def magnitude (d : Int64) : UInt64 := if d < 0 then (-d).toUInt64 else d.toUInt64

theorem toNat_magnitude (d : Int64) : (magnitude d).toNat = d.toInt.natAbs := by
  have hsign : d < 0 ↔ d.toInt < 0 := Int64.lt_iff_toInt_lt
  have hneg : (-d.toUInt64).toNat = (modulus 64 - d.toUInt64.toNat) % modulus 64 :=
    UInt64.toNat_neg d.toUInt64
  have hlt := d.toUInt64.toNat_lt
  have hleast := d.le_toInt
  have hcases := toInt_cases d
  rw [modulus_64] at hneg hcases
  unfold magnitude
  simp only [hsign, Int64.toUInt64_neg]
  split <;> omega

/-- The sum of an expression and a signed word, or the difference from its magnitude. -/
def Expr.displacedByWord (e : Expr) (d : Int64) (bits : Nat) : Expr :=
  if d = 0 then e
  else if d < 0 then
    .binary .sub e (.constant (.masked bits ((magnitude d).toBitVec.setWidth 128))) bits
  else .binary .add e (.constant (.masked bits (d.toBitVec.signExtend 128))) bits

theorem Expr.displacedByWord_eq (e : Expr) (d : Int64) (bits : Nat) :
    e.displacedByWord d bits = e.displaced d.toInt bits := by
  have hsign : d < 0 ↔ d.toInt < 0 := Int64.lt_iff_toInt_lt
  have hzero : d = 0 ↔ d.toInt = 0 := Int64.toInt_inj.symm
  unfold displacedByWord displaced
  simp only [hsign, hzero]
  split
  · rfl
  · split
    · rw [Constant.masked_eq, BitVec.toNat_setWidth_of_le (by decide), UInt64.toNat_toBitVec,
        toNat_magnitude]
    · next hneg =>
      have habs : d.toInt = d.toInt.natAbs := (Int.natAbs_of_nonneg (Int.not_lt.1 hneg)).symm
      have hword : Constant.masked bits (d.toBitVec.signExtend 128) = .ofInt bits d.toInt :=
        Constant.masked_ofInt bits d.toInt
      rw [hword, habs, Constant.ofInt_natCast]
      rfl

/-! ## Exactness -/

namespace Constant

variable {a b : Constant} {bits x y : Nat}

/-- Words are folded as the integers that they are. -/
theorem fold_words (op : BinaryOp) (hbits : bits ≤ 64) (ha : a.IsWord x) (hb : b.IsWord y) :
    op.fold a b bits = known bits (op.onIntegers x y % modulus bits).toNat := by
  obtain ⟨⟨j, rfl⟩, hx⟩ := ha
  obtain ⟨⟨k, rfl⟩, hy⟩ := hb
  rw [fold_known op hbits hx hy, ← op.value_eq_onIntegers, Int.toNat_natCast]

theorem fold_eq_unknown (op : BinaryOp) (h : (¬∃ x, a.IsWord x) ∨ ¬∃ y, b.IsWord y) :
    op.fold a b bits = unknown := by
  unfold BinaryOp.fold
  rcases h with ha | hb
  · rw [word?_eq_none ha]
  · rw [word?_eq_none hb]
    cases a.word? <;> rfl

theorem displace_known (hbits : bits ≤ 128) (value : Nat) (d : Int) :
    (known bits value).displace d = known bits ((value + d) % modulus bits).toNat := by
  rw [displace, ofInt, Nat.min_eq_left hbits]

/-- Displacing a word is adding the constant of the displacement, whose width may be greater. -/
theorem fold_add_eq_displace {width value : Nat} (hbits : bits ≤ width) (hwidth : width ≤ 64)
    (hvalue : value < modulus 64) (d : Int) :
    BinaryOp.fold .add (known bits value) (ofInt width d) bits = (known bits value).displace d := by
  have hword : (ofInt width d).IsWord (d % modulus width).toNat :=
    word?_eq_some_iff.1 (word?_ofInt hwidth d)
  have hdvd : (modulus bits : Int) ∣ modulus width :=
    Int.natCast_dvd_natCast.2 (modulus_dvd hbits)
  have hlow : value + d % modulus width ≡ value + d [ZMOD modulus bits] :=
    ((Int.mod_modEq d _).of_dvd hdvd).add_left value
  rw [fold_words .add (by omega) ⟨⟨bits, rfl⟩, hvalue⟩ hword, BinaryOp.onIntegers,
    cast_toNat_emod, hlow, displace_known (by omega)]

theorem eval_displaced_known (m : Machine) (hbits : bits ≤ 128) (value : Nat) (d : Int) :
    ((Expr.constant (known bits value)).displaced d bits).eval m % modulus bits =
      ((value + d) % modulus bits).toNat := by
  have hsum := Expr.eval_displaced_modEq m (.constant (known bits value)) hbits d
  rw [Int.ModEq, Expr.eval, ← Int.natCast_emod] at hsum
  rw [← hsum, Int.toNat_natCast]

/-- Arithmetic on constants is exact modulo the width. Folding words gives what the operator gives
over the integers, and nothing is known of other constants. Displacing a constant gives its sum with
the displacement, and so do adding the constant of the displacement, if both are words, and
evaluating the displaced expression. All results fit their width. So it is for the integers, and
counting in words of 64 and 128 bits comes to the same. -/
theorem arithmetic_exact :
    (∀ (op : BinaryOp) (a b : Constant) (bits : Nat), bits ≤ 64 →
        (∀ x y, a.IsWord x → b.IsWord y →
          op.fold a b bits = known bits (op.onIntegers x y % modulus bits).toNat) ∧
        ((¬∃ x, a.IsWord x) ∨ (¬∃ y, b.IsWord y) → op.fold a b bits = unknown) ∧
        (op.fold a b bits).Sized bits ∧ op.fold a b bits = op.foldWords a b bits) ∧
      ∀ (bits value : Nat) (d : Int64), bits ≤ 128 →
        let c := known bits value
        let sum := ((value + d.toInt) % modulus bits).toNat
        c.displace d.toInt = known bits sum ∧ (c.displace d.toInt).Sized bits ∧
          (∀ width, bits ≤ width → width ≤ 64 → value < modulus 64 →
            BinaryOp.fold .add c (ofInt width d.toInt) bits = c.displace d.toInt) ∧
          (∀ m, ((Expr.constant c).displaced d.toInt bits).eval m % modulus bits = sum) ∧
          c.displace d.toInt = c.displaceWord d ∧
          ∀ e : Expr, e.displaced d.toInt bits = e.displacedByWord d bits := by
  refine ⟨fun op a b bits hbits => ⟨fun x y ha hb => fold_words op hbits ha hb,
    fold_eq_unknown op, sized_fold op a b bits, (op.foldWords_eq a b bits).symm⟩,
    fun bits value d hbits => ?_⟩
  have hdisplace := displace_known hbits value d.toInt
  refine ⟨hdisplace, sized_ofInt _ _,
    fun width hwidth h64 hvalue => fold_add_eq_displace hwidth h64 hvalue _,
    fun m => eval_displaced_known m hbits value _,
    ((known bits value).displaceWord_eq d).symm, fun e => (e.displacedByWord_eq d bits).symm⟩

/-- The least displacement of 64 bits, and a difference of words that is less than any of them. -/
theorem arithmetic_exact_least :
    BinaryOp.fold .sub (known 8 1) (known 64 0xFFFFFFFFFFFFFFFF) 16 = known 16 2 ∧
      BinaryOp.fold .sub (known 8 1) (known 65 0x10000000000000000) 16 = unknown ∧
      (known 64 1).displace Int64.minValue.toInt = known 64 0x8000000000000001 ∧
      BinaryOp.fold .add (known 64 1) (ofInt 64 Int64.minValue.toInt) 64 =
        (known 64 1).displace Int64.minValue.toInt ∧
      ((Expr.constant (known 64 1)).displaced Int64.minValue.toInt 64).eval .blank % modulus 64 =
        0x8000000000000001 := by
  have hone : IsWord (known 8 1) 1 := ⟨⟨8, rfl⟩, by decide⟩
  have hgreatest : IsWord (known 64 0xFFFFFFFFFFFFFFFF) 0xFFFFFFFFFFFFFFFF := ⟨⟨64, rfl⟩, by decide⟩
  have hwide : ¬∃ y, IsWord (known 65 0x10000000000000000) y := by
    rintro ⟨y, ⟨⟨_, ⟨⟩⟩, hlt⟩⟩
    exact absurd hlt (by decide)
  obtain ⟨hfold, hdisplace⟩ := arithmetic_exact
  obtain ⟨hsum, -, hadd, heval, -⟩ := hdisplace 64 1 Int64.minValue (by decide)
  exact ⟨(hfold .sub _ _ 16 (by decide)).1 _ _ hone hgreatest,
    (hfold .sub _ _ 16 (by decide)).2.1 (.inr hwide), hsum,
    hadd 64 (by decide) (by decide) (by decide), heval .blank⟩

end Constant

end CodeLift
