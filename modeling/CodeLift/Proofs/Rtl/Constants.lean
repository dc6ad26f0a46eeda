-- SUMMARY: Constants describe values, and operators on constants follow those on values.
import CodeLift.Rtl.Fold
import CodeLift.Rtl.Machine
import CodeLift.Store
import Mathlib.Data.Int.ModEq
import Mathlib.Tactic.Ring

/-!
# Constants and values

A constant describes a value of some width if it is unknown, or known with that
width and value. Folding and displacement keep to this: what they make of
constants describes what evaluation makes of the values, and has the width that is
asked for. A machine matches a store if the store describes every register of it.
-/

namespace CodeLift

theorem cast_modulus_pos (bits : Nat) : (0 : Int) < modulus bits :=
  Int.natCast_pos.2 (modulus_pos bits)

/-- A depth that wraps around stays the same in words of at most 32 bits. -/
theorem wrap32_modEq {bits : Nat} (hbits : bits ≤ 32) (v : Int) :
    wrap32 v ≡ v [ZMOD modulus bits] := by
  have hwrap : wrap32 v ≡ v [ZMOD modulus 32] := Int.bmod_emod
  exact hwrap.of_dvd (Int.natCast_dvd_natCast.2 (modulus_dvd hbits))

theorem modEq_wrap32_sub_iff {bits : Nat} (hbits : bits ≤ 32) {v w : Int} :
    v ≡ wrap32 (v - w) [ZMOD modulus bits] ↔ w ≡ 0 [ZMOD modulus bits] := by
  have hwrap := wrap32_modEq hbits (v - w)
  constructor
  · intro h
    have hsub := (h.trans hwrap).sub_left v
    rwa [sub_self, Int.sub_sub_self, Int.modEq_comm] at hsub
  · intro h
    have hsub := h.sub_left v
    rw [Int.sub_zero] at hsub
    exact hsub.symm.trans hwrap.symm

/-! ## Operators -/

namespace BinaryOp

/-- Only the operands' low bits matter. -/
theorem value_mod (op : BinaryOp) (x y bits : Nat) :
    op.value (x % modulus bits) (y % modulus bits) bits = op.value x y bits := by
  have hmod : ∀ z, BitVec.ofNat bits (z % modulus bits) = BitVec.ofNat bits z := fun z => by
    rw [modulus_eq_pow]
    exact BitVec.eq_of_toNat_eq (by simp)
  rw [value, value, hmod, hmod]

@[simp] theorem value_lt_self (op : BinaryOp) (x y bits : Nat) :
    op.value x y bits % modulus bits = op.value x y bits :=
  Nat.mod_eq_of_lt (op.value_lt x y bits)

theorem value_add (x y bits : Nat) : (value .add x y bits : Int) = (x + y) % modulus bits := by
  have h : value .add x y bits = (x + y) % modulus bits := by
    rw [modulus_eq_pow]
    exact (BitVec.toNat_add _ _).trans (by simp)
  rw [h]
  push_cast
  rfl

theorem value_sub (x y bits : Nat) : (value .sub x y bits : Int) = (x - y) % modulus bits := by
  have hy : y % modulus bits < modulus bits := Nat.mod_lt _ (modulus_pos bits)
  have h : value .sub x y bits =
      (modulus bits - y % modulus bits + x % modulus bits) % modulus bits := by
    rw [modulus_eq_pow]
    exact (BitVec.toNat_sub _ _).trans (by simp)
  calc (value .sub x y bits : Int)
      = (x % modulus bits - y % modulus bits + modulus bits) % modulus bits := by
        rw [h]
        push_cast [Nat.cast_sub hy.le]
        congr 1
        omega
    _ = (x - y) % modulus bits := by rw [Int.add_emod_right, ← Int.sub_emod]

theorem value_mul (x y bits : Nat) : value .mul x y bits = x * y % modulus bits := by
  rw [modulus_eq_pow]
  exact (BitVec.toNat_mul _ _).trans (by simp)

theorem value_and (x y bits : Nat) : value .and x y bits = (x &&& y) % modulus bits := by
  rw [modulus_eq_pow]
  exact (BitVec.toNat_and _ _).trans (by simp [Nat.and_mod_two_pow])

theorem value_or (x y bits : Nat) : value .or x y bits = (x ||| y) % modulus bits := by
  rw [modulus_eq_pow]
  exact (BitVec.toNat_or _ _).trans (by simp [Nat.or_mod_two_pow])

theorem value_xor (x y bits : Nat) : value .xor x y bits = (x ^^^ y) % modulus bits := by
  rw [modulus_eq_pow]
  exact (BitVec.toNat_xor _ _).trans (by simp [Nat.xor_mod_two_pow])

/-- Words of 64 bits are wide enough for every narrower result. -/
theorem onWords_mod (op : BinaryOp) {x y bits : Nat} (hbits : bits ≤ 64) (hy : y < modulus 64) :
    op.onWords x y % modulus bits = op.value x y bits := by
  have hdvd : modulus bits ∣ modulus 64 := modulus_dvd hbits
  cases op with
  | add =>
    have hvalue : value .add x y bits = (x + y) % modulus bits := by
      exact_mod_cast value_add x y bits
    rw [hvalue, onWords, Nat.mod_mod_of_dvd _ hdvd]
  | sub =>
    have hvalue : ((x + modulus 64 - y : Nat) : Int) % modulus bits = value .sub x y bits := by
      rw [value_sub, Nat.cast_sub (by omega)]
      push_cast
      obtain ⟨k, hk⟩ := hdvd
      rw [hk, show (x + (modulus bits * k : Nat) - y : Int) = x - y + modulus bits * k by
        push_cast; ring, Int.add_mul_emod_self_left]
    rw [onWords, Nat.mod_mod_of_dvd _ hdvd]
    exact_mod_cast hvalue
  | mul => rw [value_mul, onWords, Nat.mod_mod_of_dvd _ hdvd]
  | and => rw [value_and, onWords]
  | or => rw [value_or, onWords]
  | xor => rw [value_xor, onWords]

end BinaryOp

/-! ## Description -/

/-- If the constant is known, it has this width and value. -/
def Constant.Describes (c : Constant) (bits value : Nat) : Prop :=
  ∀ b v, c = .known b v → b = bits ∧ v = value

namespace Constant

variable {bits x y : Nat} {a b c : Constant}

theorem eq_unknown (h : ¬ c.isKnown) : c = .unknown := by
  cases c with
  | unknown => rfl
  | known => exact absurd rfl h

theorem describes_unknown (bits value : Nat) : unknown.Describes bits value := nofun

theorem describes_known (bits value : Nat) : (known bits value).Describes bits value := by
  intro b v h
  cases h
  exact ⟨rfl, rfl⟩

theorem describes_ofNat (hbits : bits ≤ 128) (value : Nat) :
    (ofNat bits value).Describes bits (value % modulus bits) := by
  rw [ofNat, Nat.min_eq_left hbits]
  exact describes_known _ _

theorem describes_ofInt (hbits : bits ≤ 128) (value : Int) :
    (ofInt bits value).Describes bits (value % modulus bits).toNat := by
  rw [ofInt, Nat.min_eq_left hbits]
  exact describes_known _ _

theorem word?_eq_some {v : Nat} (h : c.Describes bits x) (hv : c.word? = some v) :
    v = x ∧ v < modulus 64 := by
  cases c with
  | unknown => cases hv
  | known b w =>
    obtain ⟨_, hw⟩ := h b w rfl
    by_cases hlt : w < modulus 64
    · rw [word?, if_pos hlt] at hv
      cases hv
      exact ⟨hw, hlt⟩
    · rw [word?, if_neg hlt] at hv
      cases hv

/-- Folding constants describes the value of the operator, whose operands are cut to its width. -/
theorem describes_fold (op : BinaryOp) (hbits : bits ≤ 64)
    (ha : a.Describes bits (x % modulus bits)) (hb : b.Describes bits (y % modulus bits)) :
    (op.fold a b bits).Describes bits (op.value x y bits) := by
  unfold BinaryOp.fold
  split
  · next v w hv hw =>
    obtain ⟨rfl, _⟩ := word?_eq_some ha hv
    obtain ⟨rfl, hlt⟩ := word?_eq_some hb hw
    have h := describes_ofNat (show bits ≤ 128 by omega)
      (op.onWords (x % modulus bits) (y % modulus bits))
    rwa [op.onWords_mod hbits hlt, op.value_mod] at h
  · exact describes_unknown _ _

theorem describes_displace (hbits : bits ≤ 128) (h : c.Describes bits x) (d : Int) :
    (c.displace d).Describes bits ((x + d) % modulus bits).toNat := by
  cases c with
  | unknown => exact describes_unknown _ _
  | known b v =>
    obtain ⟨rfl, rfl⟩ := h b v rfl
    exact describes_ofInt hbits _

/-! ## Two's complement -/

theorem cast_toNat_emod (v : Int) : ((v % modulus bits).toNat : Int) = v % modulus bits :=
  Int.toNat_of_nonneg (Int.emod_nonneg _ (cast_modulus_pos bits).ne')

theorem toNat_emod_lt (v : Int) : (v % modulus bits).toNat < modulus bits := by
  rw [Int.toNat_lt' (modulus_pos bits)]
  exact Int.emod_lt_of_pos v (cast_modulus_pos bits)

/-- Only the low bits of a number matter. -/
theorem ofInt_congr {v w : Int} (hbits : bits ≤ 128) (h : v ≡ w [ZMOD modulus bits]) :
    ofInt bits v = ofInt bits w := by
  rw [ofInt, ofInt, Nat.min_eq_left hbits, h]

theorem displace_ofInt (hbits : bits ≤ 128) (v d : Int) :
    (ofInt bits v).displace d = ofInt bits (v + d) := by
  rw [ofInt, Nat.min_eq_left hbits, displace, cast_toNat_emod]
  exact ofInt_congr hbits ((Int.mod_modEq v _).add_right d)

theorem word?_ofInt (hbits : bits ≤ 64) (v : Int) :
    (ofInt bits v).word? = some (v % modulus bits).toNat := by
  have hlt : (v % modulus bits).toNat < modulus 64 :=
    (toNat_emod_lt v).trans_le (modulus_le hbits)
  rw [ofInt, Nat.min_eq_left (by omega), word?, if_pos hlt]

/-- Folding known words gives the value of the operator. -/
theorem fold_known (op : BinaryOp) {j k : Nat} (hbits : bits ≤ 64) (hx : x < modulus 64)
    (hy : y < modulus 64) :
    op.fold (known j x) (known k y) bits = known bits (op.value x y bits) := by
  rw [BinaryOp.fold, word?, if_pos hx, word?, if_pos hy]
  change ofNat bits _ = _
  rw [ofNat, Nat.min_eq_left (by omega), op.onWords_mod hbits hy]

theorem fold_ofInt (op : BinaryOp) (hbits : bits ≤ 64) (v w : Int) :
    op.fold (ofInt bits v) (ofInt bits w) bits =
      known bits (op.value (v % modulus bits).toNat (w % modulus bits).toNat bits) := by
  have hword : ∀ v : Int, (v % modulus bits).toNat < modulus 64 := fun v =>
    (toNat_emod_lt v).trans_le (modulus_le hbits)
  rw [ofInt, ofInt, Nat.min_eq_left (by omega)]
  exact fold_known op hbits (hword v) (hword w)

theorem fold_add_ofInt (hbits : bits ≤ 64) (v w : Int) :
    BinaryOp.fold .add (ofInt bits v) (ofInt bits w) bits = ofInt bits (v + w) := by
  have hvalue := BinaryOp.value_add (v % modulus bits).toNat (w % modulus bits).toNat bits
  rw [cast_toNat_emod, cast_toNat_emod, ← Int.add_emod] at hvalue
  rw [fold_ofInt _ hbits, ofInt, Nat.min_eq_left (by omega), ← hvalue, Int.toNat_natCast]

theorem fold_sub_ofInt (hbits : bits ≤ 64) (v w : Int) :
    BinaryOp.fold .sub (ofInt bits v) (ofInt bits w) bits = ofInt bits (v - w) := by
  have hvalue := BinaryOp.value_sub (v % modulus bits).toNat (w % modulus bits).toNat bits
  rw [cast_toNat_emod, cast_toNat_emod, ← Int.sub_emod] at hvalue
  rw [fold_ofInt _ hbits, ofInt, Nat.min_eq_left (by omega), ← hvalue, Int.toNat_natCast]

/-! ## Widths -/

/-- If the constant is known, it has this width, and its value fits. -/
def Sized (c : Constant) (bits : Nat) : Prop :=
  ∀ b value, c = .known b value → b = bits ∧ value < modulus bits

/-- If the constant is known, its value fits its width. -/
def Fits (c : Constant) : Prop := ∀ bits value, c = .known bits value → value < modulus bits

theorem sized_unknown (bits : Nat) : unknown.Sized bits := nofun

theorem modulus_min_le (bits : Nat) : modulus (min bits 128) ≤ modulus bits :=
  modulus_le (Nat.min_le_left ..)

theorem sized_ofNat (bits value : Nat) : (ofNat bits value).Sized bits := by
  intro b v h
  cases h
  exact ⟨rfl, (Nat.mod_lt _ (modulus_pos _)).trans_le (modulus_min_le bits)⟩

theorem sized_ofInt (bits : Nat) (value : Int) : (ofInt bits value).Sized bits := by
  intro b v h
  cases h
  exact ⟨rfl, (toNat_emod_lt value).trans_le (modulus_min_le bits)⟩

theorem sized_fold (op : BinaryOp) (a b : Constant) (bits : Nat) :
    (op.fold a b bits).Sized bits := by
  unfold BinaryOp.fold
  split
  · exact sized_ofNat _ _
  · exact sized_unknown bits

theorem Sized.displace (h : c.Sized bits) (d : Int) : (c.displace d).Sized bits := by
  cases c with
  | unknown => exact sized_unknown bits
  | known b value =>
    obtain ⟨rfl, -⟩ := h b value rfl
    exact sized_ofInt _ _

theorem Sized.fits (h : c.Sized bits) : c.Fits := by
  intro b value hknown
  obtain ⟨rfl, hlt⟩ := h b value hknown
  exact hlt

theorem Fits.sized (h : c.Fits) (hbits : ∀ b, c.bits? = some b → b = bits) : c.Sized bits := by
  intro b value hknown
  obtain rfl := hbits b (by rw [hknown]; rfl)
  exact ⟨rfl, h b value hknown⟩

theorem Sized.bits_eq (h : c.Sized bits) {b : Nat} (hb : c.bits? = some b) : b = bits := by
  cases c with
  | unknown => cases hb
  | known b' value =>
    cases hb
    exact (h b value rfl).1

end Constant

/-! ## Displacement -/

/-- A displaced expression has the sum as its value, modulo its width. -/
theorem Expr.eval_displaced_modEq (m : Machine) (e : Expr) {bits : Nat} (hbits : bits ≤ 128)
    (d : Int) : ((e.displaced d bits).eval m : Int) ≡ e.eval m + d [ZMOD modulus bits] := by
  have hconst : (Expr.constant (.ofNat bits d.natAbs)).eval m = d.natAbs % modulus bits := by
    rw [Constant.ofNat, Nat.min_eq_left hbits, eval]
  unfold displaced
  split
  · next hd => rw [hd, Int.add_zero]
  · split
    · next hneg =>
      rw [eval, hconst, BinaryOp.value_sub, Int.ModEq, Int.emod_emod, Int.sub_emod,
        Int.natCast_mod, Int.emod_emod, ← Int.sub_emod, Int.natCast_natAbs, abs_of_neg hneg,
        sub_neg_eq_add]
    · next hzero hneg =>
      rw [eval, hconst, BinaryOp.value_add, Int.ModEq, Int.emod_emod, Int.add_emod,
        Int.natCast_mod, Int.emod_emod, ← Int.add_emod, Int.natCast_natAbs,
        abs_of_nonneg (by omega)]

theorem Expr.eval_displaced (m : Machine) {e : Expr} {bits : Nat} (hbits : bits ≤ 128)
    (he : e.eval m < modulus bits) (d : Int) :
    ((e.displaced d bits).eval m : Int) = (e.eval m + d) % modulus bits := by
  have hlt : (e.displaced d bits).eval m < modulus bits := by
    unfold displaced
    split
    · exact he
    · split <;> exact BinaryOp.value_lt _ _ _ _
  exact (Int.emod_eq_of_lt (by omega) (by exact_mod_cast hlt)).symm.trans
    (eval_displaced_modEq m e hbits d)

/-! ## Registers -/

namespace Machine

/-- The machine whose cells and bytes are all zero. -/
def blank : Machine where
  cell _ := 0
  memory _ _ := 0
  imported _ := 0
  holds _ _ := false
  cell_fits c := by cases c <;> simp [Cell.fit]

@[simp] theorem cell_blank (c : Cell) : blank.cell c = 0 := rfl

variable {m m' : Machine} {registers : Store Register}

/-- Every register whose value is known has its own width there, and holds that value. -/
def Matches (m : Machine) (registers : Store Register) : Prop :=
  ∀ r, (registers.get r).Describes r.bits (m.cell (.register r))

theorem cell_mod (m : Machine) (r : Register) :
    m.cell (.register r) % modulus r.bits = m.cell (.register r) := m.cell_fits (.register r)

theorem cell_lt (m : Machine) (r : Register) : m.cell (.register r) < modulus r.bits := by
  rw [← m.cell_mod r]
  exact Nat.mod_lt _ (modulus_pos _)

theorem matches_empty (m : Machine) : m.Matches .empty :=
  fun _ => Constant.describes_unknown _ _

/-- Only the cells of registers matter. -/
theorem Matches.congr (h : m.Matches registers)
    (hcell : ∀ r, m'.cell (.register r) = m.cell (.register r)) : m'.Matches registers := by
  intro r
  rw [hcell r]
  exact h r

/-- Only what the store reads matters. -/
theorem Matches.of_get (h : m.Matches registers) {registers' : Store Register}
    (hget : ∀ r, registers'.get r = registers.get r) : m.Matches registers' := by
  intro r
  rw [hget r]
  exact h r

/-- Of a register may be known what describes the value in it. -/
theorem Matches.learn (h : m.Matches registers) {r : Register} {c : Constant}
    (hc : c.Describes r.bits (m.cell (.register r))) : m.Matches (registers.set r c) := by
  intro r'
  by_cases hr : r' = r
  · subst hr
    rw [Store.get_set_self]
    exact hc
  · rw [Store.get_set_of_ne _ _ hr]
    exact h r'

/-- Assigning a register changes what may be known of it. -/
theorem Matches.set (h : m.Matches registers) {r : Register} {c : Constant} {value : Nat}
    (hc : c.Describes r.bits (value % modulus r.bits)) :
    (m.set (.register r) value).Matches (registers.set r c) := by
  intro r'
  by_cases hr : r' = r
  · subst hr
    rw [Store.get_set_self, cell_set_self]
    exact hc
  · rw [Store.get_set_of_ne _ _ hr, cell_set_of_ne _ _ (by simpa using hr)]
    exact h r'

theorem Matches.set_flags (h : m.Matches registers) (g : FlagGroup) (value : Nat) :
    (m.set (.flags g) value).Matches registers :=
  h.congr fun _ => cell_set_of_ne _ _ nofun

end Machine

end CodeLift
