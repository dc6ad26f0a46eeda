-- SUMMARY: What the bit masks of registers tell about the bit ranges of registers.
import CodeLift.Register

/-!
# Masks and ranges

A register occupies a range of bits of its domain. Its mask has exactly those of them that
lie below bit 128 (`testBit_mask`). Ranges that meet have the greater of their first bits in
common, so registers overlap if and only if their ranges meet, as long as both start below
bit 128. A register whose range starts above the masks does not even overlap itself
(`overlaps_self_iff`), and every register of its domain covers it. Of a range that goes on
behind the masks, they do not tell where it ends.
-/

namespace CodeLift

/-- Masks have a bit in common if and only if their conjunction has one. -/
theorem and_ne_zero_iff {m n : Nat} :
    m &&& n ≠ 0 ↔ ∃ i, m.testBit i = true ∧ n.testBit i = true := by
  constructor
  · intro hne
    obtain ⟨i, hi⟩ := Nat.exists_testBit_of_ne_zero hne
    rw [Nat.testBit_and, Bool.and_eq_true] at hi
    exact ⟨i, hi⟩
  · rintro ⟨i, hm, hn⟩ hzero
    have hi : (m &&& n).testBit i = true := by rw [Nat.testBit_and, hm, hn]; rfl
    rw [hzero, Nat.zero_testBit] at hi
    cases hi

/-- A single bit. -/
theorem testBit_single_iff {mask n i : Nat} (h : mask = 1 <<< n) :
    mask.testBit i = true ↔ i = n := by
  rw [h, Nat.one_shiftLeft, Nat.testBit_two_pow, decide_eq_true_eq, eq_comm]

namespace Register

variable {a b r : Register} {i : Nat}

/-- The bit of the domain is one of the register's. -/
def Occupies (r : Register) (i : Nat) : Prop := r.offset ≤ i ∧ i < r.offset + r.bits

instance (r : Register) (i : Nat) : Decidable (r.Occupies i) :=
  inferInstanceAs (Decidable (_ ∧ _))

/-- The registers share a bit. -/
def Meets (a b : Register) : Prop := a.domain = b.domain ∧ ∃ i, a.Occupies i ∧ b.Occupies i

/-- Every bit of `b` is one of `a`. -/
def Within (b a : Register) : Prop := a.domain = b.domain ∧ ∀ i, b.Occupies i → a.Occupies i

theorem testBit_mask (r : Register) (i : Nat) :
    r.mask.testBit i = decide (i < 128 ∧ r.Occupies i) := by
  have hbits : (r.offset ≤ i ∧ i - r.offset < min r.bits 128) ∧ i < 128 ↔
      i < 128 ∧ r.Occupies i := by
    unfold Occupies
    omega
  simp only [mask, modulus_eq_pow, Nat.pow_eq, Nat.testBit_mod_two_pow, Nat.testBit_mul_two_pow,
    Nat.testBit_two_pow_sub_one, ← hbits, Bool.decide_and]
  exact Bool.and_comm _ _

/-! ## Overlap -/

/-- Registers overlap if a bit of both is below bit 128. -/
theorem overlaps_iff :
    a.overlaps b = true ↔ a.domain = b.domain ∧ ∃ i < 128, a.Occupies i ∧ b.Occupies i := by
  rw [overlaps, Bool.and_eq_true, beq_iff_eq, bne_iff_ne, and_ne_zero_iff]
  refine and_congr_right fun _ => exists_congr fun i => ?_
  rw [testBit_mask, testBit_mask, decide_eq_true_eq, decide_eq_true_eq]
  exact ⟨fun ⟨ha, hb⟩ => ⟨ha.1, ha.2, hb.2⟩, fun ⟨hi, ha, hb⟩ => ⟨⟨hi, ha⟩, hi, hb⟩⟩

theorem overlaps_iff_meets (ha : a.offset < 128) (hb : b.offset < 128) :
    a.overlaps b = true ↔ a.Meets b := by
  rw [overlaps_iff]
  refine and_congr_right fun _ => ⟨fun ⟨i, _, hi⟩ => ⟨i, hi⟩, fun ⟨i, hai, hbi⟩ => ?_⟩
  unfold Occupies at hai hbi ⊢
  exact ⟨max a.offset b.offset, by omega, by omega, by omega⟩

/-- A register overlaps itself if its first bit is below bit 128. -/
theorem overlaps_self_iff (hpos : 0 < r.bits) : r.overlaps r = true ↔ r.offset < 128 := by
  rw [overlaps_iff]
  constructor
  · rintro ⟨-, i, hi, hr, -⟩
    exact Nat.lt_of_le_of_lt hr.1 hi
  · intro hlt
    have hfirst : r.Occupies r.offset := ⟨Nat.le_refl _, Nat.lt_add_of_pos_right hpos⟩
    exact ⟨rfl, r.offset, hlt, hfirst, hfirst⟩

/-! ## Covering -/

/-- One register covers another if it has all bits of the other that are below bit 128. -/
theorem covers_iff :
    a.covers b = true ↔ a.domain = b.domain ∧ ∀ i < 128, b.Occupies i → a.Occupies i := by
  rw [covers, Bool.and_eq_true, beq_iff_eq, beq_iff_eq]
  refine and_congr_right fun _ => ⟨fun heq i hi hb => ?_, fun hsub => ?_⟩
  · have hbit := congrArg (Nat.testBit · i) heq
    simp only [Nat.testBit_and, testBit_mask, decide_eq_true (And.intro hi hb), Bool.and_true,
      decide_eq_true_eq] at hbit
    exact hbit.2
  · refine Nat.eq_of_testBit_eq fun i => ?_
    rw [Nat.testBit_and, testBit_mask, testBit_mask, ← Bool.decide_and, decide_eq_decide]
    exact ⟨And.right, fun ⟨hi, hb⟩ => ⟨⟨hi, hsub i hi hb⟩, hi, hb⟩⟩

/-- A register that has bits behind the masks covers every register that starts behind its first
bit. -/
theorem covers_of_le (hdomain : a.domain = b.domain) (hoffset : a.offset ≤ b.offset)
    (hlong : 128 ≤ a.offset + a.bits) : a.covers b = true :=
  covers_iff.2 ⟨hdomain, fun _ hi hb =>
    ⟨Nat.le_trans hoffset hb.1, Nat.lt_of_lt_of_le hi hlong⟩⟩

/-- Below bit 128 covering goes by ranges. Behind it, there must be nothing that the masks miss. -/
theorem covers_iff_within (hpos : 0 < b.bits) (hb : b.offset < 128)
    (hends : a.domain = b.domain → a.offset ≤ b.offset → 128 ≤ a.offset + a.bits →
      b.offset + b.bits ≤ a.offset + a.bits) :
    a.covers b = true ↔ b.Within a := by
  rw [covers_iff]
  refine and_congr_right fun hdomain => ⟨fun h i hi => ?_, fun h i _ => h i⟩
  have hfirst : a.Occupies b.offset :=
    h b.offset hb ⟨Nat.le_refl _, Nat.lt_add_of_pos_right hpos⟩
  rcases Nat.lt_or_ge (a.offset + a.bits) 128 with hshort | hlong
  · -- The first bit behind `a` is seen, and would be one of `a`.
    have hlast : ¬ b.Occupies (a.offset + a.bits) := fun hi => Nat.lt_irrefl _ (h _ hshort hi).2
    unfold Occupies at hi hfirst hlast ⊢
    omega
  · have hle := hends hdomain hfirst.1 hlong
    unfold Occupies at hi hfirst ⊢
    omega

end Register

end CodeLift
