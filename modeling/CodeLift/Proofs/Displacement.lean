-- SUMMARY: Displacing an address is exact if it may fail, and wraps around if it may not.
import CodeLift.Address
import Mathlib.Data.Int.ModEq

/-!
# Displacements

Addresses are displaced by integers, within the bounds of their space. A machine has words
for this: the sum of a 64-bit word and a signed one, told by its carry not to have left the
words and by the bits above its width not to have left a flat space; the sum of two signed
words, for an offset in a segment; sums cut to a width by a mask, or to 16 bits.
`Space.sum?` and `Space.wrappedSum` count in this way, and they come to the same
(`Space.sum?_eq_some_iff`, `Space.wrappedSum_eq`).
-/

namespace CodeLift

/-! ## Sums of words -/

/-- The sum of a word and a signed word, unless it is no word. A sum with a negative word carries
exactly if it is not negative. -/
def signedSum? (x : UInt64) (d : Int64) : Option UInt64 :=
  if x + d.toUInt64 < x ↔ d < 0 then some (x + d.toUInt64) else none

/-- The sum of two signed words, unless it is no signed word. Then both have one sign, and their sum
has the other. -/
def checkedSum? (x d : Int64) : Option Int64 :=
  if (x < 0 ↔ d < 0) ∧ ¬(x + d < 0 ↔ x < 0) then none else some (x + d)

theorem modulus_64 : modulus 64 = 18446744073709551616 := rfl

/-- A signed word is the word of its bits, or that less all words. -/
theorem toInt_cases (d : Int64) :
    (0 ≤ d.toInt ∧ d.toInt = d.toUInt64.toNat) ∨
      (d.toInt < 0 ∧ d.toInt = (d.toUInt64.toNat : Int) - modulus 64) := by
  have hword := d.toUInt64.toNat_lt
  have hcond : d.toInt = _ := BitVec.toInt_eq_toNat_cond d.toBitVec
  rw [Int64.toNat_toBitVec] at hcond
  rw [modulus_64]
  split at hcond
  · exact .inl ⟨by omega, hcond⟩
  · exact .inr ⟨by omega, hcond⟩

theorem signedSum?_eq_some_iff {x y : UInt64} {d : Int64} :
    signedSum? x d = some y ↔ (y.toNat : Int) = x.toNat + d.toInt := by
  have hx := x.toNat_lt
  have hy := y.toNat_lt
  have hd := d.toUInt64.toNat_lt
  have hsum := UInt64.toNat_add x d.toUInt64
  have hcarry : x + d.toUInt64 < x ↔ (x + d.toUInt64).toNat < x.toNat := UInt64.lt_iff_toNat_lt
  have hsign : d < 0 ↔ d.toInt < 0 := Int64.lt_iff_toInt_lt
  have heq : x + d.toUInt64 = y ↔ (x + d.toUInt64).toNat = y.toNat := UInt64.toNat_inj.symm
  have hword := toInt_cases d
  rw [modulus_64] at hword
  unfold signedSum?
  simp only [hcarry, hsign]
  split
  · rw [Option.some_inj, heq]
    omega
  · simp only [reduceCtorEq, false_iff]
    omega

theorem checkedSum?_eq_some_iff {x y d : Int64} :
    checkedSum? x d = some y ↔ y.toInt = x.toInt + d.toInt := by
  have hx := And.intro x.le_toInt x.toInt_lt
  have hd := And.intro d.le_toInt d.toInt_lt
  have hy := And.intro y.le_toInt y.toInt_lt
  have hsum := (Int64.toInt_add x d).trans (Int.bmod_def _ _)
  have hsign : ∀ z : Int64, z < 0 ↔ z.toInt < 0 := fun z => Int64.lt_iff_toInt_lt
  have heq : x + d = y ↔ (x + d).toInt = y.toInt := Int64.toInt_inj.symm
  unfold checkedSum?
  simp only [hsign]
  split
  · simp only [reduceCtorEq, false_iff]
    split at hsum <;> omega
  · rw [Option.some_inj, heq]
    split at hsum <;> omega

/-! ## Sums in a space -/

/-- The greatest value of a width, as a word. -/
def Width.maskWord (w : Width) : UInt64 := .ofNat w.mask

/-- A mask cuts words to its width. -/
theorem Width.toNat_and_maskWord (w : Width) (y : UInt64) :
    (y &&& w.maskWord).toNat = y.toNat % modulus w.bits := by
  have hmask : w.maskWord.toNat = Nat.pow 2 w.bits - 1 := by cases w <;> rfl
  rw [UInt64.toNat_and, hmask, modulus_eq_pow]
  exact Nat.and_two_pow_sub_one_eq_mod _ _

/-- A word has no bit above a width if it is a number of this width. -/
theorem Width.and_not_maskWord_eq_zero_iff (w : Width) (y : UInt64) :
    y &&& ~~~w.maskWord = 0 ↔ y.toNat < modulus w.bits := by
  have hparts : y = y &&& w.maskWord ||| y &&& ~~~w.maskWord := by
    rw [← UInt64.toBitVec_inj, UInt64.toBitVec_or, UInt64.toBitVec_and, UInt64.toBitVec_and,
      UInt64.toBitVec_not, ← BitVec.and_or_distrib_left, BitVec.or_not_self, BitVec.and_allOnes]
  have hcut : y.toNat < modulus w.bits ↔ y &&& w.maskWord = y := by
    rw [← UInt64.toNat_inj, w.toNat_and_maskWord, Nat.mod_eq_iff_lt (modulus_pos _).ne']
  rw [hcut]
  constructor
  · intro hzero
    rw [hzero, UInt64.or_zero] at hparts
    exact hparts.symm
  · intro hcut
    rw [← hcut, UInt64.and_assoc, UInt64.and_not_self, UInt64.and_zero]

namespace Space

/-- The offset `d` behind `x`, counted in words. A flat offset has no bit above its width, and one
in a segment has 16 bits. -/
def sum? (space : Space) (x : Nat) (d : Int64) : Option Nat :=
  match space with
  | .flat w =>
    (signedSum? (.ofNat x) d).bind fun y => if y &&& ~~~w.maskWord = 0 then some y.toNat else none
  | .segment _ =>
    (checkedSum? (.ofNat x) d).bind fun y =>
      if 0 ≤ y ∧ y < 0x10000 then some y.toNatClampNeg else none

/-- The offset `n` behind `x`, counted in words and cut to the width. -/
def wrappedSum (space : Space) (x : Nat) (n : UInt64) : Nat :=
  match space with
  | .flat w => ((.ofNat x + n) &&& w.maskWord).toNat
  | .segment _ => (.ofNat x + n.toUInt16 : UInt16).toNat

theorem size_dvd (space : Space) : space.size ∣ modulus 64 := by
  refine modulus_dvd ?_
  cases space.width <;> decide

theorem size_le (space : Space) : space.size ≤ UInt64.size :=
  Nat.le_of_dvd (modulus_pos 64) space.size_dvd

/-- Counting in words gives the sum exactly if it is an offset of the space. -/
theorem sum?_eq_some_iff {space : Space} {x y : Nat} {d : Int64} (hx : x < space.size) :
    space.sum? x d = some y ↔ (y : Int) = x + d.toInt ∧ y < space.size := by
  cases space with
  | flat w =>
    have hword : ∀ z < (flat w).size, (UInt64.ofNat z).toNat = z := fun z hz =>
      UInt64.toNat_ofNat_of_lt (Nat.lt_of_lt_of_le hz (size_le _))
    have hfits : ∀ z : UInt64, z &&& ~~~w.maskWord = 0 ↔ z.toNat < (flat w).size :=
      w.and_not_maskWord_eq_zero_iff
    simp only [sum?, Option.bind_eq_some_iff, signedSum?_eq_some_iff, hword x hx, hfits,
      Option.ite_none_right_eq_some, Option.some_inj]
    constructor
    · rintro ⟨z, hz, hlt, rfl⟩
      exact ⟨hz, hlt⟩
    · rintro ⟨hy, hlt⟩
      refine ⟨.ofNat y, ?_, ?_, hword y hlt⟩
      · rwa [hword y hlt]
      · rwa [hword y hlt]
  | segment selector =>
    have hword : ∀ z < 65536, (Int64.ofNat z).toInt = z := fun z hz =>
      Int64.toInt_ofNat_of_lt (by omega)
    have hfits : ∀ z : Int64, 0 ≤ z ∧ z < 0x10000 ↔ 0 ≤ z.toInt ∧ z.toInt < 65536 := by
      intro z
      rw [Int64.le_iff_toInt_le, Int64.lt_iff_toInt_lt]
      rfl
    simp only [sum?, Option.bind_eq_some_iff, checkedSum?_eq_some_iff, hword x hx, hfits,
      Option.ite_none_right_eq_some, Option.some_inj]
    constructor
    · rintro ⟨z, hz, hlt, rfl⟩
      have hcast : (z.toNatClampNeg : Int) = z.toInt := Int.toNat_of_nonneg hlt.1
      exact ⟨hcast.trans hz, (by omega : z.toNatClampNeg < 65536)⟩
    · rintro ⟨hy, hlt⟩
      have hlt : y < 65536 := hlt
      refine ⟨.ofNat y, ?_, ?_, ?_⟩
      · rwa [hword y hlt]
      · rw [hword y hlt]
        omega
      · exact Int64.toNatClampNeg_ofNat_of_lt (by omega)

/-- Counting in words and cutting the sum is counting modulo the size of the space. -/
theorem wrappedSum_eq (space : Space) (x : Nat) (n : UInt64) :
    space.wrappedSum x n = (x + n.toNat) % space.size := by
  cases space with
  | flat w =>
    have hdvd : (flat w).size ∣ UInt64.size := size_dvd _
    change ((.ofNat x + n) &&& w.maskWord).toNat = (x + n.toNat) % modulus w.bits
    rw [w.toNat_and_maskWord, UInt64.toNat_add, UInt64.toNat_ofNat', Nat.mod_add_mod]
    exact Nat.mod_mod_of_dvd _ hdvd
  | segment selector =>
    change (.ofNat x + n.toUInt16 : UInt16).toNat = (x + n.toNat) % modulus 16
    rw [UInt16.toNat_add, UInt16.toNat_ofNat', UInt64.toNat_toUInt16, ← Nat.add_mod]
    rfl

end Space

/-! ## Addresses -/

namespace Address

variable {a b : Address} {d : Int}

/-- An address displaced within its space is the one in this space at the exact offset. -/
theorem add?_eq_some_iff :
    a.add? d = some b ↔ b.space = a.space ∧ (b.offset : Int) = a.offset + d := by
  unfold add?
  constructor
  · intro h
    split at h
    · next hfits =>
      cases h
      exact ⟨rfl, Int.toNat_of_nonneg hfits.1⟩
    · cases h
  · rintro ⟨hspace, hoffset⟩
    have hlt := b.offset_lt
    rw [hspace] at hlt
    rw [dif_pos (by omega)]
    refine congrArg some (Address.ext hspace.symm ?_)
    change (a.offset + d).toNat = b.offset
    omega

/-- An address is displaced if the exact offset is one of its space. -/
theorem exists_add?_iff :
    (∃ b, a.add? d = some b) ↔ 0 ≤ a.offset + d ∧ a.offset + d < a.space.size := by
  constructor
  · rintro ⟨b, h⟩
    obtain ⟨hspace, hoffset⟩ := add?_eq_some_iff.1 h
    have hlt := b.offset_lt
    rw [hspace] at hlt
    omega
  · intro hfits
    exact ⟨_, dif_pos hfits⟩

/-- Displacing by a word is the same as displacing by what it leaves of the size of the space. -/
theorem advance_congr {m n : Nat} (h : m ≡ n [MOD a.space.size]) : a.advance m = a.advance n :=
  Address.ext rfl (Nat.ModEq.add_left a.offset h)

theorem advance_toNat_add (a : Address) (m n : UInt64) :
    (a.advance m.toNat).advance n.toNat = a.advance (m + n).toNat := by
  have hword : (m + n).toNat ≡ m.toNat + n.toNat [MOD UInt64.size] := by
    rw [UInt64.toNat_add]
    exact Nat.mod_modEq _ _
  rw [advance_advance]
  exact advance_congr (hword.of_dvd a.space.size_dvd).symm

/-- The address `b` is exactly `d` on from `a`, and it is also where wrapping around leads. -/
structure IsBehind (b a : Address) (d : Int64) : Prop where
  space : b.space = a.space
  offset : (b.offset : Int) = a.offset + d.toInt
  advance : b = a.advance d.toUInt64.toNat
  distance : b.distance a = d.toInt
  order : b.order a = .gt ↔ 0 < d.toInt

theorem isBehind_of_add? {d : Int64} (h : a.add? d.toInt = some b) : b.IsBehind a d := by
  obtain ⟨hspace, hoffset⟩ := add?_eq_some_iff.1 h
  have hlt := b.offset_lt
  rw [hspace] at hlt
  have hlinear : (b.linear : Int) - a.linear = d.toInt := by
    simp only [linear, hspace]
    omega
  refine ⟨hspace, hoffset, Address.ext hspace ?_, ?_, ?_⟩
  · -- The word of a negative `d` is more by all words, which are a multiple of the size.
    have hword : b.offset ≡ a.offset + d.toUInt64.toNat [MOD a.space.size] := by
      rcases toInt_cases d with ⟨-, hd⟩ | ⟨-, hd⟩
      · rw [show b.offset = a.offset + d.toUInt64.toNat by omega]
      · rw [show a.offset + d.toUInt64.toNat = b.offset + modulus 64 by omega]
        exact (Nat.ModEq.add_left b.offset (Nat.modEq_zero_iff_dvd.2 a.space.size_dvd)).symm
    exact (Nat.mod_eq_of_lt hlt).symm.trans hword
  · rw [Address.distance, hlinear]
    exact d.toInt_bmod
  · rw [Address.order, Nat.compare_eq_gt]
    omega

/-- Displacing by a signed word is exact or fails: it succeeds exactly if the exact offset is one of
the space, and then leads where wrapping around leads. Wrapping around adds up modulo the words,
and both stay in the space. So it is for the integers, and counting in words comes to the same. -/
theorem displacement_exact (a : Address) (d : Int64) (m n : UInt64) :
    ((∃ b, a.add? d.toInt = some b) ↔
        0 ≤ a.offset + d.toInt ∧ a.offset + d.toInt < modulus a.width.bits) ∧
      (∀ b, a.add? d.toInt = some b → b.IsBehind a d ∧ b.offset < modulus a.width.bits) ∧
      (a.advance m.toNat).advance n.toNat = a.advance (m + n).toNat ∧
      (a.advance m.toNat).space = a.space ∧ (a.advance m.toNat).offset < modulus a.width.bits ∧
      (a.add? d.toInt).map offset = a.space.sum? a.offset d ∧
      (a.advance m.toNat).offset = a.space.wrappedSum a.offset m := by
  refine ⟨exists_add?_iff, fun b h => ?_, advance_toNat_add a m n, rfl,
    (a.advance m.toNat).offset_lt, ?_, (a.space.wrappedSum_eq a.offset m).symm⟩
  · have hbehind := isBehind_of_add? h
    have hlt := b.offset_lt
    rw [hbehind.space] at hlt
    exact ⟨hbehind, hlt⟩
  · refine Option.ext fun y => ?_
    rw [Space.sum?_eq_some_iff a.offset_lt, Option.map_eq_some_iff]
    constructor
    · rintro ⟨b, h, rfl⟩
      have hlt := b.offset_lt
      rw [(add?_eq_some_iff.1 h).1] at hlt
      exact ⟨(add?_eq_some_iff.1 h).2, hlt⟩
    · rintro ⟨hy, hlt⟩
      exact ⟨⟨a.space, y, hlt⟩, add?_eq_some_iff.2 ⟨rfl, hy⟩, rfl⟩

/-- The least signed word leads from the middle of 64 bits to the start, but not from below. -/
example :
    ((⟨.flat .w64, 0x8000000000000000, by decide⟩ : Address).add? Int64.minValue.toInt).map offset =
        some 0 ∧
      (⟨.flat .w64, 0x7FFFFFFFFFFFFFFF, by decide⟩ : Address).add? Int64.minValue.toInt = none := by
  decide

end Address

end CodeLift
