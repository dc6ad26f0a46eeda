-- SUMMARY: Hexadecimal text reads back as the number that it was written from.
import CodeLift.Text.Numeral
import CodeLift.Width
import Mathlib.Data.List.Induction
import Mathlib.Logic.Function.Basic

/-!
# Hexadecimal text

The digits of a number are read back one by one, and have the number as their value in
base 16; filling with zeros changes nothing in that. So no two numbers have the same text.
A text of `n` digits has a value of `4 * n` bits.
-/

namespace CodeLift.Text

theorem positional_concat (base : Nat) (digits : List Nat) (d : Nat) :
    positional base (digits ++ [d]) = positional base digits * base + d := by
  rw [positional, List.foldl_append]
  rfl

/-- Leading zeros do not count. -/
theorem positional_replicate_append (base n : Nat) (digits : List Nat) :
    positional base (List.replicate n 0 ++ digits) = positional base digits := by
  induction n with
  | zero => rfl
  | succ n ih =>
    rw [← ih, List.replicate_succ, List.cons_append, positional, List.foldl_cons, Nat.zero_mul,
      Nat.zero_add, positional]

theorem hexDigit?_toUpper_digitChar {d : Nat} (h : d < 16) :
    hexDigit? d.digitChar.toUpper = some d := by
  have hall : ∀ d < 16, hexDigit? (Nat.digitChar d).toUpper = some d := by decide
  exact hall d h

/-- Of a number there is one digit, or the digits of its sixteenth and one more. -/
theorem upperHex_of_lt {n : Nat} (h : n < 16) : upperHex n = [n.digitChar.toUpper] := by
  rw [upperHex, lowerHex, Nat.toDigits_of_lt_base h]
  rfl

theorem upperHex_of_le {n : Nat} (h : 16 ≤ n) :
    upperHex n = upperHex (n / 16) ++ [(n % 16).digitChar.toUpper] := by
  rw [upperHex, lowerHex, Nat.toDigits_of_base_le (by decide) h, List.map_append]
  rfl

/-- The text reads back as digits of this value. -/
def ReadsBack (text : List Char) (n : Nat) : Prop :=
  ∃ digits, text.mapM hexDigit? = some digits ∧ positional 16 digits = n

theorem readsBack_upperHex (n : Nat) : ReadsBack (upperHex n) n := by
  induction n using Nat.strongRecOn with
  | ind n ih =>
    rcases Nat.lt_or_ge n 16 with hlt | hge
    · rw [upperHex_of_lt hlt]
      exact ⟨[n], by simp [hexDigit?_toUpper_digitChar hlt], by simp [positional]⟩
    · obtain ⟨digits, hread, hvalue⟩ := ih (n / 16) (by omega)
      have hlast := hexDigit?_toUpper_digitChar (Nat.mod_lt n (show 0 < 16 by decide))
      rw [upperHex_of_le hge]
      refine ⟨digits ++ [n % 16], by simp [List.mapM_append, hread, hlast], ?_⟩
      rw [positional_concat, hvalue]
      omega

theorem ReadsBack.leftpad {text : List Char} {n : Nat} (h : ReadsBack text n) (width : Nat) :
    ReadsBack (text.leftpad width '0') n := by
  obtain ⟨digits, hread, rfl⟩ := h
  have hzeros : ∀ k, (List.replicate k '0').mapM hexDigit? = some (List.replicate k 0) := by
    intro k
    induction k with
    | zero => rfl
    | succ k ih =>
      have hzero : hexDigit? '0' = some 0 := rfl
      simp [List.replicate_succ, ih, hzero]
  refine ⟨List.replicate (width - text.length) 0 ++ digits, ?_, positional_replicate_append ..⟩
  simp [List.leftpad, List.mapM_append, hread, hzeros]

theorem ReadsBack.unique {text : List Char} {m n : Nat} (hm : ReadsBack text m)
    (hn : ReadsBack text n) : m = n := by
  obtain ⟨digits, hread, rfl⟩ := hm
  obtain ⟨digits', hread', rfl⟩ := hn
  cases hread.symm.trans hread'
  rfl

/-! ## The digits of a text -/

/-- The characters of digits stand between `0` and `f`, on either side of the colon. -/
theorem hexDigit?_bounds {c : Char} {d : Nat} (h : hexDigit? c = some d) :
    d < 16 ∧ '0'.toNat ≤ c.toNat ∧ c.toNat ≤ 'f'.toNat ∧ c.toNat ≠ ':'.toNat := by
  have hle : ∀ a b : Char, a ≤ b → a.toNat ≤ b.toNat := fun a b hab => hab
  have hranges : (48 ≤ c.toNat ∧ c.toNat ≤ 57 ∧ d = c.toNat - 48) ∨
      (97 ≤ c.toNat ∧ c.toNat ≤ 102 ∧ d = c.toNat - 97 + 10) ∨
      (65 ≤ c.toNat ∧ c.toNat ≤ 70 ∧ d = c.toNat - 65 + 10) := by
    unfold hexDigit? at h
    split at h
    · next hdecimal => exact .inl ⟨hle _ _ hdecimal.1, hle _ _ hdecimal.2, by cases h; rfl⟩
    · split at h
      · next hlower => exact .inr (.inl ⟨hle _ _ hlower.1, hle _ _ hlower.2, by cases h; rfl⟩)
      · split at h
        · next hupper => exact .inr (.inr ⟨hle _ _ hupper.1, hle _ _ hupper.2, by cases h; rfl⟩)
        · cases h
  change d < 16 ∧ 48 ≤ c.toNat ∧ c.toNat ≤ 102 ∧ c.toNat ≠ 58
  omega

/-- There is one digit for each character. -/
theorem digits_of_mapM {text : List Char} {digits : List Nat}
    (h : text.mapM hexDigit? = some digits) :
    digits.length = text.length ∧ (∀ d ∈ digits, d < 16) ∧
      ∀ c ∈ text, ∃ d, hexDigit? c = some d := by
  induction text generalizing digits with
  | nil =>
    cases h
    exact ⟨rfl, nofun, nofun⟩
  | cons c rest ih =>
    simp only [List.mapM_cons, Option.bind_eq_bind, Option.bind_eq_some_iff] at h
    obtain ⟨d, hd, digits', hrest, heq⟩ := h
    cases heq
    obtain ⟨hlength, hdigits, hchars⟩ := ih hrest
    refine ⟨congrArg (· + 1) hlength, ?_, ?_⟩
    · exact List.forall_mem_cons.2 ⟨(hexDigit?_bounds hd).1, hdigits⟩
    · exact List.forall_mem_cons.2 ⟨⟨d, hd⟩, hchars⟩

theorem positional_lt {digits : List Nat} (h : ∀ d ∈ digits, d < 16) :
    positional 16 digits < modulus (4 * digits.length) := by
  induction digits using List.reverseRecOn with
  | nil => exact Nat.one_pos
  | append_singleton digits d ih =>
    have hhigh := ih fun x hx => h x (List.mem_append_left _ hx)
    have hlow : d < 16 := h d (List.mem_append_right _ List.mem_cons_self)
    have hmodulus : modulus (4 * (digits ++ [d]).length) = modulus (4 * digits.length) * 16 := by
      rw [List.length_append, Nat.mul_add, modulus_add]
      rfl
    rw [positional_concat, hmodulus]
    omega

theorem ReadsBack.hexDigit {text : List Char} {n : Nat} (h : ReadsBack text n) :
    ∀ c ∈ text, ∃ d, hexDigit? c = some d := by
  obtain ⟨digits, hread, -⟩ := h
  exact (digits_of_mapM hread).2.2

/-- Four bits are enough for each digit. -/
theorem ReadsBack.lt {text : List Char} {n : Nat} (h : ReadsBack text n) :
    n < modulus (4 * text.length) := by
  obtain ⟨digits, hread, rfl⟩ := h
  obtain ⟨hlength, hdigits, -⟩ := digits_of_mapM hread
  exact hlength ▸ positional_lt hdigits

/-! ## Filling -/

theorem readsBack_upperHexFilled (width n : Nat) : ReadsBack (upperHexFilled width n) n :=
  (readsBack_upperHex n).leftpad width

/-- A number of `4 * width` bits needs no more digits than it is filled up to. -/
theorem length_upperHexFilled {width n : Nat} (hwidth : 0 < width) (h : n < modulus (4 * width)) :
    (upperHexFilled width n).length = width := by
  have hpow : n < Nat.pow 16 width := by
    rw [modulus_eq_pow] at h
    exact Nat.lt_of_lt_of_eq h (Nat.pow_mul 2 4 width)
  have hlength : (upperHex n).length ≤ width := by
    rw [upperHex, lowerHex, List.length_map]
    exact (Nat.length_toDigits_le_iff (by decide) hwidth).2 hpow
  rw [upperHexFilled, List.length_leftpad, Nat.max_eq_left hlength]

/-- Numbers that are filled up to the same width have different texts. -/
theorem upperHexFilled_injective (width : Nat) : Function.Injective (upperHexFilled width) := by
  intro m n h
  have hm := readsBack_upperHexFilled width m
  have hn := readsBack_upperHexFilled width n
  exact hm.unique (h ▸ hn)

end CodeLift.Text
