-- SUMMARY: Which texts are read as numerals, and decimal numerals in particular.
import CodeLift.Text.Numeral
import Mathlib.Data.Nat.Basic

/-!
# Numerals

What is read of a numeral is the digits behind its sign (`numeral?_eq_some_iff`). Decimal
numerals are told by a grammar, with the value that the core library gives to their digits
(`decimalNumeral?_eq_some_iff`). What a number is written as is one of its numerals.
-/

namespace CodeLift.Text

variable {text : List Char} {limit n : Nat} {c : Char}

theorem unsigned_of_not_mem (h : '+' ∉ text) : unsigned text = text := by
  unfold unsigned
  split
  · exact absurd List.mem_cons_self h
  · rfl

theorem unsigned_cases (text : List Char) : text = '+' :: unsigned text ∨ text = unsigned text := by
  unfold unsigned
  split
  · exact .inl rfl
  · exact .inr rfl

/-- A numeral is read if there are digits behind its sign, and their value is below the limit. -/
theorem numeral?_eq_some_iff {base : Nat} {digit? : Char → Option Nat} :
    numeral? base digit? limit text = some n ↔
      unsigned text ≠ [] ∧
        (∃ values, (unsigned text).mapM digit? = some values ∧ positional base values = n) ∧
        n < limit := by
  unfold numeral?
  split
  · next hnil => exact iff_of_false nofun fun h => h.1 hnil
  · next hne =>
    cases hread : (unsigned text).mapM digit? with
    | none => exact iff_of_false nofun fun ⟨_, ⟨_, hvalues, _⟩, _⟩ => nomatch hvalues
    | some values =>
      simp only [Option.ite_none_right_eq_some, Option.some_inj, exists_eq_left']
      constructor
      · rintro ⟨hlt, rfl⟩
        exact ⟨hne, rfl, hlt⟩
      · rintro ⟨-, rfl, hlt⟩
        exact ⟨hlt, rfl⟩

/-! ## Decimal numerals -/

/-- A decimal numeral of this value: an optional `+` and digits, which may begin with zeros. -/
inductive IsDecimal : List Char → Nat → Prop
  | digits {digits : List Char} (hne : digits ≠ []) (hdigit : ∀ c ∈ digits, c.isDigit) :
      IsDecimal digits (Nat.ofDigitChars 10 digits 0)
  | signed {digits : List Char} (hne : digits ≠ []) (hdigit : ∀ c ∈ digits, c.isDigit) :
      IsDecimal ('+' :: digits) (Nat.ofDigitChars 10 digits 0)

theorem decimalDigit?_eq (c : Char) :
    decimalDigit? c = if c.isDigit then some (c.toNat - '0'.toNat) else none := by
  have hdigit : c.isDigit = true ↔ '0' ≤ c ∧ c ≤ '9' := by
    rw [Char.isDigit, Bool.and_eq_true, decide_eq_true_eq, decide_eq_true_eq]
    rfl
  rw [decimalDigit?, if_congr hdigit rfl rfl]

theorem mapM_decimalDigit?_eq_some_iff {values : List Nat} :
    text.mapM decimalDigit? = some values ↔
      (∀ c ∈ text, c.isDigit) ∧ text.map (fun c => c.toNat - '0'.toNat) = values := by
  induction text generalizing values with
  | nil => exact ⟨fun h => ⟨nofun, Option.some_inj.1 h⟩, fun h => congrArg some h.2⟩
  | cons c rest ih =>
    simp only [List.mapM_cons, decimalDigit?_eq, Option.bind_eq_bind, Option.bind_eq_some_iff,
      Option.ite_none_right_eq_some, Option.some_inj, ih, List.forall_mem_cons, List.map_cons]
    constructor
    · rintro ⟨_, ⟨hc, rfl⟩, _, ⟨hrest, rfl⟩, hvalues⟩
      exact ⟨⟨hc, hrest⟩, Option.some_inj.1 hvalues⟩
    · rintro ⟨⟨hc, hrest⟩, rfl⟩
      exact ⟨_, ⟨hc, rfl⟩, _, ⟨hrest, rfl⟩, rfl⟩

theorem positional_ten (text : List Char) :
    positional 10 (text.map fun c => c.toNat - '0'.toNat) = Nat.ofDigitChars 10 text 0 := by
  simp only [positional, Nat.ofDigitChars, List.foldl_map, Nat.mul_comm 10]

/-- A sign in front of a numeral does not count. -/
theorem isDecimal_iff_unsigned :
    IsDecimal text n ↔
      unsigned text ≠ [] ∧ (∀ c ∈ unsigned text, c.isDigit) ∧
        Nat.ofDigitChars 10 (unsigned text) 0 = n := by
  constructor
  · intro h
    cases h with
    | digits hne hdigit =>
      have hsign : '+' ∉ text := fun hplus => absurd (hdigit _ hplus) (by decide)
      rw [unsigned_of_not_mem hsign]
      exact ⟨hne, hdigit, rfl⟩
    | signed hne hdigit => exact ⟨hne, hdigit, rfl⟩
  · rintro ⟨hne, hdigit, rfl⟩
    have htext := unsigned_cases text
    generalize unsigned text = digits at *
    rcases htext with rfl | rfl
    · exact .signed hne hdigit
    · exact .digits hne hdigit

theorem decimalNumeral?_eq_some_iff :
    decimalNumeral? limit text = some n ↔ IsDecimal text n ∧ n < limit := by
  rw [decimalNumeral?, numeral?_eq_some_iff, isDecimal_iff_unsigned]
  simp only [mapM_decimalDigit?_eq_some_iff, and_assoc, exists_and_left, exists_eq_left',
    positional_ten]

theorem isDecimal_toDigits (n : Nat) : IsDecimal (Nat.toDigits 10 n) n := by
  have hdigit : ∀ c ∈ Nat.toDigits 10 n, c.isDigit := fun _ hc =>
    Nat.isDigit_of_mem_toDigits (by decide : 0 < 10) (Nat.le_refl 10) hc
  have h := IsDecimal.digits Nat.toDigits_ne_nil hdigit
  rwa [Nat.ofDigitChars_ten_toDigits] at h

/-- A numeral has no characters but digits and its sign. -/
theorem IsDecimal.not_mem (h : IsDecimal text n) (hsign : c ≠ '+') (hc : ¬c.isDigit) :
    c ∉ text := by
  intro hmem
  cases h with
  | digits _ hdigit => exact hc (hdigit c hmem)
  | signed _ hdigit =>
    rcases List.mem_cons.1 hmem with heq | hmem
    · exact hsign heq
    · exact hc (hdigit c hmem)

end CodeLift.Text
