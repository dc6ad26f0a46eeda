-- SUMMARY: The texts that are read as addresses, and the address of each.
import CodeLift.Proofs.Text.Blank
import CodeLift.Proofs.Text.Hex
import CodeLift.Proofs.Text.Numeral
import CodeLift.Saved
import Mathlib.Data.String.Basic

/-!
# The text of addresses

The texts of an address are told by a grammar: a flat address is one number between
blanks, a segmented one is two numbers with a colon between them. Reading accepts exactly
these (`read_eq_ok_iff`), and what an address is written as is one of its texts
(`spells_chars`).

The width of a flat address is told by the length of its text, and its value by the
digits in it. The two never disagree, since a text has a byte for each digit
(`Numeral.value_lt_size`).
-/

namespace CodeLift.Text

/-- Characters of ASCII have a byte each. -/
theorem utf8ByteSize_of_ascii {text : List Char} (h : ∀ c ∈ text, c.toNat ≤ 'x'.toNat) :
    (String.ofList text).utf8ByteSize = text.length := by
  rw [String.utf8ByteSize_ofList]
  induction text with
  | nil => rfl
  | cons c rest ih =>
    obtain ⟨hc, hrest⟩ := List.forall_mem_cons.1 h
    have hone : c.utf8Size = 1 := Char.utf8Size_eq_one_iff.2 (Nat.le_trans hc (by decide))
    rw [String.utf8Len_cons, ih hrest, hone, List.length_cons]

end CodeLift.Text

namespace CodeLift.Address

open Text

/-! ## Numbers -/

/-- What may stand before a number, the empty text included. -/
def marks : List (List Char) := [[], ['0', 'x'], ['0', 'X']]

/-- What may stand between mark and digits. -/
def signs : List (List Char) := [[], ['+']]

/-- A number as it stands in an address: digits, with or without a mark and a sign. -/
structure Numeral where
  mark : List Char
  sign : List Char
  digits : List Char
  value : Nat
  mark_mem : mark ∈ marks
  sign_mem : sign ∈ signs
  digits_ne_nil : digits ≠ []
  readsBack : ReadsBack digits value
  value_lt : value < modulus 64

namespace Numeral

variable (n : Numeral)

/-- The text behind the mark. -/
def body : List Char := n.sign ++ n.digits

def chars : List Char := n.mark ++ n.body

/-- The width of an address of this number, told by the length of its body in UTF-8. -/
def width : Width :=
  let length := (String.ofList n.body).utf8ByteSize
  if length ≤ 4 then .w16 else if length ≤ 8 then .w32 else .w64

theorem forall_mem_body : ∀ c ∈ n.body, c = '+' ∨ ∃ d, hexDigit? c = some d := by
  intro c hc
  rcases List.mem_append.1 hc with hsign | hdigit
  · have hall : ∀ sign ∈ signs, ∀ c ∈ sign, c = '+' := by simp [signs]
    exact .inl (hall n.sign n.sign_mem c hsign)
  · exact .inr (n.readsBack.hexDigit c hdigit)

theorem not_mem_body {c : Char} (hsign : c ≠ '+') (hdigit : hexDigit? c = none) : c ∉ n.body := by
  intro hc
  rcases n.forall_mem_body c hc with rfl | ⟨d, hd⟩
  · exact hsign rfl
  · cases hdigit.symm.trans hd

theorem forall_mem_chars :
    ∀ c ∈ n.chars, '+'.toNat ≤ c.toNat ∧ c.toNat ≤ 'x'.toNat ∧ c.toNat ≠ ':'.toNat := by
  intro c hc
  rcases List.mem_append.1 hc with hmark | hbody
  · have hall : ∀ mark ∈ marks, ∀ c ∈ mark,
        '+'.toNat ≤ c.toNat ∧ c.toNat ≤ 'x'.toNat ∧ c.toNat ≠ ':'.toNat := by simp [marks]
    exact hall n.mark n.mark_mem c hmark
  · rcases n.forall_mem_body c hbody with rfl | ⟨d, hd⟩
    · decide
    · obtain ⟨-, hlow, hhigh, hcolon⟩ := hexDigit?_bounds hd
      exact ⟨Nat.le_trans (by decide) hlow, Nat.le_trans hhigh (by decide), hcolon⟩

theorem colon_not_mem : ':' ∉ n.chars := fun h => (n.forall_mem_chars ':' h).2.2 rfl

/-- There are no blanks in a number. -/
theorem isTrim_chars : IsTrim n.chars := by
  have hbody : n.body ≠ [] := List.append_ne_nil_of_right_ne_nil _ n.digits_ne_nil
  refine .of_forall (List.append_ne_nil_of_right_ne_nil _ hbody) fun c hc => ?_
  obtain ⟨hlow, hhigh, -⟩ := n.forall_mem_chars c hc
  exact not_isBlank_of_visible (Nat.lt_of_lt_of_le (by decide) hlow)
    (Nat.le_trans hhigh (by decide))

theorem utf8ByteSize_body : (String.ofList n.body).utf8ByteSize = n.body.length :=
  utf8ByteSize_of_ascii fun c hc => (n.forall_mem_chars c (List.mem_append_right _ hc)).2.1

/-- Digits that are few enough for a width have a value of that width. -/
theorem value_lt_of_length_le {bits : Nat} (h : 4 * n.body.length ≤ bits) :
    n.value < modulus bits := by
  have hdigits : 4 * n.digits.length ≤ bits := by
    rw [body, List.length_append] at h
    omega
  exact Nat.lt_of_lt_of_le n.readsBack.lt (modulus_le hdigits)

/-- The width has room for the value, since there is a character for each digit. -/
theorem value_lt_size : n.value < (Space.flat n.width).size := by
  rw [Space.size, Space.width, width, n.utf8ByteSize_body]
  split
  · next hshort =>
    have hbits : 4 * n.body.length ≤ Width.w16.bits := Nat.mul_le_mul_left 4 hshort
    exact n.value_lt_of_length_le hbits
  · split
    · next hmiddle =>
      have hbits : 4 * n.body.length ≤ Width.w32.bits := Nat.mul_le_mul_left 4 hmiddle
      exact n.value_lt_of_length_le hbits
    · exact n.value_lt

end Numeral

/-! ## Reading a number -/

theorem unmarked_of_not_mem {text : List Char} (hlower : 'x' ∉ text) (hupper : 'X' ∉ text) :
    unmarked text = text := by
  unfold unmarked
  split
  · exact absurd (List.mem_cons_of_mem _ List.mem_cons_self) hlower
  · exact absurd (List.mem_cons_of_mem _ List.mem_cons_self) hupper
  · rfl

theorem exists_mark (text : List Char) : ∃ mark ∈ marks, text = mark ++ unmarked text := by
  unfold unmarked
  split
  · exact ⟨['0', 'x'], by decide, rfl⟩
  · exact ⟨['0', 'X'], by decide, rfl⟩
  · exact ⟨[], by decide, rfl⟩

theorem exists_sign (text : List Char) : ∃ sign ∈ signs, text = sign ++ unsigned text := by
  rcases unsigned_cases text with hsigned | hbare
  · exact ⟨['+'], by decide, hsigned⟩
  · exact ⟨[], by decide, hbare⟩

theorem unmarked_chars (n : Numeral) : unmarked n.chars = n.body := by
  have hmarks := n.mark_mem
  simp only [marks, List.mem_cons, List.not_mem_nil, or_false] at hmarks
  unfold Numeral.chars
  rcases hmarks with hmark | hmark | hmark
  · rw [hmark, List.nil_append]
    exact unmarked_of_not_mem (n.not_mem_body (by decide) rfl) (n.not_mem_body (by decide) rfl)
  · rw [hmark]
    rfl
  · rw [hmark]
    rfl

theorem unsigned_body (n : Numeral) : unsigned n.body = n.digits := by
  have hsigns := n.sign_mem
  simp only [signs, List.mem_cons, List.not_mem_nil, or_false] at hsigns
  unfold Numeral.body
  rcases hsigns with hsign | hsign
  · rw [hsign, List.nil_append]
    refine unsigned_of_not_mem fun hplus => ?_
    obtain ⟨d, hd⟩ := n.readsBack.hexDigit '+' hplus
    cases hd
  · rw [hsign]
    rfl

theorem hexNumeral?_eq_some_iff {text : List Char} {value : Nat} :
    hexNumeral? (modulus 64) (unmarked text) = some value ↔
      ∃ n : Numeral, n.chars = text ∧ n.value = value := by
  rw [hexNumeral?, numeral?_eq_some_iff]
  constructor
  · rintro ⟨hne, hread, hlt⟩
    obtain ⟨mark, hmark, htext⟩ := exists_mark text
    obtain ⟨sign, hsign, hbody⟩ := exists_sign (unmarked text)
    exact ⟨⟨mark, sign, unsigned (unmarked text), value, hmark, hsign, hne, hread, hlt⟩,
      by rw [Numeral.chars, Numeral.body, ← hbody, ← htext], rfl⟩
  · rintro ⟨n, rfl, rfl⟩
    rw [unmarked_chars, unsigned_body]
    exact ⟨n.digits_ne_nil, n.readsBack, n.value_lt⟩

theorem readPart_eq_ok_iff {whole part : List Char} {value : Nat} :
    readPart whole part = .ok value ↔ ∃ n : Numeral, Pads part n.chars ∧ n.value = value := by
  have hpads : ∀ n : Numeral, Pads part n.chars ↔ n.chars = trim part :=
    fun n => (pads_iff_trim n.isTrim_chars).trans eq_comm
  simp only [hpads, ← hexNumeral?_eq_some_iff]
  unfold readPart
  split
  · next read hread => rw [hread, Except.ok.injEq, Option.some.injEq]
  · next hread =>
    rw [hread]
    exact iff_of_false (fun h => by cases h) (fun h => by cases h)

theorem readPart_of_pads (whole : List Char) {part : List Char} {n : Numeral}
    (h : Pads part n.chars) : readPart whole part = .ok n.value :=
  readPart_eq_ok_iff.2 ⟨n, h, rfl⟩

theorem readPart_eq_error {whole part : List Char} {e : AddressError}
    (h : readPart whole part = .error e) : e = .malformed (String.ofList whole) := by
  unfold readPart at h
  split at h
  · cases h
  · cases h
    rfl

/-! ## Reading an address -/

/-- The flat address of a number. -/
def Numeral.address (n : Numeral) : Address := ⟨.flat n.width, n.value, n.value_lt_size⟩

/-- The texts of an address: a number of its own, or a selector and an offset of at most sixteen
bits with a colon between them, and blanks around each number. -/
inductive Denotes : List Char → Address → Prop where
  | flat {text : List Char} (n : Numeral) (h : Pads text n.chars) : Denotes text n.address
  | segmented {before after : List Char} (selector offset : Numeral)
      (hbefore : Pads before selector.chars) (hafter : Pads after offset.chars)
      (hselector : selector.value < modulus 16) (hoffset : offset.value < modulus 16) :
      Denotes (before ++ ':' :: after)
        ⟨.segment (UInt16.ofNat selector.value), offset.value, hoffset⟩

variable {text : String} {before after : List Char} {selector offset : Numeral}

theorem readTrimmed_of_colon (width : Width) (h : ':' ∉ before) :
    readTrimmed width (before ++ ':' :: after) =
      (readPart (before ++ ':' :: after) before).bind fun selector =>
        (readPart (before ++ ':' :: after) after).bind (segmented? selector) := by
  rw [readTrimmed, splitFirst_append h]
  rfl

theorem readTrimmed_of_not_mem (width : Width) {trimmed : List Char} (h : ':' ∉ trimmed) :
    readTrimmed width trimmed = (readPart trimmed trimmed).bind (flat? width) := by
  rw [readTrimmed, splitFirst_of_not_mem h]
  rfl

/-- A number alone is a flat address, and its value always fits. -/
theorem read_of_pads {n : Numeral} (h : Pads text.toList n.chars) : read text = .ok n.address := by
  have hwidth : widthOfText n.chars = n.width := by
    rw [widthOfText, unmarked_chars]
    rfl
  rw [read, h.trim_eq n.isTrim_chars, hwidth, readTrimmed_of_not_mem _ n.colon_not_mem,
    readPart_of_pads n.chars (.refl _)]
  exact dif_pos n.value_lt_size

theorem read_of_colon (htext : text.toList = before ++ ':' :: after)
    (hbefore : Pads before selector.chars) (hafter : Pads after offset.chars) :
    read text = segmented? selector.value offset.value := by
  obtain ⟨before₁, before₂, hbefore₁, hbefore₂, rfl⟩ := hbefore
  obtain ⟨after₁, after₂, hafter₁, hafter₂, rfl⟩ := hafter
  -- Only the outer blanks are trimmed; those at the colon stay with the parts.
  let first := selector.chars ++ before₂
  let last := after₁ ++ offset.chars
  have htrim : trim text.toList = first ++ ':' :: last := by
    have hinner : IsTrim (first ++ ':' :: last) := by
      have happend := selector.isTrim_chars.append offset.isTrim_chars (before₂ ++ ':' :: after₁)
      simpa only [first, last, List.append_assoc, List.cons_append] using happend
    refine Pads.trim_eq ⟨before₁, after₂, hbefore₁, hafter₂, ?_⟩ hinner
    simp only [htext, first, last, List.append_assoc, List.cons_append]
  have hfirst : ':' ∉ first := by
    intro hmem
    rcases List.mem_append.1 hmem with hmem | hmem
    · exact selector.colon_not_mem hmem
    · exact absurd (hbefore₂ ':' hmem) (by decide)
  rw [read, htrim, readTrimmed_of_colon _ hfirst,
    readPart_of_pads _ (pads_append_right hbefore₂ selector.chars),
    readPart_of_pads _ (pads_append_left hafter₁ offset.chars)]
  rfl

/-- What is neither one number nor two around a colon is not read. -/
theorem read_cases (text : String) :
    (∃ n : Numeral, Pads text.toList n.chars) ∨
    (∃ (selector offset : Numeral) (before after : List Char),
      text.toList = before ++ ':' :: after ∧ Pads before selector.chars ∧
        Pads after offset.chars) ∨
    read text = .error (.malformed (String.ofList (trim text.toList))) := by
  have htrim := pads_trim text.toList
  by_cases hcolon : ':' ∈ trim text.toList
  · obtain ⟨before, after, hsplit, hfirst⟩ := List.eq_append_cons_of_mem hcolon
    have hread : read text = readTrimmed (widthOfText (trim text.toList)) (trim text.toList) := rfl
    rw [hsplit, readTrimmed_of_colon _ hfirst, ← hsplit] at hread
    cases hselector : readPart (trim text.toList) before with
    | error e =>
      rw [hselector, readPart_eq_error hselector] at hread
      exact .inr (.inr hread)
    | ok _ =>
      cases hoffset : readPart (trim text.toList) after with
      | error e =>
        rw [hselector, hoffset, readPart_eq_error hoffset] at hread
        exact .inr (.inr hread)
      | ok _ =>
        obtain ⟨selector, hpads, -⟩ := readPart_eq_ok_iff.1 hselector
        obtain ⟨offset, hpads', -⟩ := readPart_eq_ok_iff.1 hoffset
        obtain ⟨front, back, hfront, hback, htext⟩ := htrim
        refine .inr (.inl ⟨selector, offset, front ++ before, after ++ back, ?_,
          (pads_append_left hfront before).trans hpads,
          (pads_append_right hback after).trans hpads'⟩)
        rw [htext, hsplit]
        simp only [List.append_assoc, List.cons_append]
  · have hread : read text = _ := readTrimmed_of_not_mem _ hcolon
    cases hpart : readPart (trim text.toList) (trim text.toList) with
    | ok value =>
      obtain ⟨n, hn, -⟩ := readPart_eq_ok_iff.1 hpart
      exact .inl ⟨n, htrim.trans hn⟩
    | error e =>
      rw [hpart, readPart_eq_error hpart] at hread
      exact .inr (.inr hread)

theorem read_ne_tooWide (text : String) (value bits : Nat) :
    read text ≠ .error (.tooWide value bits) := by
  intro h
  rcases read_cases text with ⟨n, hn⟩ | ⟨selector, offset, before, after, htext, hs, ho⟩ | herror
  · cases (read_of_pads hn).symm.trans h
  · rw [read_of_colon htext hs ho, segmented?] at h
    split at h
    · cases h
    · cases h
  · cases herror.symm.trans h

theorem read_eq_ok_iff {a : Address} : read text = .ok a ↔ Denotes text.toList a := by
  constructor
  · intro h
    rcases read_cases text with ⟨n, hn⟩ | ⟨selector, offset, before, after, htext, hs, ho⟩ | herror
    · cases (read_of_pads hn).symm.trans h
      exact .flat n hn
    · rw [read_of_colon htext hs ho, segmented?] at h
      split at h
      · next hrange =>
        cases h
        rw [htext]
        exact .segmented selector offset hs ho hrange.1 hrange.2
      · cases h
    · cases herror.symm.trans h
  · generalize htext : text.toList = list
    intro h
    cases h with
    | flat n h => exact read_of_pads (htext ▸ h)
    | segmented selector offset hs ho hselector hoffset =>
      rw [read_of_colon htext hs ho, segmented?, dif_pos ⟨hselector, hoffset⟩]

/-! ## Writing an address -/

theorem length_upperHexFilled_bits (width : Width) {value : Nat}
    (h : value < modulus width.bits) :
    (upperHexFilled (width.bits / 4) value).length = width.bits / 4 := by
  have hbits : 4 * (width.bits / 4) = width.bits := by cases width <;> rfl
  have hpos : 0 < width.bits / 4 := by cases width <;> decide
  exact length_upperHexFilled hpos (hbits.symm ▸ h)

/-- A number as it is written: with all the digits of its width. -/
def Numeral.filled (width : Width) {value : Nat} (h : value < modulus width.bits) : Numeral where
  mark := []
  sign := []
  digits := upperHexFilled (width.bits / 4) value
  value := value
  mark_mem := by decide
  sign_mem := by decide
  digits_ne_nil := by
    apply List.ne_nil_of_length_pos
    rw [length_upperHexFilled_bits width h]
    cases width <;> decide
  readsBack := readsBack_upperHexFilled _ value
  value_lt := by
    have hbits : width.bits ≤ 64 := by cases width <;> decide
    exact Nat.lt_of_lt_of_le h (modulus_le hbits)

theorem width_filled (width : Width) {value : Nat} (h : value < modulus width.bits) :
    (Numeral.filled width h).width = width := by
  have hlength : (Numeral.filled width h).body.length = width.bits / 4 :=
    length_upperHexFilled_bits width h
  rw [Numeral.width, Numeral.utf8ByteSize_body, hlength]
  cases width <;> rfl

/-- What an address is written as is one of its texts. -/
theorem denotes_chars (a : Address) : Denotes a.chars a := by
  obtain ⟨space, offset, h⟩ := a
  cases space with
  | flat width =>
    have haddress : (Numeral.filled width h).address = ⟨.flat width, offset, h⟩ :=
      Address.ext (congrArg Space.flat (width_filled width h)) rfl
    have hdenotes := Denotes.flat (Numeral.filled width h) (.refl _)
    rwa [haddress] at hdenotes
  | segment selector =>
    have hselector : selector.toNat < modulus Width.w16.bits := selector.toNat_lt
    have hdenotes := Denotes.segmented (Numeral.filled .w16 hselector) (Numeral.filled .w16 h)
      (.refl _) (.refl _) hselector h
    have hback : UInt16.ofNat selector.toNat = selector := UInt16.ofNat_toNat
    change Denotes _ ⟨.segment (UInt16.ofNat selector.toNat), offset, _⟩ at hdenotes
    simp only [hback] at hdenotes
    exact hdenotes

/-- The text of an address is exact both ways: an address is read back as it was written and
restored as it was saved, and the texts that are read are those of the grammar, each as the address
that it denotes. No value is ever too wide for the width that the length of its text tells. -/
theorem text_exact :
    (∀ a : Address, read a.render = .ok a ∧ ofJson? a.toJson = some a) ∧
    ∀ text : String, (∀ value bits, read text ≠ .error (.tooWide value bits)) ∧
      ∀ a, read text = .ok a ↔ Denotes text.toList a := by
  refine ⟨fun a => ?_, fun text => ⟨read_ne_tooWide text, fun a => read_eq_ok_iff⟩⟩
  have hread : read a.render = .ok a := by
    refine read_eq_ok_iff.2 ?_
    rw [render, String.toList_ofList]
    exact denotes_chars a
  refine ⟨hread, ?_⟩
  change (read a.render).toOption = some a
  rw [hread]
  rfl

end CodeLift.Address
