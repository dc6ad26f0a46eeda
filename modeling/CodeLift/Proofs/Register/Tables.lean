-- SUMMARY: Which register tables are accepted, and what their look-ups tell about bit ranges.
import CodeLift.Proofs.Lists
import CodeLift.Proofs.Register.Masks
import CodeLift.Register.Table

/-!
# Accepted tables

The layout rules accept exactly the tables whose registers have numbers and names of their
own, fit the greatest width, and lie in the owner of their domain (`check_eq_ok_iff`).

The operations of a table go by masks and by the first register found. They say what is the
case with bit ranges exactly if masks see all starts and miss no end
(`describesRanges_iff_of_check`). Up to a greatest width of 128 bits they do, but for ranges
whose end wraps around when it is counted. A register whose range starts at bit 128 or above
does not even alias itself (`aliases_itself_iff`).
-/

namespace CodeLift.RegisterTable

variable {t : RegisterTable} {p q r x : Register} {l seen registers : List Register}
  {maxBits offset width : Nat}

/-! ## The layout rules -/

/-- Registers have numbers and names of their own. -/
def Distinct (a b : Register) : Prop := a.number ≠ b.number ∧ a.name ≠ b.name

/-- The register has bits, and by the count of its end they lie in the greatest width. -/
def Fits (maxBits : Nat) (r : Register) : Prop := 0 < r.bits ∧ r.countedEnd ≤ maxBits

/-- The first register of a list passes, and then the others behind it. -/
theorem checkEach_cons :
    checkEach maxBits seen (r :: l) = .ok () ↔
      (∀ s ∈ seen, Distinct s r) ∧ Fits maxBits r ∧ checkEach maxBits (r :: seen) l = .ok () := by
  have hdistinct : (∀ s ∈ seen, Distinct s r) ↔
      ¬ seen.any (·.number == r.number) = true ∧ ¬ seen.any (·.name == r.name) = true := by
    simp only [Distinct, List.any_eq_true, beq_iff_eq, not_exists, not_and]
    exact ⟨fun h => ⟨fun s hs => (h s hs).1, fun s hs => (h s hs).2⟩,
      fun h s hs => ⟨h.1 s hs, h.2 s hs⟩⟩
  have hfits : Fits maxBits r ↔ ¬ (r.bits = 0 ∨ maxBits < r.countedEnd) := by
    unfold Fits
    omega
  rw [checkEach, hdistinct, hfits]
  split
  · next hnumber => exact iff_of_false nofun fun h => h.1.1 hnumber
  · next hnumber =>
    split
    · next hname => exact iff_of_false nofun fun h => h.1.2 hname
    · next hname =>
      split
      · next hwide => exact iff_of_false nofun fun h => h.2.1 hwide
      · next hwide => exact ⟨fun h => ⟨⟨hnumber, hname⟩, hwide, h⟩, fun h => h.2.2⟩

theorem checkEach_eq_ok_iff :
    checkEach maxBits seen l = .ok () ↔
      (∀ r ∈ l, Fits maxBits r) ∧ l.Pairwise Distinct ∧
        ∀ s ∈ seen, ∀ r ∈ l, Distinct s r := by
  induction l generalizing seen with
  | nil => simp [checkEach]
  | cons x rest ih =>
    rw [checkEach_cons, ih, List.pairwise_cons]
    simp only [List.forall_mem_cons]
    constructor
    · rintro ⟨hseen, hx, hfits, hrest, hfirst, hothers⟩
      exact ⟨⟨hx, hfits⟩, ⟨hfirst, hrest⟩, fun s hs => ⟨hseen s hs, hothers s hs⟩⟩
    · rintro ⟨⟨hx, hfits⟩, ⟨hfirst, hrest⟩, hothers⟩
      exact ⟨fun s hs => (hothers s hs).1, hx, hfits, hrest, hfirst, fun s hs => (hothers s hs).2⟩

/-- The owner of the domain is there, is not carved out of another register, and covers the
register. -/
def Owned (registers : List Register) (r : Register) : Prop :=
  ∃ owner, registers.find? (·.number == r.domain) = some owner ∧ owner.isPart = false ∧
    owner.covers r = true

theorem checkOwner_eq_ok_iff : checkOwner registers r = .ok () ↔ Owned registers r := by
  unfold checkOwner Owned
  split
  · next hnone => exact iff_of_false nofun fun ⟨owner, hsome, _⟩ => by cases hnone.symm.trans hsome
  · next owner hsome =>
    rw [hsome]
    cases hpart : owner.isPart <;> cases hcovers : owner.covers r <;> simp [hpart, hcovers]

/-- The table is laid out well: numbers and names are unique, every register fits, and what is
carved out of another register lies in the owner of its domain. -/
structure WellLaid (t : RegisterTable) : Prop where
  distinct : t.registers.Pairwise Distinct
  fits : ∀ r ∈ t.registers, Fits t.maxBits r
  owned : ∀ r ∈ t.registers, r.isPart = true → Owned t.registers r

/-- The layout rules accept what is laid out well, and nothing else. -/
theorem check_eq_ok_iff : t.check = .ok () ↔ t.WellLaid := by
  change (checkEach t.maxBits [] t.registers >>= fun _ =>
    (t.registers.filter Register.isPart).forM (checkOwner t.registers)) = .ok () ↔ _
  rw [andThen_eq_ok_iff, checkEach_eq_ok_iff, forM_eq_ok_iff]
  simp only [List.mem_filter, and_imp, checkOwner_eq_ok_iff]
  constructor
  · rintro ⟨⟨hfits, hdistinct, -⟩, howned⟩
    exact ⟨hdistinct, hfits, howned⟩
  · intro h
    exact ⟨⟨h.fits, h.distinct, nofun⟩, h.owned⟩

instance (t : RegisterTable) : Decidable (t.check = .ok ()) :=
  match t.check with
  | .ok () => isTrue rfl
  | .error _ => isFalse nofun

/-! ## Look-up -/

theorem WellLaid.byNumber?_eq_some_iff (h : t.WellLaid) {number : Nat} :
    t.byNumber? number = some r ↔ r ∈ t.registers ∧ r.number = number :=
  find?_eq_some_iff_of_pairwise (h.distinct.imp And.left)

theorem WellLaid.byName?_eq_some_iff (h : t.WellLaid) {name : String} :
    t.byName? name = some r ↔ r ∈ t.registers ∧ r.name = name :=
  find?_eq_some_iff_of_pairwise (h.distinct.imp And.right)

/-- A register that is not carved out of another one is the owner of its domain. -/
theorem WellLaid.exists_owner (h : t.WellLaid) (hr : r ∈ t.registers) :
    ∃ owner, t.owner? r = some owner ∧ owner.isPart = false ∧
      (r.isPart = true → owner.covers r = true) := by
  cases hpart : r.isPart with
  | true =>
    obtain ⟨owner, hfound, howner, hcovers⟩ := h.owned r hr hpart
    exact ⟨owner, hfound, howner, fun _ => hcovers⟩
  | false =>
    have hdomain : r.domain = r.number := by simpa [Register.isPart] using hpart
    exact ⟨r, h.byNumber?_eq_some_iff.2 ⟨hr, hdomain.symm⟩, hpart, nofun⟩

/-! ## Parts of a register -/

/-- The register is in the table and has exactly the `width` bits from bit `offset` of `p` on, and
they are bits of `p`. -/
structure Models (t : RegisterTable) (p : Register) (offset width : Nat) (r : Register) : Prop where
  mem : r ∈ t.registers
  offset_eq : r.offset = p.offset + offset
  bits_eq : r.bits = width
  within : r.Within p

/-- The first register of the table with this range of bits. -/
def firstAt? (t : RegisterTable) (domain first width : Nat) : Option Register :=
  t.registers.find? fun x => x.domain == domain && x.offset == first && x.bits == width

theorem range_of_firstAt? {domain first : Nat} (h : t.firstAt? domain first width = some r) :
    r ∈ t.registers ∧ r.domain = domain ∧ r.offset = first ∧ r.bits = width := by
  have hrange := List.find?_some h
  simp only [Bool.and_eq_true, beq_iff_eq, and_assoc] at hrange
  exact ⟨List.mem_of_find?_eq_some h, hrange⟩

theorem exists_firstAt? (hr : r ∈ t.registers) :
    ∃ x, t.firstAt? r.domain r.offset r.bits = some x := by
  rw [← Option.isSome_iff_exists, firstAt?, List.find?_isSome]
  exact ⟨r, hr, by simp⟩

theorem part?_full (t : RegisterTable) (p : Register) : t.part? p 0 p.bits = some p :=
  if_pos ⟨rfl, rfl⟩

/-- Masks see where the ranges of the table start. They do not see the end of a range that goes on
behind them, but no range that starts in such a one goes on further. -/
structure SeenByMasks (t : RegisterTable) : Prop where
  starts : ∀ r ∈ t.registers, r.offset < 128
  ends : ∀ a ∈ t.registers, ∀ b ∈ t.registers, a.domain = b.domain → a.offset ≤ b.offset →
    128 ≤ a.offset + a.bits → b.offset + b.bits ≤ a.offset + a.bits

section

variable (h : t.WellLaid) (hseen : t.SeenByMasks)
include h hseen

theorem WellLaid.covers_iff_within (hp : p ∈ t.registers) (hr : r ∈ t.registers) :
    p.covers r = true ↔ r.Within p :=
  Register.covers_iff_within (h.fits r hr).1 (hseen.starts r hr) (hseen.ends p hp r hr)

/-- A range that is not that of the whole register leads to the first register of the table that
has it, if that lies in the register. -/
theorem WellLaid.part?_eq_some_iff (hp : p ∈ t.registers)
    (hfull : ¬ (offset = 0 ∧ width = p.bits)) :
    t.part? p offset width = some r ↔
      t.firstAt? p.domain (p.offset + offset) width = some r ∧ r.Within p := by
  rw [part?, if_neg hfull]
  change (if modulus 16 ≤ p.offset + offset then none
    else (t.firstAt? p.domain (p.offset + offset) width).filter p.covers) = some r ↔ _
  split
  · next hfar =>
    -- So far up there are no registers.
    refine iff_of_false nofun fun ⟨hfirst, _⟩ => ?_
    obtain ⟨hr, -, hoffset, -⟩ := range_of_firstAt? hfirst
    have hstart := hseen.starts r hr
    have hmodulus : modulus 16 = 65536 := rfl
    omega
  · rw [Option.filter_eq_some_iff]
    exact and_congr_right fun hfirst =>
      h.covers_iff_within hseen hp (range_of_firstAt? hfirst).1

theorem WellLaid.models_of_part? (hp : p ∈ t.registers) (hfull : ¬ (offset = 0 ∧ width = p.bits))
    (hpart : t.part? p offset width = some r) : t.Models p offset width r := by
  obtain ⟨hfirst, hwithin⟩ := (h.part?_eq_some_iff hseen hp hfull).1 hpart
  obtain ⟨hr, -, hoffset, hbits⟩ := range_of_firstAt? hfirst
  exact ⟨hr, hoffset, hbits, hwithin⟩

theorem WellLaid.exists_part?_of_models (hp : p ∈ t.registers) (hr : t.Models p offset width r) :
    ∃ x, t.part? p offset width = some x := by
  by_cases hfull : offset = 0 ∧ width = p.bits
  · obtain ⟨rfl, rfl⟩ := hfull
    exact ⟨p, part?_full t p⟩
  · obtain ⟨x, hx⟩ := exists_firstAt? hr.mem
    rw [← hr.within.1, hr.offset_eq, hr.bits_eq] at hx
    obtain ⟨-, hdomain, hoffset, hbits⟩ := range_of_firstAt? hx
    -- It need not be `r` itself, but has the same range.
    have hwithin : x.Within p := by
      refine ⟨hdomain.symm, fun i hi => hr.within.2 i ?_⟩
      unfold Register.Occupies at hi ⊢
      rwa [hr.offset_eq, hr.bits_eq, ← hoffset, ← hbits]
    exact ⟨x, (h.part?_eq_some_iff hseen hp hfull).2 ⟨hx, hwithin⟩⟩

theorem WellLaid.part?_eq_none_iff (hp : p ∈ t.registers) :
    t.part? p offset width = none ↔ ∀ r, ¬ t.Models p offset width r := by
  constructor
  · intro hnone r hr
    obtain ⟨x, hsome⟩ := h.exists_part?_of_models hseen hp hr
    cases hnone.symm.trans hsome
  · intro hnot
    cases hpart : t.part? p offset width with
    | none => rfl
    | some r =>
      by_cases hfull : offset = 0 ∧ width = p.bits
      · obtain ⟨rfl, rfl⟩ := hfull
        exact absurd ⟨hp, rfl, rfl, rfl, fun _ => id⟩ (hnot p)
      · exact absurd (h.models_of_part? hseen hp hfull hpart) (hnot r)

/-- A part of a part is a part of the whole register. -/
theorem WellLaid.part?_part? {offset' width' : Nat} (hp : p ∈ t.registers)
    (hq : t.part? p offset width = some q) (hr : t.part? q offset' width' = some r) :
    t.part? p (offset + offset') width' = some r := by
  by_cases hfull : offset = 0 ∧ width = p.bits
  · obtain ⟨rfl, rfl⟩ := hfull
    cases (part?_full t p).symm.trans hq
    rwa [Nat.zero_add]
  have hmodels := h.models_of_part? hseen hp hfull hq
  have hoffset := hmodels.offset_eq
  have hbits := hmodels.bits_eq
  by_cases hfull' : offset' = 0 ∧ width' = q.bits
  · obtain ⟨rfl, rfl⟩ := hfull'
    cases (part?_full t q).symm.trans hr
    rwa [Nat.add_zero, hbits]
  obtain ⟨hfirst, hwithin⟩ := (h.part?_eq_some_iff hseen hmodels.mem hfull').1 hr
  obtain ⟨hmem, -, hoffset', hbits'⟩ := range_of_firstAt? hfirst
  have hpart : ¬ (offset + offset' = 0 ∧ width' = p.bits) := by
    -- Else the last bit of `r` would be one of `p`, but behind those of `q`.
    rintro ⟨hzero, hwidth⟩
    have hpos := (h.fits r hmem).1
    have hlast : q.Occupies (r.offset + r.bits - 1) :=
      hwithin.2 _ ⟨by omega, by omega⟩
    have hlast' : p.Occupies (q.offset + q.bits - 1) := by
      unfold Register.Occupies at hlast
      exact hmodels.within.2 _ ⟨by omega, by omega⟩
    unfold Register.Occupies at hlast hlast'
    omega
  refine (h.part?_eq_some_iff hseen hp hpart).2 ⟨?_, hmodels.within.1.trans hwithin.1, ?_⟩
  · rw [← hfirst, hmodels.within.1, hoffset, Nat.add_assoc]
  · exact fun i hi => hmodels.within.2 i (hwithin.2 i hi)

end

theorem mem_withoutAliases {set : List Register} :
    x ∈ withoutAliases set r ↔ x ∈ set ∧ x.overlaps r = false := by
  simp [withoutAliases]

/-! ## What a table tells about bit ranges -/

/-- The operations of the table say what is the case with its registers and their ranges. -/
structure DescribesRanges (t : RegisterTable) : Prop where
  byNumber? : ∀ number r, t.byNumber? number = some r ↔ r ∈ t.registers ∧ r.number = number
  byName? : ∀ name r, t.byName? name = some r ↔ r ∈ t.registers ∧ r.name = name
  overlaps : ∀ a ∈ t.registers, ∀ b ∈ t.registers, a.overlaps b = true ↔ a.Meets b
  covers : ∀ a ∈ t.registers, ∀ b ∈ t.registers, a.covers b = true ↔ b.Within a
  owner? : ∀ r ∈ t.registers, ∃ owner, t.owner? r = some owner ∧ owner.isPart = false ∧
    (r.isPart = true → owner.covers r = true)
  part?_full : ∀ p ∈ t.registers, t.part? p 0 p.bits = some p
  part?_some : ∀ p ∈ t.registers, ∀ offset width r, ¬ (offset = 0 ∧ width = p.bits) →
    t.part? p offset width = some r → t.Models p offset width r
  part?_none : ∀ p ∈ t.registers, ∀ offset width,
    t.part? p offset width = none ↔ ∀ r, ¬ t.Models p offset width r
  part?_part? : ∀ p ∈ t.registers, ∀ offset width q offset' width' r,
    t.part? p offset width = some q → t.part? q offset' width' = some r →
      t.part? p (offset + offset') width' = some r
  withoutAliases : ∀ set : List Register, (∀ x ∈ set, x ∈ t.registers) → ∀ r ∈ t.registers,
    ∀ x, x ∈ withoutAliases set r ↔ x ∈ set ∧ ¬ x.Meets r

theorem WellLaid.describesRanges (h : t.WellLaid) (hseen : t.SeenByMasks) : t.DescribesRanges := by
  have hoverlaps : ∀ a ∈ t.registers, ∀ b ∈ t.registers, a.overlaps b = true ↔ a.Meets b :=
    fun a ha b hb => Register.overlaps_iff_meets (hseen.starts a ha) (hseen.starts b hb)
  exact
    { byNumber? := fun number r => h.byNumber?_eq_some_iff
      byName? := fun name r => h.byName?_eq_some_iff
      overlaps := hoverlaps
      covers := fun a ha b hb => h.covers_iff_within hseen ha hb
      owner? := fun r hr => h.exists_owner hr
      part?_full := fun p _ => part?_full t p
      part?_some := fun p hp offset width r => h.models_of_part? hseen hp
      part?_none := fun p hp offset width => h.part?_eq_none_iff hseen hp
      part?_part? := fun p hp offset width q offset' width' r => h.part?_part? hseen hp
      withoutAliases := fun set hset r hr x => by
        rw [mem_withoutAliases, ← Bool.not_eq_true]
        exact and_congr_right fun hx => not_congr (hoverlaps x (hset x hx) r hr) }

/-- What masks do not see, the operations that go by them tell wrongly. -/
theorem WellLaid.seenByMasks (h : t.WellLaid) (htells : t.DescribesRanges) : t.SeenByMasks where
  starts r hr := by
    have hpos := (h.fits r hr).1
    have hfirst : r.Occupies r.offset := ⟨Nat.le_refl _, Nat.lt_add_of_pos_right hpos⟩
    rw [← Register.overlaps_self_iff hpos, htells.overlaps r hr r hr]
    exact ⟨rfl, r.offset, hfirst, hfirst⟩
  ends a ha b hb hdomain hoffset hlong := by
    have hpos := (h.fits b hb).1
    have hwithin := (htells.covers a ha b hb).1 (Register.covers_of_le hdomain hoffset hlong)
    have hlast : a.Occupies (b.offset + b.bits - 1) := hwithin.2 _ ⟨by omega, by omega⟩
    unfold Register.Occupies at hlast
    omega

/-- If no end wraps around when it is counted, masks of 128 bits see all ranges of an accepted table
up to that width. -/
theorem WellLaid.seenByMasks_of_lt (h : t.WellLaid) (hlimit : t.maxBits ≤ 128)
    (hcount : ∀ r ∈ t.registers, r.offset + r.bits < modulus 16) : t.SeenByMasks := by
  have hend : ∀ r ∈ t.registers, 0 < r.bits ∧ r.offset + r.bits ≤ 128 := by
    intro r hr
    obtain ⟨hpos, hfits⟩ := h.fits r hr
    rw [Register.countedEnd, Nat.mod_eq_of_lt (hcount r hr)] at hfits
    exact ⟨hpos, Nat.le_trans hfits hlimit⟩
  refine ⟨fun r hr => ?_, fun a _ b hb _ _ hlong => Nat.le_trans (hend b hb).2 hlong⟩
  have hr := hend r hr
  omega

/-- In an accepted table a register is among its own aliases, in all that goes by them, if and only
if its range starts below bit 128. It does as long as no register is wider than that, but for an end
that wraps around when it is counted. -/
theorem aliases_itself_iff (hcheck : t.check = .ok ()) (hr : r ∈ t.registers) :
    (r.overlaps r = true ↔ r.offset < 128) ∧
    (r ∈ t.aliases r ↔ r.offset < 128) ∧
    (widestInUse? r [r] = some r ↔ r.offset < 128) ∧
    ((∀ set, r ∉ withoutAliases set r) ↔ r.offset < 128) ∧
    (t.maxBits ≤ 128 → r.offset + r.bits < modulus 16 → r.offset < 128) := by
  obtain ⟨hpos, hfits⟩ := (check_eq_ok_iff.1 hcheck).fits r hr
  have hself : r.overlaps r = true ↔ r.offset < 128 := Register.overlaps_self_iff hpos
  rw [← hself]
  refine ⟨Iff.rfl, ?_, ?_, ?_, fun hlimit hcount => hself.2 ?_⟩
  · simp [aliases, hr]
  · simp [widestInUse?]
  · simp only [mem_withoutAliases, not_and, Bool.not_eq_false]
    exact ⟨fun h => h [r] List.mem_cons_self, fun h _ _ => h⟩
  · rw [Register.countedEnd, Nat.mod_eq_of_lt hcount] at hfits
    omega

/-- With a limit above 128 bits there is an accepted table with a register that does not alias
itself. -/
theorem exists_check_not_overlaps_self (h : 128 < maxBits) :
    ∃ r, (⟨maxBits, [r]⟩ : RegisterTable).check = .ok () ∧ r.overlaps r = false := by
  let r : Register := ⟨"v", 0, 0, 128, 1, .vector⟩
  refine ⟨r, check_eq_ok_iff.2 ⟨List.pairwise_singleton _ _, ?_, ?_⟩, by decide +kernel⟩
  · intro x hx
    obtain rfl := List.mem_singleton.1 hx
    exact ⟨Nat.one_pos, h⟩
  · intro x hx
    obtain rfl := List.mem_singleton.1 hx
    exact nofun

/-- Of a register of 256 bits, a part that begins at the last bit of the masks. -/
theorem aliases_itself_iff_last_bit :
    let v := Register.root "v" 0 .vector 256
    let r := v.carve "middle" 1 127 2
    let t : RegisterTable := ⟨256, [v, r]⟩
    t.check = .ok () ∧ r ∈ t.registers ∧ r ∈ t.aliases r ∧ r ∉ withoutAliases [v, r] r := by
  intro v r t
  have hcheck : t.check = .ok () := by decide +kernel
  have hr : r ∈ t.registers := List.mem_cons_of_mem _ List.mem_cons_self
  obtain ⟨-, haliases, -, hremoved, -⟩ := aliases_itself_iff hcheck hr
  have hlow : r.offset < 128 := by decide
  exact ⟨hcheck, hr, haliases.2 hlow, hremoved.2 hlow [v, r]⟩

/-- The upper half of a register of 256 bits is accepted, but shares no bit with itself. -/
theorem not_aliases_itself_upper_half :
    let v := Register.root "v" 0 .vector 256
    let r := v.carve "high" 1 128 128
    let t : RegisterTable := ⟨256, [v, r]⟩
    t.check = .ok () ∧ r ∈ t.registers ∧ r.overlaps r = false ∧ t.aliases r = [] ∧
      widestInUse? r [r] = none ∧ withoutAliases [r] r = [r] := by
  decide +kernel

end CodeLift.RegisterTable
