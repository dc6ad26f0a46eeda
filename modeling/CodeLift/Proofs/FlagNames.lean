-- SUMMARY: Names of flag groups are read back, and reading a name is the union of its letters.
import CodeLift.Flag
import CodeLift.Proofs.Lists
import CodeLift.Proofs.Register.Masks
import Mathlib

/-!
# Flag names

A flag table names a group by the letters of its flags, in table order. A text is read as the
union of what its letters denote: a flag with this letter, or else the first alias with it. In a
table whose flags are single bits, with letters that differ in more than case, each name is read
back as its group, also where its letters stand in another order or case, are repeated, or stand
between characters that are no letters of the table (`names_and_masks`).
-/

namespace CodeLift

/-- The characters are the same letter, up to case. -/
def SameLetter (c d : Char) : Prop := c.toUpper = d.toUpper

instance (c d : Char) : Decidable (SameLetter c d) := inferInstanceAs (Decidable (_ = _))

namespace FlagTable

variable {t : FlagTable} {f : Flag} {c : Char} {m n mask i : Nat} {g : FlagGroup}

/-! ## Tables -/

/-- The table with these flags and, one after the other, these aliases. -/
def made (register : Register) (flags aliases : List Flag) : FlagTable :=
  aliases.foldl (fun t a => t.withAlias a.letter a.mask) (.ofFlags register flags)

/-- The flag with its letter as tables keep it. -/
def kept (f : Flag) : Flag := ⟨f.mask, f.letter.toUpper⟩

theorem foldl_withAlias (t : FlagTable) (aliases : List Flag) :
    aliases.foldl (fun t a => t.withAlias a.letter a.mask) t =
      { t with aliases := t.aliases ++ aliases.map kept } := by
  induction aliases generalizing t with
  | nil => simp
  | cons a rest ih =>
    rw [List.foldl_cons, ih, List.map_cons, withAlias, List.append_assoc]
    rfl

theorem made_eq (register : Register) (flags aliases : List Flag) :
    made register flags aliases = ⟨register, flags.map kept, aliases.map kept⟩ := by
  rw [made, foldl_withAlias, ofFlags, List.nil_append]
  rfl

/-- Each flag is a single bit, and letters differ in more than case. -/
structure Distinct (flags : List Flag) : Prop where
  single : ∀ f ∈ flags, ∃ i, f.mask = 1 <<< i
  letters : flags.Pairwise fun f g => ¬ SameLetter f.letter g.letter

/-- The flags have their letters to themselves, and all letters are in upper case. -/
structure Lettered (t : FlagTable) : Prop where
  distinct : Distinct t.flags
  upper : ∀ f ∈ t.flags ++ t.aliases, f.letter.toUpper = f.letter

theorem lettered_made {flags : List Flag} (register : Register) (aliases : List Flag)
    (h : Distinct flags) : (made register flags aliases).Lettered := by
  rw [made_eq]
  constructor
  case distinct =>
    refine ⟨List.forall_mem_map.2 h.single, List.pairwise_map.2 ?_⟩
    refine h.letters.imp fun hne heq => hne ?_
    simpa only [SameLetter, kept, Char.toUpper_toUpper_eq_toUpper] using heq
  case upper =>
    rw [← List.map_append]
    exact List.forall_mem_map.2 fun f _ => Char.toUpper_toUpper_eq_toUpper f.letter

/-! ## Letters -/

/-- What a letter denotes: the flag with this letter, or else the first alias with it. -/
inductive Denotes (t : FlagTable) (c : Char) : Nat → Prop
  | flag {f : Flag} (hf : f ∈ t.flags) (hletter : SameLetter f.letter c) : Denotes t c f.mask
  | other {before : List Flag} {a : Flag} {after : List Flag}
      (haliases : t.aliases = before ++ a :: after) (hletter : SameLetter a.letter c)
      (hfirst : ∀ b ∈ before, ¬ SameLetter b.letter c)
      (hflags : ∀ f ∈ t.flags, ¬ SameLetter f.letter c) : Denotes t c a.mask

theorem Lettered.sameLetter_iff (h : t.Lettered) (hf : f ∈ t.flags ++ t.aliases) :
    SameLetter f.letter c ↔ f.letter = c.toUpper := by
  rw [SameLetter, h.upper f hf]

theorem Lettered.maskOfLetter?_eq_some_iff (h : t.Lettered) :
    t.maskOfLetter? c = some mask ↔ t.Denotes c mask := by
  have hflag : ∀ f ∈ t.flags, (SameLetter f.letter c ↔ f.letter = c.toUpper) := fun f hf =>
    h.sameLetter_iff (List.mem_append_left _ hf)
  have hother : ∀ a ∈ t.aliases, (SameLetter a.letter c ↔ a.letter = c.toUpper) := fun a ha =>
    h.sameLetter_iff (List.mem_append_right _ ha)
  have hunique : t.flags.Pairwise fun f g => f.letter ≠ g.letter :=
    h.distinct.letters.imp fun hne heq => hne (congrArg Char.toUpper heq)
  simp only [maskOfLetter?, Option.map_eq_some_iff, List.find?_append, Option.or_eq_some_iff,
    find?_eq_some_iff_of_pairwise hunique, List.find?_eq_none,
    List.find?_eq_some_iff_append, beq_iff_eq, Bool.not_eq_true', beq_eq_false_iff_ne]
  constructor
  · rintro ⟨f, ⟨hf, hc⟩ | ⟨hflags, hc, before, after, haliases, hfirst⟩, rfl⟩
    · exact .flag hf ((hflag f hf).2 hc)
    · refine .other haliases ((hother f (by simp [haliases])).2 hc) (fun b hb hsame => ?_)
        fun f hf hsame => hflags f hf ((hflag f hf).1 hsame)
      exact hfirst b hb ((hother b (by simp [haliases, hb])).1 hsame)
  · intro hdenotes
    cases hdenotes with
    | @flag f hf hc => exact ⟨f, .inl ⟨hf, (hflag f hf).1 hc⟩, rfl⟩
    | @other before a after haliases hc hfirst hflags =>
      refine ⟨a, .inr ⟨fun f hf heq => hflags f hf ((hflag f hf).2 heq),
        (hother a (by simp [haliases])).1 hc, before, after, haliases, fun b hb heq => ?_⟩, rfl⟩
      exact hfirst b hb ((hother b (by simp [haliases, hb])).2 heq)

/-- The letter of a flag denotes this flag only. -/
theorem Lettered.maskOfLetter?_flag (h : t.Lettered) (hf : f ∈ t.flags)
    (hc : SameLetter f.letter c) : t.maskOfLetter? c = some f.mask :=
  h.maskOfLetter?_eq_some_iff.2 (.flag hf hc)

/-- A character that is no letter of the table denotes nothing. -/
theorem Lettered.maskOfLetter?_none (h : t.Lettered)
    (hc : ∀ f ∈ t.flags ++ t.aliases, ¬ SameLetter f.letter c) : t.maskOfLetter? c = none := by
  refine Option.eq_none_iff_forall_ne_some.2 fun mask hmask => ?_
  cases h.maskOfLetter?_eq_some_iff.1 hmask with
  | flag hf hletter => exact hc _ (List.mem_append_left _ hf) hletter
  | other haliases hletter => exact hc _ (List.mem_append_right _ (by simp [haliases])) hletter

/-! ## Bits -/

theorem testBit_foldl_or (masks : List Nat) (start i : Nat) :
    (masks.foldl (· ||| ·) start).testBit i = true ↔
      start.testBit i = true ∨ ∃ m ∈ masks, m.testBit i = true := by
  induction masks generalizing start with
  | nil => simp
  | cons m rest ih => rw [List.foldl_cons, ih, Nat.testBit_or, Bool.or_eq_true, or_assoc,
      List.exists_mem_cons_iff]

theorem testBit_union (masks : List Nat) (i : Nat) :
    (union masks).testBit i = true ↔ ∃ m ∈ masks, m.testBit i = true := by
  rw [union, testBit_foldl_or, Nat.zero_testBit]
  exact or_iff_right Bool.false_ne_true

/-- The bit is one of the table's. -/
def Has (t : FlagTable) (i : Nat) : Prop := ∃ f ∈ t.flags, f.mask.testBit i = true

theorem testBit_all : t.all.testBit i = true ↔ t.Has i := by
  simp only [all, testBit_union, List.mem_map, exists_exists_and_eq_and]
  rfl

theorem testBit_maskOf {text : String} :
    (t.maskOf text).testBit i = true ↔
      ∃ c ∈ text.toList, ∃ mask, t.maskOfLetter? c = some mask ∧ mask.testBit i = true := by
  rw [maskOf, testBit_union]
  simp only [List.mem_filterMap]
  constructor
  · rintro ⟨mask, ⟨c, hc, hmask⟩, hbit⟩
    exact ⟨c, hc, mask, hmask, hbit⟩
  · rintro ⟨c, hc, mask, hmask, hbit⟩
    exact ⟨mask, ⟨c, hc, hmask⟩, hbit⟩

/-- A mask meets a single bit only where it has this bit. -/
theorem Distinct.testBit_iff {flags : List Flag} (h : Distinct flags) (hf : f ∈ flags)
    (hi : f.mask.testBit i = true) : m &&& f.mask ≠ 0 ↔ m.testBit i = true := by
  obtain ⟨j, hj⟩ := h.single f hf
  rw [and_ne_zero_iff]
  constructor
  · rintro ⟨k, hm, hk⟩
    rwa [(testBit_single_iff hj).1 hi, ← (testBit_single_iff hj).1 hk]
  · intro hm
    exact ⟨i, hm, hi⟩

/-! ## Groups -/

theorem group?_eq_none_iff : t.group? m = none ↔ ∀ i, t.Has i → m.testBit i = false := by
  have hzero : m &&& t.all = 0 ↔ ∀ i, t.Has i → m.testBit i = false := by
    rw [← not_iff_not, ← ne_eq, and_ne_zero_iff]
    simp only [testBit_all, not_forall, Bool.not_eq_false, exists_prop, and_comm]
  rw [← hzero, group?]
  split
  · next hempty => exact iff_of_true rfl hempty
  · next hmeets => exact iff_of_false nofun hmeets

theorem group?_eq_some_iff :
    t.group? m = some g ↔
      m &&& t.all ≠ 0 ∧ g = ⟨t.register, m &&& t.all, t.nameOf (m &&& t.all)⟩ := by
  rw [group?, Option.ite_none_left_eq_some, Option.some_inj, eq_comm (a := g)]

/-- Masks are of one group if they agree on the table's bits. -/
theorem group?_eq_iff :
    t.group? m = t.group? n ↔ ∀ i, t.Has i → m.testBit i = n.testBit i := by
  have hand : m &&& t.all = n &&& t.all ↔ ∀ i, t.Has i → m.testBit i = n.testBit i := by
    simp only [← testBit_all]
    constructor
    · intro heq i hi
      have hbit := congrArg (Nat.testBit · i) heq
      simpa only [Nat.testBit_and, hi, Bool.and_true] using hbit
    · intro hagree
      refine Nat.eq_of_testBit_eq fun i => ?_
      rw [Nat.testBit_and, Nat.testBit_and]
      cases hi : t.all.testBit i with
      | true => rw [hagree i hi]
      | false => rw [Bool.and_false, Bool.and_false]
  rw [← hand]
  constructor
  · intro heq
    by_cases hempty : n &&& t.all = 0
    · rw [group?, group?, if_pos hempty] at heq
      rw [hempty]
      by_contra hne
      rw [if_neg hne] at heq
      cases heq
    · have hgroup := group?_eq_some_iff.1 (heq.trans (if_neg hempty))
      exact (congrArg FlagGroup.mask hgroup.2).symm
  · intro heq
    rw [group?, group?, heq]

/-- The text has every letter of the name, in whatever order, case and number, and no other
letter of the table. -/
structure Spells (t : FlagTable) (name text : String) : Prop where
  letter : ∀ c ∈ name.toList, ∃ d ∈ text.toList, SameLetter c d
  other : ∀ d ∈ text.toList, (∃ c ∈ name.toList, SameLetter c d) ∨
    ∀ f ∈ t.flags ++ t.aliases, ¬ SameLetter f.letter d

/-- The group has the table's bits of the mask. Its name lists their letters in table order, and
whatever spells the name is read as the group. -/
structure Names (t : FlagTable) (m : Nat) (g : FlagGroup) : Prop where
  register : g.register = t.register
  mask : ∀ i, g.mask.testBit i = true ↔ t.Has i ∧ m.testBit i = true
  name : ∃ flags : List Flag, flags.Sublist t.flags ∧
    (∀ f ∈ t.flags, f ∈ flags ↔ m &&& f.mask ≠ 0) ∧
    g.name = String.ofList (flags.map Flag.letter)
  spelled : ∀ text, t.Spells g.name text → t.groupNamed? text = some g

/-- A flag is of the table's part of a mask if it is of the mask. -/
theorem and_all_and_ne_zero_iff (hf : f ∈ t.flags) :
    m &&& t.all &&& f.mask ≠ 0 ↔ m &&& f.mask ≠ 0 := by
  simp only [and_ne_zero_iff, Nat.testBit_and, Bool.and_eq_true, testBit_all]
  exact ⟨fun ⟨i, hi, hbit⟩ => ⟨i, hi.1, hbit⟩, fun ⟨i, hi, hbit⟩ => ⟨i, ⟨hi, f, hf, hbit⟩, hbit⟩⟩

theorem mem_nameOf :
    c ∈ (t.nameOf (m &&& t.all)).toList ↔ ∃ f ∈ t.flags, m &&& f.mask ≠ 0 ∧ f.letter = c := by
  simp only [nameOf, letters, String.toList_ofList, List.mem_map, List.mem_filter, bne_iff_ne,
    and_assoc]
  exact exists_congr fun f => and_congr_right fun hf => and_congr_left fun _ =>
    and_all_and_ne_zero_iff hf

/-- What spells the name of a mask is read as the mask, as far as the table goes. -/
theorem Lettered.testBit_maskOf_of_spells (h : t.Lettered) {text : String} (hi : t.Has i)
    (hspells : t.Spells (t.nameOf (m &&& t.all)) text) :
    (t.maskOf text).testBit i = m.testBit i := by
  rw [Bool.eq_iff_iff, testBit_maskOf]
  constructor
  · rintro ⟨d, hd, mask, hmask, hbit⟩
    rcases hspells.other d hd with ⟨c, hc, hsame⟩ | hother
    · obtain ⟨f, hf, hmeets, rfl⟩ := mem_nameOf.1 hc
      cases (h.maskOfLetter?_flag hf hsame).symm.trans hmask
      exact (h.distinct.testBit_iff hf hbit).1 hmeets
    · cases (h.maskOfLetter?_none hother).symm.trans hmask
  · intro hbit
    obtain ⟨f, hf, hfbit⟩ := hi
    have hmeets := (h.distinct.testBit_iff hf hfbit).2 hbit
    obtain ⟨d, hd, hsame⟩ := hspells.letter f.letter (mem_nameOf.2 ⟨f, hf, hmeets, rfl⟩)
    exact ⟨d, hd, f.mask, h.maskOfLetter?_flag hf hsame, hfbit⟩

theorem Lettered.names (h : t.Lettered) (hg : t.group? m = some g) : t.Names m g := by
  obtain ⟨-, rfl⟩ := group?_eq_some_iff.1 hg
  refine ⟨rfl, fun i => ?_, ⟨_, List.filter_sublist, fun f hf => ?_, rfl⟩, fun text hspells => ?_⟩
  · rw [Nat.testBit_and, Bool.and_eq_true, testBit_all, and_comm]
  · rw [List.mem_filter, bne_iff_ne, and_all_and_ne_zero_iff hf]
    exact and_iff_right hf
  · exact (group?_eq_iff.2 fun i hi => h.testBit_maskOf_of_spells hi hspells).trans hg

/-- Names and masks of groups round-trip, whatever the aliases. A mask has a group unless it has
no bit of the table, and the group has its bits and its name (`Names`). A text is read as the
group of the bits that its letters denote. Masks are of one group if they agree on the table. -/
theorem names_and_masks (register : Register) (flags aliases : List Flag) (h : Distinct flags) :
    let t := made register flags aliases
    (∀ m, (t.group? m = none ↔ ∀ i, t.Has i → m.testBit i = false) ∧
        ∀ g, t.group? m = some g → t.Names m g) ∧
      (∀ text : String, ∃ m,
        (∀ i, m.testBit i = true ↔
          ∃ c ∈ text.toList, ∃ mask, t.Denotes c mask ∧ mask.testBit i = true) ∧
        t.groupNamed? text = t.group? m) ∧
      ∀ m n, t.group? m = t.group? n ↔ ∀ i, t.Has i → m.testBit i = n.testBit i := by
  have hlettered := lettered_made register aliases h
  refine ⟨fun m => ⟨group?_eq_none_iff, fun g hg => hlettered.names hg⟩, fun text => ?_,
    fun m n => group?_eq_iff⟩
  refine ⟨_, fun i => ?_, rfl⟩
  simp only [testBit_maskOf, hlettered.maskOfLetter?_eq_some_iff]

/-- An alias is hidden by an earlier one, another by a flag, and one has a bit of no flag. -/
theorem names_and_masks_hidden_aliases :
    let flags : List Flag := [⟨0x01, 's'⟩, ⟨0x02, 'C'⟩, ⟨0x10, 'O'⟩]
    let t := made (.root "flags" 70 .flags 32) flags [⟨0x30, 'v'⟩, ⟨0x01, 'V'⟩, ⟨0x10, 'c'⟩]
    let so : FlagGroup := ⟨t.register, 0x11, "SO"⟩
    Distinct flags ∧ t.Names 0x91 so ∧ t.groupNamed? "?o!Sos" = some so ∧
      t.groupNamed? "Vc" = t.group? 0x12 := by
  intro flags t so
  have hsingle : ∀ f ∈ flags, ∃ i, f.mask = 1 <<< i := by
    simpa only [flags, List.forall_mem_cons, List.not_mem_nil, false_implies, implies_true,
      and_true] using ⟨⟨0, rfl⟩, ⟨1, rfl⟩, ⟨4, rfl⟩⟩
  have hdistinct : Distinct flags := ⟨hsingle, by decide⟩
  have hnames : t.Names 0x91 so :=
    ((names_and_masks t.register flags _ hdistinct).1 0x91).2 so (by decide +kernel)
  have hname : so.name.toList = ['S', 'O'] := by decide +kernel
  have htext : "?o!Sos".toList = ['?', 'o', '!', 'S', 'o', 's'] := by decide +kernel
  have hspells : t.Spells so.name "?o!Sos" := by
    constructor
    · simp [hname, htext, SameLetter]
    · simp [hname, htext, SameLetter, t, flags, made_eq, kept]
  exact ⟨hdistinct, hnames, hnames.spelled _ hspells, by decide +kernel⟩

end FlagTable

end CodeLift
