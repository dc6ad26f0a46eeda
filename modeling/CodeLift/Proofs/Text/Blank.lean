-- SUMMARY: What trimming leaves, and where a text is split.
import CodeLift.Text.Blank
import Mathlib.Data.List.TakeWhile

/-!
# Blanks around a text

A text that neither begins nor ends with a blank is what trimming leaves of every text
that has only blanks around it (`Pads.trim_eq`). Splitting at a character finds the
first one, or the last.
-/

namespace CodeLift.Text

/-- The visible characters of ASCII stand between two ranges of blanks. -/
theorem not_isBlank_of_visible {c : Char} (hlow : ' '.toNat < c.toNat)
    (hhigh : c.toNat ≤ '~'.toNat) : ¬isBlank c := by
  have hranges : ∀ range ∈ blankRanges, range.2 ≤ ' '.toNat ∨ '~'.toNat < range.1 := by decide
  intro h
  obtain ⟨range, hrange, hin⟩ := List.any_eq_true.1 h
  simp only [Bool.and_eq_true, decide_eq_true_eq] at hin
  rcases hranges range hrange with hbefore | hbehind
  · omega
  · omega

/-- `text` is `inner` with blanks around it. -/
def Pads (text inner : List Char) : Prop :=
  ∃ before after, (∀ c ∈ before, isBlank c) ∧ (∀ c ∈ after, isBlank c) ∧
    text = before ++ inner ++ after

/-- There are no blanks at the ends. -/
structure IsTrim (text : List Char) : Prop where
  ne_nil : text ≠ []
  head : ¬isBlank (text.head ne_nil)
  getLast : ¬isBlank (text.getLast ne_nil)

theorem IsTrim.of_forall {text : List Char} (hne : text ≠ []) (h : ∀ c ∈ text, ¬isBlank c) :
    IsTrim text :=
  ⟨hne, h _ (List.head_mem hne), h _ (List.getLast_mem hne)⟩

/-- The ends of a text are those of its first and of its last part. -/
theorem IsTrim.append {first last : List Char} (hfirst : IsTrim first) (hlast : IsTrim last)
    (between : List Char) : IsTrim (first ++ between ++ last) where
  ne_nil := List.append_ne_nil_of_right_ne_nil _ hlast.ne_nil
  head := by
    simp only [List.append_assoc]
    rw [List.head_append_of_ne_nil hfirst.ne_nil]
    exact hfirst.head
  getLast := by
    rw [List.getLast_append_of_ne_nil _ hlast.ne_nil]
    exact hlast.getLast

theorem IsTrim.reverse {text : List Char} (h : IsTrim text) : IsTrim text.reverse where
  ne_nil := List.reverse_ne_nil_iff.2 h.ne_nil
  head := by
    rw [List.head_reverse]
    exact h.getLast
  getLast := by
    rw [List.getLast_reverse]
    exact h.head

variable {text inner : List Char}

theorem Pads.refl (text : List Char) : Pads text text := ⟨[], [], nofun, nofun, by simp⟩

theorem pads_append_left {blanks : List Char} (h : ∀ c ∈ blanks, isBlank c) (text : List Char) :
    Pads (blanks ++ text) text :=
  ⟨blanks, [], h, nofun, (List.append_nil _).symm⟩

theorem pads_append_right {blanks : List Char} (h : ∀ c ∈ blanks, isBlank c) (text : List Char) :
    Pads (text ++ blanks) text :=
  ⟨[], blanks, nofun, h, rfl⟩

theorem Pads.trans {outer : List Char} (h : Pads outer text) (h' : Pads text inner) :
    Pads outer inner := by
  obtain ⟨before, after, hbefore, hafter, rfl⟩ := h
  obtain ⟨before', after', hbefore', hafter', rfl⟩ := h'
  refine ⟨before ++ before', after' ++ after, ?_, ?_, by simp only [List.append_assoc]⟩
  · exact List.forall_mem_append.2 ⟨hbefore, hbefore'⟩
  · exact List.forall_mem_append.2 ⟨hafter', hafter⟩

theorem pads_trim (text : List Char) : Pads text (trim text) := by
  let rest := text.dropWhile isBlank
  refine ⟨text.takeWhile isBlank, (rest.reverse.takeWhile isBlank).reverse,
    fun c hc => List.mem_takeWhile_imp hc,
    fun c hc => List.mem_takeWhile_imp (List.mem_reverse.1 hc), ?_⟩
  have hrest : trim text ++ (rest.reverse.takeWhile isBlank).reverse = rest := by
    rw [trim, ← List.reverse_append, List.takeWhile_append_dropWhile, List.reverse_reverse]
  rw [List.append_assoc, hrest, List.takeWhile_append_dropWhile]

/-- Blanks are dropped up to the text proper. -/
theorem dropWhile_isBlank_append {before after : List Char} (hbefore : ∀ c ∈ before, isBlank c)
    (h : IsTrim inner) : (before ++ inner ++ after).dropWhile isBlank = inner ++ after := by
  obtain ⟨c, rest, rfl⟩ := List.exists_cons_of_ne_nil h.ne_nil
  have hc : ¬isBlank c := h.head
  rw [List.append_assoc, List.dropWhile_append_of_pos hbefore, List.cons_append,
    List.dropWhile_cons_of_neg hc]

theorem Pads.trim_eq (h : Pads text inner) (hinner : IsTrim inner) : trim text = inner := by
  obtain ⟨before, after, hbefore, hafter, rfl⟩ := h
  have hback : (after.reverse ++ inner.reverse ++ []).dropWhile isBlank = inner.reverse ++ [] :=
    dropWhile_isBlank_append (fun c hc => hafter c (List.mem_reverse.1 hc)) hinner.reverse
  rw [List.append_nil, List.append_nil] at hback
  rw [trim, dropWhile_isBlank_append hbefore hinner, List.reverse_append, hback,
    List.reverse_reverse]

/-- Trimming leaves this, and trimming it again changes nothing. -/
theorem pads_iff_trim (hinner : IsTrim inner) : Pads text inner ↔ trim text = inner :=
  ⟨fun h => h.trim_eq hinner, fun h => h ▸ pads_trim text⟩

/-! ## Splitting -/

theorem splitFirst_append {c : Char} {before after : List Char} (h : c ∉ before) :
    splitFirst c (before ++ c :: after) = some (before, after) := by
  induction before with
  | nil => rw [List.nil_append, splitFirst, if_pos rfl]
  | cons x rest ih =>
    have hx : c ≠ x := List.ne_of_not_mem_cons h
    rw [List.cons_append, splitFirst, if_neg hx.symm, ih (List.not_mem_of_not_mem_cons h)]
    rfl

theorem splitFirst_of_not_mem {c : Char} (h : c ∉ text) : splitFirst c text = none := by
  induction text with
  | nil => rfl
  | cons x rest ih =>
    have hx : c ≠ x := List.ne_of_not_mem_cons h
    rw [splitFirst, if_neg hx.symm, ih (List.not_mem_of_not_mem_cons h)]
    rfl

theorem splitFirst_eq_some_iff {c : Char} {before after : List Char} :
    splitFirst c text = some (before, after) ↔ text = before ++ c :: after ∧ c ∉ before := by
  constructor
  · intro h
    by_cases hc : c ∈ text
    · obtain ⟨first, rest, rfl, hfirst⟩ := List.eq_append_cons_of_mem hc
      cases (splitFirst_append hfirst).symm.trans h
      exact ⟨rfl, hfirst⟩
    · cases (splitFirst_of_not_mem hc).symm.trans h
  · rintro ⟨rfl, hbefore⟩
    exact splitFirst_append hbefore

/-- Splitting at the last one is splitting the reversed text at the first. -/
theorem splitLast_eq_some_iff {c : Char} {before after : List Char} :
    splitLast c text = some (before, after) ↔ text = before ++ c :: after ∧ c ∉ after := by
  have hreverse : text.reverse = after.reverse ++ c :: before.reverse ↔
      text = before ++ c :: after := by
    rw [List.reverse_eq_iff]
    simp
  rw [← hreverse, ← List.mem_reverse, ← splitFirst_eq_some_iff, splitLast, Option.map_eq_some_iff]
  constructor
  · rintro ⟨⟨first, rest⟩, h, heq⟩
    cases heq
    rwa [List.reverse_reverse, List.reverse_reverse]
  · intro h
    exact ⟨_, h, by simp only [List.reverse_reverse]⟩

end CodeLift.Text
