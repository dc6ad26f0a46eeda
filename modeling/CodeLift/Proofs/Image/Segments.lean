-- SUMMARY: What the look-up of an address in a map of segments finds, and what it misses.
import CodeLift.Image.Segment
import CodeLift.Proofs.Image.Positions
import Mathlib.Data.List.Induction

/-!
# Segments

A map has the segments that were added and not replaced since, in the order of their starts
(`SegmentMap.mem_ofList`). The look-up of an address goes to the last of them that does not
start behind it, and to no other.

So what is found contains the address. But a segment that starts inside another one and
ends before it hides what the other has behind that end, unless a third one, which starts
later still, has it too. An address of a segment is found if and only if it is not hidden in
this way (`SegmentMap.lookup_iff`).
-/

namespace CodeLift

namespace Segment

variable {s t : Segment} {a : Address}

theorem contains_iff :
    s.contains a = true ↔
      s.start.linear ≤ a.linear ∧ a.linear < s.start.linear + s.image.size := by
  unfold contains Image.contains start
  cases h : s.image.position? a with
  | some position =>
    obtain ⟨hlinear, -⟩ := Image.position?_eq_some_iff.1 h
    simp only [decide_eq_true_eq]
    omega
  | none =>
    refine iff_of_false nofun fun ⟨hstart, hlt⟩ => ?_
    have hsome : s.image.position? a = some (a.linear - s.image.base.linear) :=
      Image.position?_eq_some_iff.2 ⟨by omega, by omega⟩
    cases h.symm.trans hsome

/-- The segment starts in front of the other one. -/
def Precedes (s t : Segment) : Prop := s.start.linear < t.start.linear

instance (s t : Segment) : Decidable (s.Precedes t) := inferInstanceAs (Decidable (_ < _))

/-- The address is one of `s`, but `t` starts behind the start of `s` and ends before the address
or at it. -/
structure Hides (t s : Segment) (a : Address) : Prop where
  contains : s.contains a = true
  precedes : s.Precedes t
  limit_le : t.start.linear + t.image.size ≤ a.linear

end Segment

namespace SegmentMap

variable {m : SegmentMap} {s t u : Segment} {l segments : List Segment} {a : Address}

/-! ## Segments in order -/

theorem mem_insertSorted (hl : l.Pairwise Segment.Precedes) :
    t ∈ insertSorted s l ↔ t = s ∨ t ∈ l ∧ t.start.linear ≠ s.start.linear := by
  induction l with
  | nil => simp [insertSorted]
  | cons x rest ih =>
    obtain ⟨hx, hrest⟩ := List.pairwise_cons.1 hl
    unfold insertSorted
    split
    · next horder =>
      have hlt : s.start.linear < x.start.linear := Nat.compare_eq_lt.1 horder
      have hne : t ∈ x :: rest → t.start.linear ≠ s.start.linear := by
        intro ht
        obtain rfl | ht := List.mem_cons.1 ht
        · exact Nat.ne_of_gt hlt
        · exact Nat.ne_of_gt (Nat.lt_trans hlt (hx t ht))
      rw [List.mem_cons]
      exact or_congr_right ⟨fun ht => ⟨ht, hne ht⟩, And.left⟩
    · next horder =>
      have heq : s.start.linear = x.start.linear := Nat.compare_eq_eq.1 horder
      rw [List.mem_cons, List.mem_cons]
      refine or_congr_right ⟨fun ht => ⟨.inr ht, ?_⟩, ?_⟩
      · rw [heq]
        exact Nat.ne_of_gt (hx t ht)
      · rintro ⟨rfl | ht, hne⟩
        · exact absurd heq.symm hne
        · exact ht
    · next horder =>
      have hgt : x.start.linear < s.start.linear := Nat.compare_eq_gt.1 horder
      rw [List.mem_cons, ih hrest, List.mem_cons]
      constructor
      · rintro (rfl | rfl | ⟨ht, hne⟩)
        · exact .inr ⟨.inl rfl, Nat.ne_of_lt hgt⟩
        · exact .inl rfl
        · exact .inr ⟨.inr ht, hne⟩
      · rintro (rfl | ⟨rfl | ht, hne⟩)
        · exact .inr (.inl rfl)
        · exact .inl rfl
        · exact .inr (.inr ⟨ht, hne⟩)

theorem pairwise_insertSorted (hl : l.Pairwise Segment.Precedes) :
    (insertSorted s l).Pairwise Segment.Precedes := by
  induction l with
  | nil => exact List.pairwise_singleton _ _
  | cons x rest ih =>
    obtain ⟨hx, hrest⟩ := List.pairwise_cons.1 hl
    unfold insertSorted
    split
    · next horder =>
      have hlt : s.Precedes x := Nat.compare_eq_lt.1 horder
      refine List.pairwise_cons.2 ⟨fun t ht => ?_, hl⟩
      obtain rfl | ht := List.mem_cons.1 ht
      · exact hlt
      · exact Nat.lt_trans hlt (hx t ht)
    · next horder =>
      have heq : s.start.linear = x.start.linear := Nat.compare_eq_eq.1 horder
      refine List.pairwise_cons.2 ⟨fun t ht => ?_, hrest⟩
      exact Nat.lt_of_le_of_lt (Nat.le_of_eq heq) (hx t ht)
    · next horder =>
      refine List.pairwise_cons.2 ⟨fun t ht => ?_, ih hrest⟩
      obtain rfl | ⟨ht, -⟩ := (mem_insertSorted hrest).1 ht
      · exact Nat.compare_eq_gt.1 horder
      · exact hx t ht

/-- The segments are in the order of their starts, with no two of one start. -/
def Ordered (m : SegmentMap) : Prop := m.segments.Pairwise Segment.Precedes

/-- The map of segments that are added one after the other. -/
def ofList (segments : List Segment) : SegmentMap := segments.foldl insert empty

/-- The segment is the last that was added with its start. -/
def Stands (segments : List Segment) (s : Segment) : Prop :=
  segments.reverse.find? (·.start.coincides s.start) = some s

theorem ofList_concat (segments : List Segment) (t : Segment) :
    ofList (segments ++ [t]) = (ofList segments).insert t :=
  List.foldl_append

theorem ordered_ofList (segments : List Segment) : (ofList segments).Ordered := by
  induction segments using List.reverseRecOn with
  | nil => exact List.Pairwise.nil
  | append_singleton before t ih =>
    rw [ofList_concat]
    exact pairwise_insertSorted ih

theorem stands_concat :
    Stands (segments ++ [t]) s ↔
      s = t ∨ Stands segments s ∧ s.start.linear ≠ t.start.linear := by
  unfold Stands Address.coincides
  rw [List.reverse_concat, List.find?_cons]
  split
  · next heq =>
    have heq := (beq_iff_eq.1 heq).symm
    simp [heq, eq_comm]
  · next hne =>
    have hne : s.start.linear ≠ t.start.linear := fun heq => by simp [heq] at hne
    have hst : s ≠ t := fun heq => hne (by rw [heq])
    simp [hne, hst]

/-- A map has the segments that were added, less those that were replaced. -/
theorem mem_ofList : s ∈ (ofList segments).segments ↔ Stands segments s := by
  induction segments using List.reverseRecOn with
  | nil => exact iff_of_false List.not_mem_nil nofun
  | append_singleton before t ih =>
    rw [ofList_concat, stands_concat, ← ih]
    exact mem_insertSorted (ordered_ofList before)

/-! ## Looking an address up -/

theorem getLast?_eq_some_iff_of_pairwise (hl : l.Pairwise Segment.Precedes) :
    l.getLast? = some s ↔ s ∈ l ∧ ∀ t ∈ l, t.start.linear ≤ s.start.linear := by
  constructor
  · intro h
    obtain ⟨front, rfl⟩ := List.getLast?_eq_some_iff.1 h
    obtain ⟨-, -, hfront⟩ := List.pairwise_append.1 hl
    refine ⟨List.mem_append_right _ List.mem_cons_self, fun t ht => ?_⟩
    obtain ht | ht := List.mem_append.1 ht
    · exact Nat.le_of_lt (hfront t ht s List.mem_cons_self)
    · obtain rfl := List.mem_singleton.1 ht
      exact Nat.le_refl _
  · rintro ⟨hs, hgreatest⟩
    cases hlast : l.getLast? with
    | none =>
      rw [List.getLast?_eq_none_iff.1 hlast] at hs
      cases hs
    | some last =>
      obtain ⟨front, rfl⟩ := List.getLast?_eq_some_iff.1 hlast
      obtain ⟨-, -, hfront⟩ := List.pairwise_append.1 hl
      obtain hs | hs := List.mem_append.1 hs
      · have hle := hgreatest last (List.mem_append_right _ List.mem_cons_self)
        exact absurd (hfront s hs last List.mem_cons_self) (Nat.not_lt_of_le hle)
      · rw [List.mem_singleton.1 hs]

/-- The segment is in the map, and of those that do not start behind the address it starts last. -/
structure Last (m : SegmentMap) (a : Address) (s : Segment) : Prop where
  mem : s ∈ m.segments
  start_le : s.start.linear ≤ a.linear
  greatest : ∀ t ∈ m.segments, t.start.linear ≤ a.linear → t.start.linear ≤ s.start.linear

theorem getLast?_filter_eq_some_iff (hm : m.Ordered) :
    (m.segments.filter fun s => s.start.linear ≤ a.linear).getLast? = some s ↔ m.Last a s := by
  rw [getLast?_eq_some_iff_of_pairwise (hm.filter _)]
  constructor
  · rintro ⟨hs, hgreatest⟩
    obtain ⟨hmem, hle⟩ := List.mem_filter.1 hs
    exact ⟨hmem, of_decide_eq_true hle, fun t ht hle =>
      hgreatest t (List.mem_filter.2 ⟨ht, decide_eq_true hle⟩)⟩
  · intro h
    refine ⟨List.mem_filter.2 ⟨h.mem, decide_eq_true h.start_le⟩, fun t ht => ?_⟩
    obtain ⟨hmem, hle⟩ := List.mem_filter.1 ht
    exact h.greatest t hmem (of_decide_eq_true hle)

theorem Last.unique (hm : m.Ordered) (hs : m.Last a s) (ht : m.Last a t) : s = t :=
  Option.some.inj (((getLast?_filter_eq_some_iff hm).2 hs).symm.trans
    ((getLast?_filter_eq_some_iff hm).2 ht))

theorem exists_last (hm : m.Ordered) (hs : s ∈ m.segments) (hle : s.start.linear ≤ a.linear) :
    ∃ t, m.Last a t := by
  have hmem : s ∈ m.segments.filter fun s => s.start.linear ≤ a.linear :=
    List.mem_filter.2 ⟨hs, decide_eq_true hle⟩
  exact ⟨_, (getLast?_filter_eq_some_iff hm).1
    (List.getLast?_eq_some_getLast (List.ne_nil_of_mem hmem))⟩

theorem at?_eq_some_iff (hm : m.Ordered) :
    m.at? a = some s ↔ m.Last a s ∧ s.contains a = true := by
  rw [at?, Option.filter_eq_some_iff, getLast?_filter_eq_some_iff hm]

/-- What one segment hides of another is found if a third one, which starts later, has it too. -/
theorem isMapped_iff_exists_contains_iff (hm : m.Ordered) :
    (m.isMapped a = true ↔ ∃ s ∈ m.segments, s.contains a = true) ↔
      ∀ s ∈ m.segments, ∀ t ∈ m.segments, t.Hides s a →
        ∃ u ∈ m.segments, u.contains a = true ∧ t.Precedes u := by
  have hmapped : m.isMapped a = true ↔ ∃ u, m.Last a u ∧ u.contains a = true := by
    simp only [isMapped, Option.isSome_iff_exists, at?_eq_some_iff hm]
  rw [hmapped]
  constructor
  · intro hfound s hs t ht hhides
    obtain ⟨u, hlast, hcontains⟩ := hfound.2 ⟨s, hs, hhides.contains⟩
    have hstart : t.start.linear ≤ a.linear := Nat.le_trans (Nat.le_add_right _ _) hhides.limit_le
    refine ⟨u, hlast.mem, hcontains, Nat.lt_of_le_of_ne (hlast.greatest t ht hstart) fun heq => ?_⟩
    -- With the same start it would be the same segment, but that one ends too early.
    have ht : m.Last a t := ⟨ht, hstart, heq ▸ hlast.greatest⟩
    rw [hlast.unique hm ht, Segment.contains_iff] at hcontains
    exact Nat.not_lt_of_le hhides.limit_le hcontains.2
  · intro hcovered
    refine ⟨fun ⟨u, hlast, hcontains⟩ => ⟨u, hlast.mem, hcontains⟩, fun ⟨s, hs, hcontains⟩ => ?_⟩
    have hrange := Segment.contains_iff.1 hcontains
    obtain ⟨u, hlast⟩ := exists_last hm hs hrange.1
    refine ⟨u, hlast, Classical.byContradiction fun hmiss => ?_⟩
    have hstart : s.Precedes u := by
      refine Nat.lt_of_le_of_ne (hlast.greatest s hs hrange.1) fun heq => hmiss ?_
      have hs : m.Last a s := ⟨hs, hrange.1, heq ▸ hlast.greatest⟩
      rwa [hlast.unique hm hs]
    have hend : u.start.linear + u.image.size ≤ a.linear := by
      refine Nat.le_of_not_lt fun hlt => hmiss ?_
      exact Segment.contains_iff.2 ⟨hlast.start_le, hlt⟩
    obtain ⟨v, hv, hcontains', hbehind⟩ := hcovered s hs u hlast.mem ⟨hcontains, hstart, hend⟩
    exact Nat.not_le_of_lt hbehind (hlast.greatest v hv (Segment.contains_iff.1 hcontains').1)

/-- Nothing is hidden where segments end in the order in which they start. -/
theorem isMapped_ofList_iff
    (h : ∀ s t, Stands segments s → Stands segments t → s.Precedes t →
      s.start.linear + s.image.size ≤ t.start.linear + t.image.size) :
    (ofList segments).isMapped a = true ↔ ∃ s, Stands segments s ∧ s.contains a = true := by
  simp only [← mem_ofList] at h ⊢
  refine (isMapped_iff_exists_contains_iff (ordered_ofList segments)).2 fun s hs t ht hhides => ?_
  have hend := (Segment.contains_iff.1 hhides.contains).2
  exact absurd (Nat.lt_of_lt_of_le hend (h s t hs ht hhides.precedes))
    (Nat.not_lt_of_le hhides.limit_le)

/-- Segments are added in any order. The map has those that were not replaced; the look-up of an
address gives one of them that contains it, or none, and tells whether it can be executed. It gives
one for an address that some segment contains if and only if the address is not hidden: wherever a
segment that starts later has already ended, another one that starts later still contains the
address. -/
theorem lookup_iff (segments : List Segment) (a : Address) :
    let m := ofList segments
    (∀ s, s ∈ m.segments ↔ Stands segments s) ∧
    (∀ s, m.at? a = some s → Stands segments s ∧ s.contains a = true) ∧
    (m.isMapped a = true ↔ ∃ s, m.at? a = some s) ∧
    (m.isExecutable a = true ↔ ∃ s, m.at? a = some s ∧ s.access.execute = true) ∧
    ((m.isMapped a = true ↔ ∃ s, Stands segments s ∧ s.contains a = true) ↔
      ∀ s t, Stands segments s → Stands segments t → t.Hides s a →
        ∃ u, Stands segments u ∧ u.contains a = true ∧ t.Precedes u) := by
  intro m
  have hm : m.Ordered := ordered_ofList segments
  refine ⟨fun s => mem_ofList, fun s hs => ?_, Option.isSome_iff_exists, Option.any_eq_true _ _, ?_⟩
  · obtain ⟨hlast, hcontains⟩ := (at?_eq_some_iff hm).1 hs
    exact ⟨mem_ofList.1 hlast.mem, hcontains⟩
  · simp only [← mem_ofList]
    rw [isMapped_iff_exists_contains_iff hm]
    exact ⟨fun h s t hs ht => h s hs t ht, fun h s hs t ht => h s t hs ht⟩

/-- The second of three segments hides the last byte of the first, which the third has too. -/
theorem lookup_iff_taken_up :
    let s : Segment := ⟨".text", ⟨⟨.flat .w32, 0x1000, by decide⟩, [0x90, 0x90, 0x90, 0xC3]⟩,
      ⟨true, false, true⟩⟩
    let t : Segment := ⟨".rodata", ⟨⟨.flat .w32, 0x1001, by decide⟩, [7]⟩, ⟨true, false, false⟩⟩
    let u : Segment := ⟨".data", ⟨⟨.segment 0x0100, 2, by decide⟩, [1, 2]⟩, ⟨true, true, false⟩⟩
    let a : Address := ⟨.flat .w32, 0x1003, by decide⟩
    t.Hides s a ∧
      ((ofList [u, s, t]).isMapped a = true ↔ ∃ s', Stands [u, s, t] s' ∧ s'.contains a = true) ∧
      (ofList [u, s, t]).at? a = some u := by
  intro s t u a
  have hhides : t.Hides s a := ⟨by decide +kernel, by decide +kernel, by decide +kernel⟩
  have hsegments : (ofList [u, s, t]).segments = [s, t, u] := by decide +kernel
  obtain ⟨hmem, -, -, -, hiff⟩ := lookup_iff [u, s, t] a
  refine ⟨hhides, hiff.2 fun s' t' _ ht' hhides' => ?_, by decide +kernel⟩
  refine ⟨u, (hmem u).1 (by simp [hsegments]), by decide +kernel, ?_⟩
  have ht' := (hmem t').2 ht'
  simp only [hsegments, List.mem_cons, List.not_mem_nil, or_false] at ht'
  obtain rfl | rfl | rfl := ht'
  · exact absurd hhides'.limit_le (by decide +kernel)
  · decide +kernel
  · exact absurd hhides'.limit_le (by decide +kernel)

/-- A short segment inside a longer one hides what the longer one has behind it. -/
theorem not_isMapped_behind_nested :
    let outer : Segment := ⟨".text", ⟨⟨.flat .w32, 0x1000, by decide⟩, [0x90, 0x90, 0x90, 0xC3]⟩,
      ⟨true, false, true⟩⟩
    let inner : Segment := ⟨".rodata", ⟨⟨.flat .w32, 0x1001, by decide⟩, [7]⟩, ⟨true, false, false⟩⟩
    let m := ofList [outer, inner]
    let a : Address := ⟨.flat .w32, 0x1003, by decide⟩
    outer ∈ m.segments ∧ outer.contains a = true ∧ m.at? a = none ∧
      ¬ (m.isMapped a = true ↔ ∃ s ∈ m.segments, s.contains a = true) := by
  intro outer inner m a
  have hmem : outer ∈ m.segments := by decide +kernel
  have hcontains : outer.contains a = true := by decide +kernel
  refine ⟨hmem, hcontains, by decide +kernel, fun h => ?_⟩
  exact absurd (h.2 ⟨outer, hmem, hcontains⟩) (by decide +kernel)

end SegmentMap

end CodeLift
