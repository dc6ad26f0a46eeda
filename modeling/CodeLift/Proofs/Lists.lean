-- SUMMARY: Looking up keys in lists, and checking lists item by item.

/-!
# Lists

Two facts about the tables of a processor, which are lists: an item is found by a key of
its own, and a check of all items passes if and only if each of them does.
-/

namespace CodeLift

/-- Where keys are unique, the first item with a key is the item with that key. -/
theorem find?_eq_some_iff_of_pairwise {α β : Type} [BEq β] [LawfulBEq β] {l : List α} {r : α}
    {f : α → β} {key : β} (hl : l.Pairwise fun a b => f a ≠ f b) :
    l.find? (f · == key) = some r ↔ r ∈ l ∧ f r = key := by
  induction l with
  | nil => simp
  | cons x rest ih =>
    obtain ⟨hx, hrest⟩ := List.pairwise_cons.1 hl
    rw [List.find?_cons, List.mem_cons]
    split
    · next hkey =>
      have hkey : f x = key := beq_iff_eq.1 hkey
      constructor
      · rintro ⟨⟩
        exact ⟨.inl rfl, hkey⟩
      · rintro ⟨rfl | hr, heq⟩
        · rfl
        · exact absurd (hkey.trans heq.symm) (hx r hr)
    · next hkey =>
      have hkey : f x ≠ key := ne_of_beq_false hkey
      rw [ih hrest]
      constructor
      · rintro ⟨hr, heq⟩
        exact ⟨.inr hr, heq⟩
      · rintro ⟨rfl | hr, heq⟩
        · exact absurd heq hkey
        · exact ⟨hr, heq⟩

variable {ε α : Type}

/-- Checks made one after the other pass if each of them does. -/
theorem andThen_eq_ok_iff {first second : Except ε Unit} :
    (first >>= fun _ => second) = .ok () ↔ first = .ok () ∧ second = .ok () := by
  cases first with
  | error e => exact iff_of_false nofun fun h => by cases h.1
  | ok => exact (and_iff_right rfl).symm

theorem forM_eq_ok_iff {check : α → Except ε Unit} {l : List α} :
    l.forM check = .ok () ↔ ∀ x ∈ l, check x = .ok () := by
  induction l with
  | nil => simp [pure, Except.pure]
  | cons x rest ih =>
    change (check x >>= fun _ => rest.forM check) = .ok () ↔ _
    rw [andThen_eq_ok_iff, ih, List.forall_mem_cons]

end CodeLift
