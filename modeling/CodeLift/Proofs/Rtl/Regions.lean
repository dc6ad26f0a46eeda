-- SUMMARY: The stretches of memory that statements write, and what they leave alone.
import CodeLift.Rtl.Machine

/-!
# Regions of memory

A statement writes at most one region. A region that lies apart from all that are
written keeps its value (`value_run`).
-/

namespace CodeLift

/-- A stretch of bytes in the segment of a selector, or in the memory that has no segments. -/
structure Region where
  selector : Option Nat
  place : Nat
  size : Nat
  deriving DecidableEq

/-- No byte lies in both regions. -/
def Region.Apart (a b : Region) : Prop :=
  a.selector ≠ b.selector ∨ a.place + a.size ≤ b.place ∨ b.place + b.size ≤ a.place

instance (a b : Region) : Decidable (a.Apart b) :=
  inferInstanceAs (Decidable (_ ∨ _))

namespace Machine

theorem load_mod (m : Machine) (selector : Option Nat) (place : Nat) {size size' : Nat}
    (h : size ≤ size') :
    m.load selector place size' % modulus (8 * size) = m.load selector place size := by
  unfold load
  rw [← littleEndian_take, ← List.map_take, List.take_range, Nat.min_eq_left h]

/-- The unsigned integer in a region. -/
def value (m : Machine) (r : Region) : Nat := m.load r.selector r.place r.size

/-- The region that a statement writes. -/
def target? (m : Machine) : Stmt → Option Region
  | .store (.memory segment place bits) _ => some ⟨m.selector segment, place.eval m, bits / 8⟩
  | _ => none

/-- The regions that statements write, in order. -/
def written (m : Machine) : List Stmt → List Region
  | [] => []
  | s :: rest => (m.target? s).toList ++ (m.step s).written rest

variable {m : Machine} {r : Region}

theorem value_congr {m' : Machine} (h : m'.memory = m.memory) : m'.value r = m.value r := by
  rw [value, value, load, load, h]

theorem value_store_of_apart {selector : Option Nat} {place : Nat} {bytes : List UInt8}
    (h : r.Apart ⟨selector, place, bytes.length⟩) :
    (m.store selector place bytes).value r = m.value r := by
  rcases h with hselector | hplace
  · unfold value load store
    simp only [show ¬ r.selector = selector from hselector, false_and, if_false]
  · by_cases hselector : r.selector = selector
    · unfold value
      rw [hselector]
      exact m.load_store_of_disjoint selector bytes hplace
    · unfold value load store
      simp only [hselector, false_and, if_false]

/-- A statement changes no region apart from the one that it writes. -/
theorem value_step {s : Stmt} (h : ∀ w, m.target? s = some w → r.Apart w) :
    (m.step s).value r = m.value r := by
  unfold step
  split
  · split
    · exact value_congr rfl
    · rfl
  · refine value_store_of_apart ?_
    rw [length_littleEndianBytes]
    exact h _ rfl
  · rfl

/-- Statements change no region apart from those that they write. -/
theorem value_run {statements : List Stmt} (h : ∀ w ∈ m.written statements, r.Apart w) :
    (m.run statements).value r = m.value r := by
  induction statements generalizing m with
  | nil => rfl
  | cons s rest ih =>
    rw [run_cons]
    calc ((m.step s).run rest).value r
        = (m.step s).value r := ih fun w hw => h w (List.mem_append_right _ hw)
      _ = m.value r := value_step fun w hw => h w (List.mem_append_left _ (by simp [hw]))

end Machine

end CodeLift
