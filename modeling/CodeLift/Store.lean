-- SUMMARY: Finite maps from keys to constants.
import CodeLift.Constant

/-!
# Stores

A store maps keys to constants; a key that was never written reads as unknown.
Writes are strong: they change what one key reads and nothing else
(`get_set_self`, `get_set_of_ne`).
-/

namespace CodeLift

structure Store (κ : Type) where
  /-- The last value written to each key, the newest first. -/
  entries : List (κ × Constant)
  deriving DecidableEq

namespace Store

variable {κ : Type}

def empty : Store κ := ⟨[]⟩

variable [DecidableEq κ]

def get (s : Store κ) (key : κ) : Constant :=
  match s.entries.find? (·.1 == key) with
  | some (_, value) => value
  | none => .unknown

def set (s : Store κ) (key : κ) (value : Constant) : Store κ :=
  ⟨(key, value) :: s.entries.filter (·.1 != key)⟩

/-- The keys that read as a known constant, with it. -/
def known (s : Store κ) : List (κ × Constant) := s.entries.filter (·.2.isKnown)

@[simp] theorem get_empty (key : κ) : (empty : Store κ).get key = .unknown := rfl

@[simp] theorem get_set_self (s : Store κ) (key : κ) (value : Constant) :
    (s.set key value).get key = value := by
  simp [get, set]

theorem get_set_of_ne (s : Store κ) {key key' : κ} (value : Constant) (h : key' ≠ key) :
    (s.set key value).get key' = s.get key' := by
  have kept : (s.entries.filter (·.1 != key)).find? (·.1 == key') =
      s.entries.find? (·.1 == key') := by
    rw [List.find?_filter]
    congr 1
    funext e
    by_cases he : e.1 = key'
    · simp [he, h]
    · simp [he]
  simp [get, set, Ne.symm h, kept]

end Store

end CodeLift
