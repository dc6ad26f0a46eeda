-- SUMMARY: Computations that change a value in place and may fail on their way.

/-!
# Changes in place

An operation on a reader, a writer or a procedure under way changes it step by
step, and may fail between two steps. What it has changed before stays changed
then, so that a failure leaves everything as it was is nothing to rely on: an
operation keeps to that only if all its checks come first.
-/

namespace CodeLift

/-- A computation that changes a value of type `σ` in place, up to where it fails. -/
abbrev InPlace (ε σ : Type) := ExceptT ε (StateM σ)

namespace InPlace

variable {ε σ α β : Type}

/-- The outcome on a value, and what has become of the value. -/
def on (m : InPlace ε σ α) (s : σ) : Except ε α × σ := m.run.run s

/-- The result and the changed value, or the failure alone. -/
def attempt (m : InPlace ε σ α) (s : σ) : Except ε (α × σ) :=
  match m.on s with
  | (.ok x, s') => .ok (x, s')
  | (.error e, _) => .error e

@[simp] theorem on_get (s : σ) : on (get : InPlace ε σ σ) s = (.ok s, s) := rfl

theorem on_bind (m : InPlace ε σ α) (next : α → InPlace ε σ β) (s : σ) :
    on (m >>= next) s =
      match m.on s with
      | (.ok x, s') => (next x).on s'
      | (.error e, s') => (.error e, s') := by
  change (match m.run.run s with | (result, s') => (ExceptT.bindCont next result).run s') = _
  unfold on
  cases m.run.run s with
  | mk result s' => cases result <;> rfl

variable {m : InPlace ε σ α} {next : α → InPlace ε σ β} {s s' : σ}

theorem on_bind_of_ok {x : α} (h : m.on s = (.ok x, s')) :
    on (m >>= next) s = (next x).on s' := by
  rw [on_bind, h]

theorem on_bind_of_error {e : ε} (h : m.on s = (.error e, s')) :
    on (m >>= next) s = (.error e, s') := by
  rw [on_bind, h]

theorem attempt_of_ok {x : α} (h : m.on s = (.ok x, s')) : m.attempt s = .ok (x, s') := by
  rw [attempt, h]

theorem attempt_of_error {e : ε} (h : m.on s = (.error e, s')) : m.attempt s = .error e := by
  rw [attempt, h]

end InPlace

end CodeLift
