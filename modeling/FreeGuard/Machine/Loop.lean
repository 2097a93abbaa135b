import Mathlib.Tactic.Common

/-! # Counted loops

`forRange n body s` is the state after `for (i = 0; i < n; i++) s = body(i, s)`. Its only rule is
the loop invariant: what holds before iteration `0` and is carried by every iteration holds after
the last one.
-/

namespace FreeGuard.Machine

variable {State : Type*}

/-- `for (i = 0; i < n; i++)` as a state transformer. -/
def forRange : ℕ → (ℕ → State → State) → State → State
  | 0, _, s => s
  | n + 1, body, s => body n (forRange n body s)

/-- The loop-invariant rule. -/
theorem forRange_invariant {n : ℕ} {body : ℕ → State → State} {s : State} (inv : ℕ → State → Prop)
    (start : inv 0 s) (carry : ∀ i < n, ∀ a, inv i a → inv (i + 1) (body i a)) :
    inv n (forRange n body s) := by
  induction n with
  | zero => exact start
  | succ n ih =>
    exact carry n (Nat.lt_succ_self n) _ (ih fun i bound => carry i (Nat.lt_succ_of_lt bound))

end FreeGuard.Machine
