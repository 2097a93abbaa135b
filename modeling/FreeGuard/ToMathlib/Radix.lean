import Mathlib.Data.Nat.Size
import Mathlib.Tactic.Common
import Mathlib.Tactic.Ring

/-! # Mixed-radix offsets

An offset into an array of `h` groups of `T` rows of `N` cells of `B` bytes has four digits. Division
and remainder by the products of the radices recover them, and the digits of an offset determine it.
Masks and shifts by powers of two are these divisions and remainders.
-/

namespace FreeGuard.Radix

variable {T N B h t b off x : ℕ}

/-- The offset with these digits. -/
def offset (T N B h t b off : ℕ) : ℕ := h * (T * N * B) + t * (N * B) + b * B + off

theorem mul_add_div_of_lt {a r : ℕ} (small : r < B) : (a * B + r) / B = a := by
  rw [Nat.mul_comm, Nat.mul_add_div (by omega), Nat.div_eq_of_lt small, Nat.add_zero]

theorem offset_eq (T N B h t b off : ℕ) :
    offset T N B h t b off = ((h * T + t) * N + b) * B + off := by
  rw [offset]
  ring

theorem offset_mod_cell (small : off < B) : offset T N B h t b off % B = off := by
  simp only [offset_eq, Nat.mul_add_mod_of_lt small]

theorem offset_div_cell (small : off < B) : offset T N B h t b off / B = (h * T + t) * N + b := by
  simp only [offset_eq, mul_add_div_of_lt small]

theorem offset_cell (small : off < B) (cell : b < N) : offset T N B h t b off / B % N = b := by
  simp only [offset_div_cell small, Nat.mul_add_mod_of_lt cell]

theorem offset_group (small : off < B) (cell : b < N) (row : t < T) :
    offset T N B h t b off / B / (N * T) = h := by
  rw [offset_div_cell small, ← Nat.div_div_eq_div_mul, mul_add_div_of_lt cell,
    mul_add_div_of_lt row]

theorem offset_row (small : off < B) (cell : b < N) (row : t < T) :
    offset T N B h t b off % (T * N * B) / (N * B) = t := by
  rw [Nat.mul_assoc, Nat.mul_comm T, Nat.mod_mul_right_div_self, Nat.mul_comm N,
    ← Nat.div_div_eq_div_mul, offset_div_cell small, mul_add_div_of_lt cell,
    Nat.mul_add_mod_of_lt row]

/-- Every number is the offset of its digits. -/
theorem exists_digits (positiveT : 0 < T) (positiveN : 0 < N) (positiveB : 0 < B) (x : ℕ) :
    ∃ h t b off, t < T ∧ b < N ∧ off < B ∧ x = offset T N B h t b off := by
  refine ⟨x / B / N / T, x / B / N % T, x / B % N, x % B, Nat.mod_lt _ positiveT,
    Nat.mod_lt _ positiveN, Nat.mod_lt _ positiveB, ?_⟩
  simp only [offset_eq, Nat.div_add_mod']

end FreeGuard.Radix
