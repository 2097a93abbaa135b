import Mathlib.Algebra.Order.BigOperators.Group.Finset
import Mathlib.Data.Int.CardIntervalMod

/-! # Numbers below a bound, by rejection

Of the numbers below `size`, the lowest `size % bound` are rejected. What is left are whole rounds of the
residues, so that every residue comes equally often.
-/

namespace FreeGuard.Rejection

variable {size bound : ℕ}

/-- The accepted numbers of one residue. -/
theorem card_residue {r : ℕ} (below : r < bound) :
    ((Finset.range size).filter fun w => size % bound ≤ w ∧ w % bound = r).card = size / bound := by
  have positive : 0 < bound := Nat.zero_lt_of_lt below
  have count (n : ℕ) : ((Finset.range n).filter (· ≡ r [MOD bound])).card =
      n / bound + if r < n % bound then 1 else 0 := by
    rw [← Nat.count_eq_card_filter_range, Nat.count_modEq_card n positive, Nat.mod_eq_of_lt below]
  have small : size % bound < bound := Nat.mod_lt size positive
  have parts : (Finset.range size).filter (fun w => size % bound ≤ w ∧ w % bound = r) =
      (Finset.range size).filter (· ≡ r [MOD bound]) \
        (Finset.range (size % bound)).filter (· ≡ r [MOD bound]) := by
    ext w
    simp only [Finset.mem_sdiff, Finset.mem_filter, Finset.mem_range, Nat.ModEq, Nat.mod_eq_of_lt below]
    omega
  have within : (Finset.range (size % bound)).filter (· ≡ r [MOD bound]) ⊆
      (Finset.range size).filter (· ≡ r [MOD bound]) :=
    Finset.filter_subset_filter _ (Finset.range_subset_range.mpr (Nat.mod_le ..))
  rw [parts, Finset.card_sdiff_of_subset within, count, count, Nat.div_eq_of_lt small, Nat.mod_mod,
    Nat.zero_add, Nat.add_sub_cancel]

/-- The accepted numbers whose residue meets a condition. -/
theorem card_accepted (P : ℕ → Prop) [DecidablePred P] (positive : 0 < bound) :
    ((Finset.range size).filter fun w => size % bound ≤ w ∧ P (w % bound)).card =
      size / bound * ((Finset.range bound).filter P).card := by
  have residue (w : ℕ) (accepted : w ∈ (Finset.range size).filter fun w => size % bound ≤ w ∧ P (w % bound)) :
      w % bound ∈ (Finset.range bound).filter P := by
    simp only [Finset.mem_filter, Finset.mem_range] at accepted ⊢
    exact ⟨Nat.mod_lt w positive, accepted.2.2⟩
  rw [Finset.card_eq_sum_card_fiberwise residue, Finset.sum_const_nat (m := size / bound), Nat.mul_comm]
  intro r member
  simp only [Finset.mem_filter, Finset.mem_range] at member
  rw [← card_residue member.1, Finset.filter_filter]
  refine congrArg Finset.card (Finset.filter_congr fun w _ => ?_)
  constructor
  · exact fun both => ⟨both.1.1, both.2⟩
  · exact fun both => ⟨⟨both.1, both.2 ▸ member.2⟩, both.2⟩

/-- More than half of the numbers are accepted. -/
theorem mod_lt_half (positive : 0 < bound) (fits : bound ≤ size) : 2 * (size % bound) < size := by
  have small := Nat.mod_lt size positive
  have whole := Nat.div_add_mod size bound
  have once : bound * 1 ≤ bound * (size / bound) :=
    Nat.mul_le_mul_left _ (Nat.div_pos fits positive)
  omega

end FreeGuard.Rejection
