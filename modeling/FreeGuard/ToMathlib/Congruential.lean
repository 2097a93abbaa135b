import Mathlib.Data.Nat.Factorization.Basic
import Mathlib.Data.ZMod.Basic
import Mathlib.Dynamics.PeriodicPts.Lemmas
import Mathlib.Tactic.Ring

/-! # Linear congruential sequences modulo powers of two

For a multiplier that is one modulo four and an odd increment, `2 ^ n` steps add `2 ^ n` modulo
`2 ^ (n + 1)`. So the lowest `n` bits run through all their values before the first of them comes again,
whatever the sequence starts with.
-/

namespace FreeGuard.Congruential

variable {a c m n x : ℕ}

/-- One step, nothing reduced. -/
def step (a c x : ℕ) : ℕ := a * x + c

/-- Some steps multiply by a power and add what they make of zero. -/
theorem iterate_step (a c k x : ℕ) : (step a c)^[k] x = a ^ k * x + (step a c)^[k] 0 := by
  induction k generalizing x with
  | zero => simp
  | succ k ih =>
    rw [Function.iterate_succ_apply, Function.iterate_succ_apply, ih, ih (step a c 0), step, step]
    ring

/-- The multiplier and the increment of `2 ^ n` steps. -/
theorem two_pow_steps (multiplier : a % 4 = 1) (increment : c % 2 = 1) (n : ℕ) :
    ∃ u v, a ^ 2 ^ n = 1 + 2 ^ (n + 2) * u ∧ (step a c)^[2 ^ n] 0 = 2 ^ n * (2 * v + 1) := by
  induction n with
  | zero =>
    refine ⟨a / 4, c / 2, ?_, ?_⟩
    · simp only [Nat.pow_zero, Nat.pow_one, Nat.zero_add]
      omega
    · simp only [Nat.pow_zero, Function.iterate_one, step]
      omega
  | succ n ih =>
    obtain ⟨u, v, power, added⟩ := ih
    refine ⟨u + 2 ^ (n + 1) * u ^ 2, v + 2 ^ n * u + 2 ^ (n + 1) * u * v, ?_, ?_⟩
    · rw [Nat.pow_succ, Nat.pow_mul, power]
      ring
    · rw [Nat.pow_succ, Nat.mul_two, Function.iterate_add_apply, iterate_step, added, power]
      ring

/-- Modulo `2 ^ (n + 1)`, `2 ^ n` steps add `2 ^ n`. -/
theorem iterate_two_pow (multiplier : a % 4 = 1) (increment : c % 2 = 1) (n x : ℕ) :
    (step a c)^[2 ^ n] x ≡ x + 2 ^ n [MOD 2 ^ (n + 1)] := by
  obtain ⟨u, v, power, added⟩ := two_pow_steps multiplier increment n
  have value : (step a c)^[2 ^ n] x = x + 2 ^ n + 2 ^ (n + 1) * (2 * u * x + v) := by
    rw [iterate_step, added, power]
    ring
  rw [value, Nat.ModEq, Nat.add_mul_mod_self_left]

/-- One step modulo a power of two. -/
def reduced (a c m x : ℕ) : ℕ := step a c x % 2 ^ m

/-- Reducing at every step is reducing at the end. -/
theorem iterate_reduced (a c m k x : ℕ) :
    (reduced a c m)^[k] (x % 2 ^ m) = (step a c)^[k] x % 2 ^ m := by
  induction k generalizing x with
  | zero => rfl
  | succ k ih =>
    rw [Function.iterate_succ_apply, Function.iterate_succ_apply, ← ih, reduced]
    congr 1
    simp [step, Nat.add_mod, Nat.mul_mod]

section Period

variable (multiplier : a % 4 = 1) (increment : c % 2 = 1)
include multiplier increment

theorem minimalPeriod_reduced (m x : ℕ) :
    Function.minimalPeriod (reduced a c m) (x % 2 ^ m) = 2 ^ m := by
  cases m with
  | zero =>
    rw [Nat.pow_zero, Function.minimalPeriod_eq_one_iff_isFixedPt, Nat.mod_one]
    exact Nat.mod_one _
  | succ m =>
    apply Function.minimalPeriod_eq_prime_pow
    · intro periodic
      have moved := iterate_two_pow multiplier increment m x
      rw [Function.IsPeriodicPt, Function.IsFixedPt, iterate_reduced, moved] at periodic
      have below : 2 ^ m < 2 ^ (m + 1) := Nat.pow_lt_pow_right (by decide) (Nat.lt_succ_self m)
      have positive := Nat.two_pow_pos m
      have zero : 2 ^ m ≡ 0 [MOD 2 ^ (m + 1)] := Nat.ModEq.add_left_cancel' x periodic
      rw [Nat.ModEq, Nat.mod_eq_of_lt below, Nat.zero_mod] at zero
      omega
    · have moved := iterate_two_pow multiplier increment (m + 1) x
      rw [Function.IsPeriodicPt, Function.IsFixedPt, iterate_reduced]
      refine (moved.of_dvd (pow_dvd_pow 2 (Nat.le_succ _))).trans ?_
      exact Nat.add_mod_right x _

/-- `2 ^ m` steps give every number of `m` bits. -/
theorem image_iterates (m x : ℕ) :
    (Finset.range (2 ^ m)).image (fun k => (step a c)^[k] x % 2 ^ m) = Finset.range (2 ^ m) ∧
      Set.InjOn (fun k => (step a c)^[k] x % 2 ^ m) (Finset.range (2 ^ m)) := by
  have injective : Set.InjOn (fun k => (step a c)^[k] x % 2 ^ m) (Finset.range (2 ^ m)) := by
    intro i below j below' same
    rw [Finset.mem_coe, Finset.mem_range] at below below'
    have period := minimalPeriod_reduced multiplier increment m x
    simp only [← iterate_reduced] at same
    exact (Function.iterate_eq_iterate_iff_of_lt_minimalPeriod (by omega) (by omega)).mp same
  refine ⟨?_, injective⟩
  apply Finset.eq_of_subset_of_card_le
  · intro y member
    obtain ⟨k, -, rfl⟩ := Finset.mem_image.mp member
    exact Finset.mem_range.mpr (Nat.mod_lt _ (Nat.two_pow_pos m))
  · rw [Finset.card_image_of_injOn injective]

/-- Of `2 ^ m` steps as many meet a condition on the lowest `m` bits as numbers below `2 ^ m` do. -/
theorem card_iterates (P : ℕ → Prop) [DecidablePred P] (m x : ℕ) :
    ((Finset.range (2 ^ m)).filter fun k => P ((step a c)^[k] x % 2 ^ m)).card =
      ((Finset.range (2 ^ m)).filter P).card := by
  obtain ⟨image, injective⟩ := image_iterates multiplier increment m x
  calc ((Finset.range (2 ^ m)).filter fun k => P ((step a c)^[k] x % 2 ^ m)).card
      = (((Finset.range (2 ^ m)).image fun k => (step a c)^[k] x % 2 ^ m).filter P).card := by
        rw [Finset.filter_image, Finset.card_image_of_injOn]
        exact injective.mono (Finset.filter_subset ..)
    _ = ((Finset.range (2 ^ m)).filter P).card := by rw [image]

/-- An odd number of rounds of `2 ^ m` steps adds `2 ^ m`, an even number nothing. -/
theorem iterate_rounds (m q x : ℕ) :
    (step a c)^[2 ^ m * q] x ≡ x + 2 ^ m * q [MOD 2 ^ (m + 1)] := by
  induction q with
  | zero => exact Nat.ModEq.refl _
  | succ q ih =>
    rw [Nat.mul_succ, ← Nat.add_assoc, Nat.add_comm (2 ^ m * q), Function.iterate_add_apply]
    exact (iterate_two_pow multiplier increment m _).trans (ih.add_right _)

/-- As many steps as the bits below `m` have values leave them as they are. -/
theorem iterate_add_of_dvd {m n : ℕ} (whole : 2 ^ m ∣ n) (k x : ℕ) :
    (step a c)^[k + n] x ≡ (step a c)^[k] x [MOD 2 ^ m] := by
  obtain ⟨q, rfl⟩ := whole
  rw [Nat.add_comm, Function.iterate_add_apply]
  refine ((iterate_rounds multiplier increment m q _).of_dvd (pow_dvd_pow 2 (Nat.le_succ m))).trans ?_
  exact Nat.add_mul_mod_self_left ..

end Period

/-- Every value of the upper bits has as many numbers as the lower bits have values. -/
theorem card_upper (P : ℕ → Prop) [DecidablePred P] (low high : ℕ) :
    ((Finset.range (2 ^ (low + high))).filter fun y => P (y / 2 ^ low)).card =
      2 ^ low * ((Finset.range (2 ^ high)).filter P).card := by
  have positive := Nat.two_pow_pos low
  rw [Nat.mul_comm, ← Finset.card_range (2 ^ low), ← Finset.card_product, Finset.card_range]
  have split (v r : ℕ) (small : r < 2 ^ low) :
      (v * 2 ^ low + r) / 2 ^ low = v ∧ (v * 2 ^ low + r) % 2 ^ low = r := by
    rw [Nat.mul_comm, Nat.mul_add_div positive, Nat.mul_add_mod, Nat.div_eq_of_lt small,
      Nat.mod_eq_of_lt small]
    exact ⟨Nat.add_zero v, rfl⟩
  refine Finset.card_bij' (fun y _ => (y / 2 ^ low, y % 2 ^ low)) (fun z _ => z.1 * 2 ^ low + z.2)
    ?_ ?_ ?_ ?_
  · intro y member
    simp only [Finset.mem_filter, Finset.mem_range, Nat.pow_add] at member
    simp only [Finset.mem_product, Finset.mem_filter, Finset.mem_range]
    exact ⟨⟨Nat.div_lt_of_lt_mul member.1, member.2⟩, Nat.mod_lt _ positive⟩
  · rintro ⟨v, r⟩ member
    simp only [Finset.mem_product, Finset.mem_filter, Finset.mem_range] at member
    obtain ⟨⟨below, holds⟩, small⟩ := member
    simp only [Finset.mem_filter, Finset.mem_range, (split v r small).1]
    refine ⟨?_, holds⟩
    calc v * 2 ^ low + r < (v + 1) * 2 ^ low := by rw [Nat.succ_mul]; omega
      _ ≤ 2 ^ high * 2 ^ low := Nat.mul_le_mul_right _ below
      _ = 2 ^ (low + high) := by rw [Nat.pow_add, Nat.mul_comm]
  · intro y _
    exact Nat.div_add_mod' y _
  · rintro ⟨v, r⟩ member
    simp only [Finset.mem_product, Finset.mem_range] at member
    obtain ⟨first, second⟩ := split v r member.2
    exact Prod.ext first second

/-- Of as many steps as the bits up to a field have values, every value of the field comes equally often. -/
theorem card_field (multiplier : a % 4 = 1) (increment : c % 2 = 1) (P : ℕ → Prop) [DecidablePred P]
    (low high x : ℕ) :
    ((Finset.range (2 ^ (low + high))).filter fun k => P ((step a c)^[k] x / 2 ^ low % 2 ^ high)).card =
      2 ^ low * ((Finset.range (2 ^ high)).filter P).card := by
  rw [← card_upper P low high,
    ← card_iterates multiplier increment (fun y => P (y / 2 ^ low)) (low + high) x]
  simp only [Nat.pow_add, Nat.mod_mul_right_div_self]

theorem field_of_modEq {low high y z : ℕ} (same : y ≡ z [MOD 2 ^ (low + high)]) :
    y / 2 ^ low % 2 ^ high = z / 2 ^ low % 2 ^ high := by
  rw [← Nat.mod_mul_right_div_self, ← Nat.mod_mul_right_div_self, ← Nat.pow_add, same]

/-- What is read off a field repeats with the field and no sooner, if the field's highest bit can tell. -/
theorem repeats_iff {α : Type*} (multiplier : a % 4 = 1) (increment : c % 2 = 1) (f : ℕ → α)
    {low high v : ℕ} (small : v < 2 ^ high) (apart : f v ≠ f (v + 2 ^ high)) (n x : ℕ) :
    (∀ k, f ((step a c)^[k + n] x / 2 ^ low % 2 ^ (high + 1)) =
      f ((step a c)^[k] x / 2 ^ low % 2 ^ (high + 1))) ↔ 2 ^ (low + (high + 1)) ∣ n := by
  refine ⟨fun repeats => ?_, fun whole k => ?_⟩
  · rcases Nat.eq_zero_or_pos n with rfl | positive
    · exact dvd_zero _
    obtain ⟨j, q, odd, rfl⟩ := Nat.exists_eq_two_pow_mul_odd positive.ne'
    by_contra partly
    have short : j ≤ low + high := by
      by_contra long
      exact partly ((pow_dvd_pow 2 (by omega)).trans (dvd_mul_right ..))
    -- Some rounds of the period make an odd number of half cycles.
    have rounds (m k : ℕ) : f ((step a c)^[k + 2 ^ j * q * m] x / 2 ^ low % 2 ^ (high + 1)) =
        f ((step a c)^[k] x / 2 ^ low % 2 ^ (high + 1)) := by
      induction m with
      | zero => rfl
      | succ m ih => rw [Nat.mul_succ, ← Nat.add_assoc, repeats, ih]
    have half : 2 ^ j * q * 2 ^ (low + high - j) = 2 ^ (low + high) * q := by
      rw [Nat.mul_right_comm, ← Nat.pow_add, Nat.add_sub_cancel' short]
    have start : v * 2 ^ low ∈ Finset.range (2 ^ (low + (high + 1))) := by
      rw [Finset.mem_range, Nat.pow_add, Nat.mul_comm (2 ^ low), Nat.pow_succ]
      exact Nat.mul_lt_mul_of_pos_right (by omega) (Nat.two_pow_pos low)
    rw [← (image_iterates multiplier increment (low + (high + 1)) x).1] at start
    obtain ⟨k, -, reached⟩ := Finset.mem_image.mp start
    have first : (step a c)^[k] x / 2 ^ low % 2 ^ (high + 1) = v := by
      rw [← Nat.mod_mul_right_div_self, ← Nat.pow_add, reached, Nat.mul_div_cancel _ (Nat.two_pow_pos low)]
    have moved : (step a c)^[k + 2 ^ (low + high) * q] x ≡ v * 2 ^ low + 2 ^ (low + high)
        [MOD 2 ^ (low + (high + 1))] := by
      obtain ⟨r, rfl⟩ := odd
      rw [Nat.add_comm k, Function.iterate_add_apply]
      calc (step a c)^[2 ^ (low + high) * (2 * r + 1)] ((step a c)^[k] x)
          ≡ (step a c)^[k] x + 2 ^ (low + high) * (2 * r + 1) [MOD 2 ^ (low + (high + 1))] :=
            iterate_rounds multiplier increment (low + high) _ _
        _ ≡ v * 2 ^ low + 2 ^ (low + high) * (2 * r + 1) [MOD 2 ^ (low + (high + 1))] :=
            Nat.ModEq.add_right _ (reached ▸ (Nat.mod_modEq _ _).symm)
        _ = v * 2 ^ low + 2 ^ (low + high) + 2 ^ (low + (high + 1)) * r := by ring
        _ ≡ v * 2 ^ low + 2 ^ (low + high) [MOD 2 ^ (low + (high + 1))] := Nat.add_mul_mod_self_left ..
    have second : (step a c)^[k + 2 ^ (low + high) * q] x / 2 ^ low % 2 ^ (high + 1) = v + 2 ^ high := by
      rw [field_of_modEq moved, Nat.pow_add, Nat.mul_comm v, ← Nat.mul_add,
        Nat.mul_div_cancel_left _ (Nat.two_pow_pos low), Nat.mod_eq_of_lt]
      rw [Nat.pow_succ]
      omega
    have same := rounds (2 ^ (low + high - j)) k
    rw [half, first, second] at same
    exact apart same.symm
  · rw [field_of_modEq (iterate_add_of_dvd multiplier increment whole k x)]

end FreeGuard.Congruential
