import FreeGuard.Proofs.Layout
import FreeGuard.Proofs.Sse2rng

/-! # What a thread draws

A thread's draws come from its own seed, one call of `rand_sse` after the other. Whatever the seed, they
come round after `2 ^ 31` calls, and over a full round of the bits that are read every list, every forced
use of a bump pointer and every random guard comes exactly as often as its share says.
-/

namespace FreeGuard.Soundness.RandomDraws

open Model

variable {heap : BibopHeap} {seed : M128i} {k n first : ℕ}

/-- The seed of a thread after some calls of `rand_sse`. -/
def seedAfter (seed : M128i) (calls : ℕ) : M128i := (fun s => (rand_sse s).2)^[calls] seed

/-- What a call of `getRandomNumber` returns after some earlier ones. -/
def drawAfter (seed : M128i) (calls : ℕ) : BitVec 32 := (getRandomNumber (seedAfter seed calls)).1

/-- The multiplier of the generator in a lane. -/
def multiplier (i : ℕ) : ℕ := ((⟨214013, 17405, 214013, 69069⟩ : M128i).lane i).toNat

/-- The increment of the generator in a lane. -/
def increment (i : ℕ) : ℕ := ((⟨2531011, 10395331, 13737667, 1⟩ : M128i).lane i).toNat

theorem multiplier_mod (i : ℕ) : multiplier i % 4 = 1 := by
  rcases i with _ | _ | _ | i <;> simp [multiplier, M128i.lane]

theorem increment_mod (i : ℕ) : increment i % 2 = 1 := by
  rcases i with _ | _ | _ | i <;> simp [increment, M128i.lane]

/-- The numbers that a lane's generator runs through, nothing reduced. -/
abbrev orbit (seed : M128i) (i k : ℕ) : ℕ :=
  (Congruential.step (multiplier i) (increment i))^[k] (seed.lane i).toNat

theorem seedAfter_succ (seed : M128i) (k : ℕ) :
    seedAfter seed (k + 1) = (rand_sse (seedAfter seed k)).2 := by
  rw [seedAfter, Function.iterate_succ_apply']
  rfl

/-- A lane steps on its own, modulo `2 ^ 32`. -/
theorem seedAfter_reduced (seed : M128i) (i k : ℕ) :
    ((seedAfter seed k).lane i).toNat =
      (Congruential.reduced (multiplier i) (increment i) 32)^[k] (seed.lane i).toNat := by
  induction k with
  | zero => rfl
  | succ k ih =>
    rw [Function.iterate_succ_apply', ← ih, seedAfter_succ, rand_sse_seed, M128i.lane_zip, M128i.lane_zip,
      toNat_step]
    rfl

/-- What a call gives in a lane. -/
theorem result_lane (seed : M128i) (i k : ℕ) :
    ((rand_sse (seedAfter seed k)).1.lane i).toNat = orbit seed i (k + 1) / 2 ^ 16 % 2 ^ 15 := by
  have reduced : ((seedAfter seed (k + 1)).lane i).toNat = orbit seed i (k + 1) % 2 ^ 32 := by
    rw [seedAfter_reduced, orbit, ← Congruential.iterate_reduced, Nat.mod_eq_of_lt (BitVec.isLt _)]
  have inner : 2 ^ 31 ∣ 2 ^ 32 := pow_dvd_pow 2 (by decide)
  rw [rand_sse_results, M128i.lane_map, toNat_result, ← seedAfter_succ, reduced]
  exact @Congruential.field_of_modEq 16 15 _ _ ((Nat.mod_modEq _ _).of_dvd inner)

theorem results_repeat_iff (seed : M128i) (i n : ℕ) :
    (∀ k, (rand_sse (seedAfter seed (k + n))).1.lane i = (rand_sse (seedAfter seed k)).1.lane i) ↔
      2 ^ 31 ∣ n := by
  have repeats := @Congruential.repeats_iff _ _ _ (multiplier_mod i) (increment_mod i) id 16 14 0
    (by decide) (by decide) n (orbit seed i 1)
  simp only [id_eq, ← Function.iterate_add_apply] at repeats
  rw [← repeats]
  refine forall_congr' fun k => ?_
  rw [← BitVec.toNat_inj, result_lane, result_lane, Nat.add_right_comm]

theorem seed_repeats_iff (seed : M128i) (n : ℕ) : seedAfter seed n = seed ↔ 2 ^ 32 ∣ n := by
  have lane (i : ℕ) : (seedAfter seed n).lane i = seed.lane i ↔ 2 ^ 32 ∣ n := by
    have period := Congruential.minimalPeriod_reduced (multiplier_mod i) (increment_mod i) 32
      (seed.lane i).toNat
    rw [Nat.mod_eq_of_lt (BitVec.isLt _)] at period
    rw [← BitVec.toNat_inj, seedAfter_reduced, ← period, ← Function.isPeriodicPt_iff_minimalPeriod_dvd]
    rfl
  exact ⟨fun same => (lane 0).mp (congrArg (M128i.lane · 0) same),
    fun whole => M128i.lane_ext fun i => (lane i).mpr whole⟩

/-- Each lane is a generator of its own: it gives bits 16 to 30 of its numbers, the results of a lane
repeat after `2 ^ 31` calls and the seed after `2 ^ 32`, neither any sooner. -/
theorem four_generators (seed : M128i) :
    (∀ i k, ((rand_sse (seedAfter seed k)).1.lane i).toNat = orbit seed i (k + 1) / 2 ^ 16 % 2 ^ 15) ∧
    (∀ i n, (∀ k, (rand_sse (seedAfter seed (k + n))).1.lane i = (rand_sse (seedAfter seed k)).1.lane i) ↔
      2 ^ 31 ∣ n) ∧
    (∀ n, seedAfter seed n = seed ↔ 2 ^ 32 ∣ n) :=
  ⟨result_lane seed, results_repeat_iff seed, seed_repeats_iff seed⟩

/-! ## The decisions of an allocation -/

theorem toNat_drawAfter (seed : M128i) (k : ℕ) :
    (drawAfter seed k).toNat = orbit seed 0 (k + 1) / 2 ^ 16 % 2 ^ 15 :=
  result_lane seed 0 k

/-- Some low bits of a draw. -/
theorem drawAfter_mod {bits : ℕ} (few : bits ≤ 15) (seed : M128i) (k : ℕ) :
    (drawAfter seed k).toNat % 2 ^ bits = orbit seed 0 (k + 1) / 2 ^ 16 % 2 ^ bits := by
  rw [toNat_drawAfter, Nat.mod_mod_of_dvd _ (pow_dvd_pow 2 few)]

/-- Over a full round of some low bits, every value of them comes equally often. -/
theorem card_draws (P : ℕ → Prop) [DecidablePred P] {bits : ℕ} (few : bits ≤ 15) (seed : M128i)
    (first : ℕ) :
    ((Finset.range (2 ^ (16 + bits))).filter fun k =>
      P ((drawAfter seed (first + k)).toNat % 2 ^ bits)).card =
      2 ^ 16 * ((Finset.range (2 ^ bits)).filter P).card := by
  rw [← Congruential.card_field (multiplier_mod 0) (increment_mod 0) P 16 bits (orbit seed 0 (first + 1))]
  simp only [drawAfter_mod few, ← Function.iterate_add_apply]
  congr 1
  refine Finset.filter_congr fun k _ => ?_
  rw [Nat.add_right_comm, Nat.add_comm (first + 1)]

theorem selectList_list (heap : BibopHeap) (draw : BitVec 32) :
    (heap.selectList draw).1 = draw.toNat % 2 ^ heap.build.bagSetPower := by
  rw [BibopHeap.selectList, Build.BIBOP_BAG_SET_MASK, Build.BIBOP_BAG_SET_SIZE]
  split_ifs with single
  · have zero : heap.build.bagSetPower = 0 := by
      by_contra several
      exact absurd single (Nat.not_le.mpr (Nat.one_lt_two_pow several))
    rw [zero, Nat.pow_zero, Nat.mod_one]
  · exact Nat.and_two_pow_sub_one_eq_mod _ _

theorem randomizer_eq (build : Build) :
    build.BIBOP_BAG_SET_RANDOMIZER = 2 ^ (build.bagSetPower + build.bagSetWeightPower) :=
  (Nat.pow_add ..).symm

theorem selectList_forced {heap : BibopHeap} (several : 1 ≤ heap.build.bagSetPower) (draw : BitVec 32) :
    (heap.selectList draw).2 =
      (draw.toNat % 2 ^ (heap.build.bagSetPower + heap.build.bagSetWeightPower) == 0) := by
  have more : ¬heap.build.BIBOP_BAG_SET_SIZE ≤ 1 := Nat.not_le.mpr (Nat.one_lt_two_pow (by omega))
  rw [BibopHeap.selectList, if_neg more, Build.BIBOP_BAG_SET_RANDOMIZER_MASK, randomizer_eq,
    Nat.and_two_pow_sub_one_eq_mod]

theorem belowGuardCutoff_drawAfter {build : Build} (sse : build.sse2rng = true) (seed : M128i) (k : ℕ) :
    build.belowGuardCutoff (drawAfter seed k).toInt = true ↔ (drawAfter seed k).toNat % 2 ^ 15 < 3277 := by
  have small : (drawAfter seed k).toNat < 2 ^ 15 := by
    rw [toNat_drawAfter]
    exact Nat.mod_lt _ (by decide)
  have value : (drawAfter seed k).toInt = ((drawAfter seed k).toNat : ℤ) :=
    BitVec.toInt_eq_toNat_of_lt (by omega)
  rw [Nat.mod_eq_of_lt small, Build.belowGuardCutoff, Build.RNG_MAX, if_pos sse, value, decide_eq_true_eq]
  omega

/-- Over a full round of the bits read, from any call on: every list is selected equally often, one draw in
`BIBOP_BAG_SET_RANDOMIZER` forces the bump pointer, and 3277 in `RNG_MAX` set a random guard. -/
theorem draws_even (heap : BibopHeap) (seed : M128i) (first : ℕ) :
    (heap.build.bagSetPower ≤ 15 → ∀ item < heap.build.BIBOP_BAG_SET_SIZE,
      ((Finset.range (2 ^ 16 * heap.build.BIBOP_BAG_SET_SIZE)).filter fun k =>
        (heap.selectList (drawAfter seed (first + k))).1 = item).card = 2 ^ 16) ∧
    (1 ≤ heap.build.bagSetPower → heap.build.bagSetPower + heap.build.bagSetWeightPower ≤ 15 →
      ((Finset.range (2 ^ 16 * heap.build.BIBOP_BAG_SET_RANDOMIZER)).filter fun k =>
        (heap.selectList (drawAfter seed (first + k))).2 = true).card = 2 ^ 16) ∧
    (heap.build.sse2rng = true →
      ((Finset.range (2 ^ 16 * heap.build.RNG_MAX)).filter fun k =>
        heap.build.belowGuardCutoff (drawAfter seed (first + k)).toInt = true).card = 2 ^ 16 * 3277) := by
  have one {bits v : ℕ} (below : v < 2 ^ bits) : ((Finset.range (2 ^ bits)).filter (· = v)).card = 1 := by
    rw [Finset.filter_eq', if_pos (Finset.mem_range.mpr below), Finset.card_singleton]
  refine ⟨fun few item bound => ?_, fun several few => ?_, fun sse => ?_⟩
  · have count := card_draws (· = item) few seed first
    rw [one bound, Nat.mul_one, Nat.pow_add] at count
    simp only [selectList_list]
    exact count
  · have count := card_draws (· = 0) few seed first
    rw [one (Nat.two_pow_pos _), Nat.mul_one, Nat.pow_add 2 16] at count
    simpa only [selectList_forced several, beq_iff_eq, randomizer_eq] using count
  · have count := card_draws (· < 3277) (Nat.le_refl 15) seed first
    have below : (Finset.range (2 ^ 15)).filter (· < 3277) = Finset.range 3277 := by
      ext v
      rw [Finset.mem_filter, Finset.mem_range, Finset.mem_range]
      omega
    rw [below, Finset.card_range, Nat.pow_add] at count
    rw [Build.RNG_MAX, if_pos sse]
    simpa only [belowGuardCutoff_drawAfter sse] using count

/-- Of `2 ^ 21` draws of a build without further flags, `2 ^ 16` force the bump pointer. -/
theorem draws_even_makefile :
    ((Finset.range (2 ^ 16 * Build.makefile.BIBOP_BAG_SET_RANDOMIZER)).filter fun k =>
      (Config.makefile.heap.selectList (drawAfter (srand_sse 0) (0 + k))).2 = true).card = 2 ^ 16 :=
  (draws_even Config.makefile.heap (srand_sse 0) 0).2.1 (by decide) (by decide)

/-- The selections repeat after `2 ^ 16` times `BIBOP_BAG_SET_RANDOMIZER` draws and no sooner. -/
theorem selection_repeats_iff (heap : BibopHeap) (several : 1 ≤ heap.build.bagSetPower)
    (few : heap.build.bagSetPower + heap.build.bagSetWeightPower ≤ 15) (seed : M128i) (n : ℕ) :
    (∀ k, heap.selectList (drawAfter seed (k + n)) = heap.selectList (drawAfter seed k)) ↔
      2 ^ 16 * heap.build.BIBOP_BAG_SET_RANDOMIZER ∣ n := by
  obtain ⟨high, bits⟩ : ∃ high, heap.build.bagSetPower + heap.build.bagSetWeightPower = high + 1 :=
    ⟨heap.build.bagSetPower + heap.build.bagSetWeightPower - 1, by omega⟩
  have size : 2 ^ 16 * heap.build.BIBOP_BAG_SET_RANDOMIZER = 2 ^ (16 + (high + 1)) := by
    rw [randomizer_eq, ← Nat.pow_add, bits]
  have read (k : ℕ) : heap.selectList (drawAfter seed k) =
      (orbit seed 0 (k + 1) / 2 ^ 16 % 2 ^ (high + 1) % 2 ^ heap.build.bagSetPower,
        orbit seed 0 (k + 1) / 2 ^ 16 % 2 ^ (high + 1) == 0) := by
    have inner : 2 ^ heap.build.bagSetPower ∣ 2 ^ (high + 1) := pow_dvd_pow 2 (by omega)
    refine Prod.ext ?_ ?_
    · rw [selectList_list, drawAfter_mod (by omega), Nat.mod_mod_of_dvd _ inner]
    · rw [selectList_forced several, drawAfter_mod few, bits]
  have repeats := @Congruential.repeats_iff _ _ _ (multiplier_mod 0) (increment_mod 0)
    (fun v => (v % 2 ^ heap.build.bagSetPower, v == 0)) 16 high 0 (Nat.two_pow_pos high)
    (by simp) n (orbit seed 0 1)
  rw [size, ← repeats]
  refine forall_congr' fun k => ?_
  simp only [read, ← Function.iterate_add_apply]

/-- A build without further flags selects its lists by a pattern of `2 ^ 21` draws. -/
theorem selection_repeats_makefile :
    (∀ k, Config.makefile.heap.selectList (drawAfter (srand_sse 0) (k + 2 ^ 21)) =
      Config.makefile.heap.selectList (drawAfter (srand_sse 0) k)) ∧
    ¬∀ k, Config.makefile.heap.selectList (drawAfter (srand_sse 0) (k + 2 ^ 20)) =
      Config.makefile.heap.selectList (drawAfter (srand_sse 0) k) := by
  have repeats := selection_repeats_iff Config.makefile.heap (by decide) (by decide) (srand_sse 0)
  exact ⟨(repeats _).mpr (by decide), fun sooner => absurd ((repeats _).mp sooner) (by decide)⟩

end FreeGuard.Soundness.RandomDraws
