import FreeGuard.Model.Arc4random
import FreeGuard.Soundness.RandomDraws
import FreeGuard.ToMathlib.Rejection

/-! # Random numbers below a bound

`arc4random_uniform` returns the residue of the first number that is not rejected, and every residue comes
from equally many numbers. `RAND_MAX` is no power of two, so of the lists that a number selects the last one
has the smallest share.
-/

namespace FreeGuard.Soundness.UniformDraws

open Model RandomDraws

variable {heap : BibopHeap} {upper_bound min v : u32} {inputs : List Arc4Inputs} {_rs_pid pid : ℕ}
  {thread after : Arc4Thread}

/-- What successive calls of `arc4random` give. -/
def drawWords : List Arc4Inputs → ℕ → Arc4Thread → Except Arc4Stop (List u32 × ℕ × Arc4Thread)
  | [], _rs_pid, thread => .ok ([], _rs_pid, thread)
  | inputs :: rest, _rs_pid, thread => do
    let (r, _rs_pid, thread) ← arc4random inputs _rs_pid thread
    let (words, _rs_pid, thread) ← drawWords rest _rs_pid thread
    .ok (r :: words, _rs_pid, thread)

/-- Successive calls reject numbers below a minimum, and then give one that is not. -/
def FirstAccepted (min : u32) (inputs : List Arc4Inputs) (_rs_pid : ℕ) (thread : Arc4Thread) (r : u32)
    (pid : ℕ) (after : Arc4Thread) : Prop :=
  ∃ used rest rejected, inputs = used ++ rest ∧
    drawWords used _rs_pid thread = .ok (rejected ++ [r], pid, after) ∧
    (∀ x ∈ rejected, x < min) ∧ min ≤ r

theorem drawWords_cons {first : Arc4Inputs} {x : u32} {p : ℕ} {mid : Arc4Thread} {words : List u32}
    (drawn : arc4random first _rs_pid thread = .ok (x, p, mid)) :
    drawWords (first :: inputs) _rs_pid thread = .ok (words, pid, after) ↔
      ∃ rest, words = x :: rest ∧ drawWords inputs p mid = .ok (rest, pid, after) := by
  rw [drawWords, drawn]
  change (drawWords inputs p mid >>= fun result => Except.ok (x :: result.1, result.2)) = _ ↔ _
  cases rest : drawWords inputs p mid with
  | error stop => exact iff_of_false (fun ok => nomatch ok) fun ⟨_, _, ok⟩ => nomatch ok
  | ok result =>
    obtain ⟨tail, pid', after'⟩ := result
    constructor
    · rintro ⟨⟩
      exact ⟨tail, rfl, rfl⟩
    · rintro ⟨_, rfl, ⟨⟩⟩
      rfl

/-- Nothing is drawn only by no call. -/
theorem drawWords_nil (drawn : drawWords inputs _rs_pid thread = .ok ([], pid, after)) :
    inputs = [] ∧ _rs_pid = pid ∧ thread = after := by
  cases inputs with
  | nil =>
    cases drawn
    exact ⟨rfl, rfl, rfl⟩
  | cons first rest =>
    cases word : arc4random first _rs_pid thread with
    | error stop =>
      rw [drawWords, word] at drawn
      exact nomatch drawn
    | ok result =>
      obtain ⟨tail, absurd, -⟩ := (drawWords_cons word).mp drawn
      exact nomatch absurd

theorem FirstAccepted.nonempty {r : u32} (first : FirstAccepted min inputs _rs_pid thread r pid after) :
    ∃ i rest, inputs = i :: rest ∧ ∃ result, arc4random i _rs_pid thread = .ok result := by
  obtain ⟨used, rest, rejected, rfl, drawn, -⟩ := first
  cases used with
  | nil =>
    rw [drawWords, Except.ok.injEq, Prod.mk.injEq] at drawn
    exact absurd drawn.1.symm (List.append_ne_nil_of_right_ne_nil rejected (List.cons_ne_nil r []))
  | cons i used =>
    refine ⟨i, used ++ rest, rfl, ?_⟩
    cases word : arc4random i _rs_pid thread with
    | error stop =>
      rw [drawWords, word] at drawn
      exact nomatch drawn
    | ok result => exact ⟨result, rfl⟩

/-- The first call is accepted, or rejected and left behind. -/
theorem FirstAccepted.cons_iff {first : Arc4Inputs} {r x : u32} {p : ℕ} {mid : Arc4Thread}
    (word : arc4random first _rs_pid thread = .ok (x, p, mid)) :
    FirstAccepted min (first :: inputs) _rs_pid thread r pid after ↔
      (min ≤ x ∧ x = r ∧ p = pid ∧ mid = after) ∨ x < min ∧ FirstAccepted min inputs p mid r pid after := by
  constructor
  · rintro ⟨used, rest, rejected, split, drawn, low, high⟩
    cases used with
    | nil =>
      rw [drawWords, Except.ok.injEq, Prod.mk.injEq] at drawn
      exact absurd drawn.1.symm (List.append_ne_nil_of_right_ne_nil rejected (List.cons_ne_nil r []))
    | cons i used =>
      obtain ⟨rfl, parts⟩ := List.cons_eq_cons.mp split
      obtain ⟨tail, words, drawn⟩ := (drawWords_cons word).mp drawn
      cases rejected with
      | nil =>
        obtain ⟨rfl, rfl⟩ := List.cons_eq_cons.mp words
        obtain ⟨-, samePid, sameThread⟩ := drawWords_nil drawn
        exact .inl ⟨high, rfl, samePid, sameThread⟩
      | cons y rejected =>
        obtain ⟨rfl, rfl⟩ := List.cons_eq_cons.mp words
        obtain ⟨first, later⟩ := List.forall_mem_cons.mp low
        exact .inr ⟨first, used, rest, rejected, parts, drawn, later, high⟩
  · rintro (⟨high, rfl, rfl, rfl⟩ | ⟨first, used, rest, rejected, rfl, drawn, low, high⟩)
    · exact ⟨[_], inputs, [], rfl, (drawWords_cons word).mpr ⟨[], rfl, rfl⟩,
        (fun _ absent => nomatch absent), high⟩
    · exact ⟨_ :: used, rest, x :: rejected, rfl, (drawWords_cons word).mpr ⟨_, rfl, drawn⟩,
        List.forall_mem_cons.mpr ⟨first, low⟩, high⟩

/-- The loop returns the residue of the first word that is not rejected. -/
theorem uniformLoop_iff : uniformLoop upper_bound min inputs _rs_pid thread = .ok (some (v, pid, after)) ↔
    ∃ r, FirstAccepted min inputs _rs_pid thread r pid after ∧ v = r % upper_bound := by
  induction inputs generalizing _rs_pid thread with
  | nil =>
    refine iff_of_false (fun ok => nomatch ok) ?_
    rintro ⟨r, first, -⟩
    obtain ⟨i, rest, absurd, -⟩ := first.nonempty
    exact nomatch absurd
  | cons first inputs ih =>
    cases word : arc4random first _rs_pid thread with
    | error stop =>
      rw [uniformLoop, word]
      refine iff_of_false (fun ok => nomatch ok) ?_
      rintro ⟨r, accepted, -⟩
      obtain ⟨i, rest, split, result, ok⟩ := accepted.nonempty
      obtain ⟨rfl, -⟩ := List.cons_eq_cons.mp split
      rw [word] at ok
      exact nomatch ok
    | ok result =>
      obtain ⟨x, p, mid⟩ := result
      simp only [FirstAccepted.cons_iff word]
      rw [uniformLoop, word]
      change (if min ≤ x then _ else _) = _ ↔ _
      split_ifs with high
      · constructor
        · rintro ⟨⟩
          exact ⟨x, .inl ⟨high, rfl, rfl, rfl⟩, rfl⟩
        · rintro ⟨r, ⟨-, rfl, rfl, rfl⟩ | ⟨low, -⟩, rfl⟩
          · rfl
          · exact absurd low (BitVec.not_lt.mpr high)
      · rw [ih]
        refine exists_congr fun r => and_congr_left fun _ => ⟨fun later => ?_, ?_⟩
        · exact .inr ⟨BitVec.not_le.mp high, later⟩
        · rintro (⟨low, -⟩ | ⟨-, later⟩)
          · exact absurd low high
          · exact later

/-- The minimum, as the comment has it. -/
theorem toNat_min (several : 2 ≤ upper_bound.toNat) :
    (-upper_bound % upper_bound).toNat = 2 ^ 32 % upper_bound.toNat := by
  have below := upper_bound.isLt
  have negated : (-upper_bound).toNat = 2 ^ 32 - upper_bound.toNat := by
    rw [BitVec.toNat_neg, Nat.mod_eq_of_lt (by omega)]
  rw [BitVec.toNat_umod, negated, ← Nat.mod_eq_sub_mod below.le]

/-- The words that are not rejected and whose residue meets a condition. -/
def accepted (upper_bound : u32) (P : u32 → Prop) [DecidablePred P] : Finset ℕ :=
  (Finset.range (2 ^ 32)).filter fun w =>
    -upper_bound % upper_bound ≤ BitVec.ofNat 32 w ∧ P (BitVec.ofNat 32 w % upper_bound)

theorem card_accepted (several : 2 ≤ upper_bound.toNat) (P : u32 → Prop) [DecidablePred P] :
    (accepted upper_bound P).card = 2 ^ 32 / upper_bound.toNat *
      ((Finset.range upper_bound.toNat).filter fun r => P (BitVec.ofNat 32 r)).card := by
  rw [← Rejection.card_accepted (fun r => P (BitVec.ofNat 32 r)) (by omega)]
  refine congrArg Finset.card (Finset.filter_congr fun w member => ?_)
  have word : (BitVec.ofNat 32 w).toNat = w := by
    rw [BitVec.toNat_ofNat, Nat.mod_eq_of_lt (Finset.mem_range.mp member)]
  have residue : BitVec.ofNat 32 w % upper_bound = BitVec.ofNat 32 (w % upper_bound.toNat) := by
    apply BitVec.eq_of_toNat_eq
    have small := Nat.mod_lt w (by omega : 0 < upper_bound.toNat)
    rw [BitVec.toNat_umod, word, BitVec.toNat_ofNat, Nat.mod_eq_of_lt (small.trans upper_bound.isLt)]
  rw [BitVec.le_def, toNat_min several, word, residue]

/-- A bounded random number is the residue of the first word that is not rejected; every number below the
bound comes from equally many words, and of any word more than half the values are not rejected. -/
theorem uniform (several : 2 ≤ upper_bound.toNat) :
    (∀ inputs _rs_pid thread v pid after,
      arc4random_uniform upper_bound inputs _rs_pid thread = .ok (some (v, pid, after)) ↔
        ∃ r, FirstAccepted (-upper_bound % upper_bound) inputs _rs_pid thread r pid after ∧
          v = r % upper_bound) ∧
    (∀ v < upper_bound, (accepted upper_bound (· = v)).card = 2 ^ 32 / upper_bound.toNat) ∧
    2 ^ 31 < (accepted upper_bound fun _ => True).card := by
  refine ⟨fun inputs _rs_pid thread v pid after => ?_, fun v below => ?_, ?_⟩
  · have more : ¬upper_bound < 2 := BitVec.not_lt.mpr (BitVec.le_def.mpr several)
    rw [arc4random_uniform, if_neg more]
    exact uniformLoop_iff
  · have one : (Finset.range upper_bound.toNat).filter (fun r => BitVec.ofNat 32 r = v) = {v.toNat} := by
      ext r
      rw [Finset.mem_filter, Finset.mem_range, Finset.mem_singleton]
      constructor
      · rintro ⟨small, rfl⟩
        rw [BitVec.toNat_ofNat, Nat.mod_eq_of_lt (small.trans upper_bound.isLt)]
      · rintro rfl
        exact ⟨below, by rw [BitVec.ofNat_toNat, BitVec.setWidth_eq]⟩
    rw [card_accepted several, one, Finset.card_singleton, Nat.mul_one]
  · have rounds := Nat.div_add_mod (2 ^ 32) upper_bound.toNat
    have half := Rejection.mod_lt_half (by omega : 0 < upper_bound.toNat) upper_bound.isLt.le
    rw [card_accepted several, Finset.filter_true_of_mem fun _ _ => trivial, Finset.card_range, Nat.mul_comm]
    omega

theorem uniform_rand_max :
    (∀ v < RAND_MAX, (accepted RAND_MAX (· = v)).card = 2) ∧
      2 ^ 31 < (accepted RAND_MAX fun _ => True).card :=
  (uniform (by decide : 2 ≤ RAND_MAX.toNat)).2

/-! ## The decisions of an allocation -/

/-- One number is missing from the numbers of 31 bits, the one whose bits are all set. -/
theorem card_low_bits {bits r : ℕ} (few : bits ≤ 31) (below : r < 2 ^ bits) :
    ((Finset.range (2 ^ 31 - 1)).filter fun v => v % 2 ^ bits = r).card =
      2 ^ (31 - bits) - if r + 1 = 2 ^ bits then 1 else 0 := by
  have positive := Nat.two_pow_pos bits
  have rounds : 2 ^ 31 = 2 ^ bits * 2 ^ (31 - bits) := by rw [← Nat.pow_add, Nat.add_sub_cancel' few]
  have some := Nat.two_pow_pos (31 - bits)
  obtain ⟨k, more⟩ : ∃ k, 2 ^ (31 - bits) = k + 1 := ⟨2 ^ (31 - bits) - 1, by omega⟩
  have total : 2 ^ 31 - 1 = 2 ^ bits * k + (2 ^ bits - 1) := by
    rw [rounds, more, Nat.mul_succ]
    omega
  have quotient : (2 ^ 31 - 1) / 2 ^ bits = k := by
    rw [total, Nat.mul_add_div positive, Nat.div_eq_of_lt (by omega), Nat.add_zero]
  have remainder : (2 ^ 31 - 1) % 2 ^ bits = 2 ^ bits - 1 := by
    rw [total, Nat.mul_add_mod, Nat.mod_eq_of_lt (by omega)]
  have count := Nat.count_modEq_card (2 ^ 31 - 1) positive r
  rw [Nat.count_eq_card_filter_range, Nat.mod_eq_of_lt below, quotient, remainder] at count
  simp only [Nat.ModEq, Nat.mod_eq_of_lt below] at count
  rw [count, more]
  split_ifs <;> omega

theorem card_rand_max (P : ℕ → Prop) [DecidablePred P] :
    (accepted RAND_MAX fun r => P r.toNat).card = 2 * ((Finset.range (2 ^ 31 - 1)).filter P).card := by
  have words : 2 ^ 32 / RAND_MAX.toNat = 2 := rfl
  have bound : RAND_MAX.toNat = 2 ^ 31 - 1 := rfl
  rw [card_accepted (by decide), words, bound]
  refine congrArg (2 * ·) (congrArg Finset.card (Finset.filter_congr fun r member => ?_))
  rw [BitVec.toNat_ofNat, Nat.mod_eq_of_lt]
  exact (Finset.mem_range.mp member).trans (by decide)

/-- Of the words that `getRandomNumber` does not reject in a build with `ARC4RNG`, every list is selected by
equally many but for the last, which is selected by two less; one in `BIBOP_BAG_SET_RANDOMIZER`, rounded up,
forces the bump pointer, and one in ten, rounded up, sets a random guard. -/
theorem shares (heap : BibopHeap) :
    (heap.build.bagSetPower ≤ 31 → ∀ item < heap.build.BIBOP_BAG_SET_SIZE,
      (accepted RAND_MAX fun r => (heap.selectList r).1 = item).card =
        2 * (2 ^ (31 - heap.build.bagSetPower) - if item + 1 = heap.build.BIBOP_BAG_SET_SIZE then 1 else 0)) ∧
    (1 ≤ heap.build.bagSetPower → heap.build.bagSetPower + heap.build.bagSetWeightPower ≤ 31 →
      (accepted RAND_MAX fun r => (heap.selectList r).2 = true).card =
        2 * 2 ^ (31 - (heap.build.bagSetPower + heap.build.bagSetWeightPower))) ∧
    (heap.build.sse2rng = false →
      (accepted RAND_MAX fun r => heap.build.belowGuardCutoff r.toInt = true).card = 2 * 214748365) := by
  refine ⟨fun few item bound => ?_, fun several few => ?_, fun libc => ?_⟩
  · simp only [selectList_list]
    rw [card_rand_max fun v => v % 2 ^ heap.build.bagSetPower = item, card_low_bits few bound]
    rfl
  · have first : ¬0 + 1 = 2 ^ (heap.build.bagSetPower + heap.build.bagSetWeightPower) :=
      (Nat.one_lt_two_pow (by omega)).ne
    simp only [selectList_forced several, beq_iff_eq]
    rw [card_rand_max fun v => v % 2 ^ (heap.build.bagSetPower + heap.build.bagSetWeightPower) = 0,
      card_low_bits few (Nat.two_pow_pos _), if_neg first, Nat.sub_zero]
  · have below : (Finset.range (2 ^ 31 - 1)).filter
        (fun v => heap.build.belowGuardCutoff (BitVec.ofNat 32 v).toInt = true) = Finset.range 214748365 := by
      ext v
      rw [Finset.mem_filter, Finset.mem_range, Finset.mem_range]
      have value (small : v < 2 ^ 31 - 1) : (BitVec.ofNat 32 v).toInt = v := by
        have word : (BitVec.ofNat 32 v).toNat = v := by
          rw [BitVec.toNat_ofNat, Nat.mod_eq_of_lt (by omega)]
        rw [BitVec.toInt_eq_toNat_of_lt (by omega), word]
      constructor
      · rintro ⟨small, low⟩
        rw [value small, Build.belowGuardCutoff, Build.RNG_MAX, libc, decide_eq_true_eq] at low
        simp only [Bool.false_eq_true, if_false] at low
        omega
      · intro low
        have small : v < 2 ^ 31 - 1 := by omega
        refine ⟨small, ?_⟩
        rw [value small, Build.belowGuardCutoff, Build.RNG_MAX, libc, decide_eq_true_eq]
        simp only [Bool.false_eq_true, if_false]
        omega
    have words : 2 ^ 32 / RAND_MAX.toNat = 2 := rfl
    have bound : RAND_MAX.toNat = 2 ^ 31 - 1 := rfl
    rw [card_accepted (by decide), words, bound, below, Finset.card_range]

/-- Four lists: the last one is selected by `2 ^ 30 - 2` words, each other one by `2 ^ 30`. -/
theorem shares_makefile :
    (accepted RAND_MAX fun r => (Config.makefile.heap.selectList r).1 = 3).card = 2 * (2 ^ 29 - 1) ∧
    (accepted RAND_MAX fun r => (Config.makefile.heap.selectList r).2 = true).card = 2 * 2 ^ 26 :=
  ⟨(shares Config.makefile.heap).1 (by decide) 3 (by decide),
    (shares Config.makefile.heap).2.1 (by decide) (by decide)⟩

end FreeGuard.Soundness.UniformDraws
