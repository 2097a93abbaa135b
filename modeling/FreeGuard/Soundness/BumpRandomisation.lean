import FreeGuard.Proofs.Blocks
import FreeGuard.Proofs.SmallRun
import FreeGuard.Soundness.InvalidFree

/-! # Which items a random draw bumps

One random word selects an item by its low bits and decides on the bump pointer by more of the same low
bits being zero. The decision therefore falls only on draws that select item 0: the free list of any
other item is used up to its end before its bump pointer moves again.
-/

namespace FreeGuard.Soundness.BumpRandomisation

open Machine Model InvalidFree

/-- The item of the bag that serves a request. -/
def itemOf (heap : BibopHeap) (threadIndex : ℕ) (sz : size_t) (item : ℕ) : ItemRef :=
  ((threadIndex, heap.getBagNum (classSizeOf heap.build sz)), item)

/-- An allocation takes the object under the bump pointer of an item: it moves that pointer. -/
def Bumps (heap : BibopHeap) (threadIndex : ℕ) (sz : size_t) (item : ℕ) (s : HeapState) (draws : Draws) :
    Prop :=
  (heap.allocateSmallObject threadIndex sz draws s).2.position (itemOf heap threadIndex sz item) ≠
    s.position (itemOf heap threadIndex sz item)

instance (heap : BibopHeap) (threadIndex : ℕ) (sz : size_t) (item : ℕ) (s : HeapState) (draws : Draws) :
    Decidable (Bumps heap threadIndex sz item s draws) := inferInstanceAs (Decidable (_ ≠ _))

/-- How many of `BIBOP_BAG_SET_RANDOMIZER` consecutive draws bump an item. -/
def bumpCount (heap : BibopHeap) (threadIndex : ℕ) (sz : size_t) (item : ℕ) (s : HeapState)
    (first : ℕ) (guard : BitVec 32) : ℕ :=
  ((Finset.range heap.build.BIBOP_BAG_SET_RANDOMIZER).filter fun k =>
    Bumps heap threadIndex sz item s ⟨BitVec.ofNat 32 (first + k), guard⟩).card

/-- Every item with a free object is bumped by some draw, and by as many draws of a period as any other. -/
structure EvenlyRandomised (heap : BibopHeap) (threadIndex : ℕ) (sz : size_t) (s : HeapState) : Prop where
  reached : ∀ item < heap.build.BIBOP_BAG_SET_SIZE,
    IS_FREELIST_EMPTY (s.freelist (itemOf heap threadIndex sz item)) = false →
      ∃ draws, (heap.selectList draws.list).1 = item ∧ Bumps heap threadIndex sz item s draws
  even : ∀ i < heap.build.BIBOP_BAG_SET_SIZE, ∀ j < heap.build.BIBOP_BAG_SET_SIZE,
    IS_FREELIST_EMPTY (s.freelist (itemOf heap threadIndex sz i)) = false →
    IS_FREELIST_EMPTY (s.freelist (itemOf heap threadIndex sz j)) = false →
      ∀ first guard, bumpCount heap threadIndex sz i s first guard =
        bumpCount heap threadIndex sz j s first guard

variable {c : Config} {threadIndex : ℕ} {sz : size_t} {s : HeapState} {pool : Pool c} {item : ℕ}
  {draws : Draws}

/-- An allocation bumps an item exactly when its draw selects the item and the item's free list is empty
or the draw asks for the bump pointer. -/
theorem bumps_iff (rep : Represents c s pool) (thread : threadIndex < MAX_ALIVE_THREADS)
    (routed : c.build.IF_CANARY_CONDITION sz = false) (bound : item < c.items) :
    Bumps c.heap threadIndex sz item s draws ↔ (c.heap.selectList draws.list).1 = item ∧
      c.heap.UsesBump (itemOf c.heap threadIndex sz item) draws s := by
  obtain ⟨l, ref, chosen⟩ : ∃ l : Lane c, l.ref = itemOf c.heap threadIndex sz item ∧
      (c.laneOf thread routed draws = l ↔ (c.heap.selectList draws.list).1 = item) := by
    refine ⟨⟨threadIndex, c.bagNumOf sz, item, thread, Config.bagNumOf_lt routed, bound⟩, rfl, ?_⟩
    exact ⟨congrArg Lane.item, fun same => Lane.ext rfl rfl same⟩
  have move : HeapStep c.heap ⟨s, []⟩ (.malloc threadIndex sz draws) _ := .malloc _ thread routed
  obtain ⟨pool', moved, rep'⟩ := move.simulates rep
  have moves := (@Represents.position_eq_iff _ _ _ _ _ l rep rep').not
  rw [Bumps, ← chosen, ← ref]
  apply moves.trans
  cases moved with
  | reuse _ _ idle head block guards returned =>
    refine iff_of_false (fun moves => moves rfl) ?_
    rintro ⟨rfl, uses⟩
    exact idle uses
  | @bump _ _ _ _ k _ _ lane uses guards returned =>
    rw [cursor_bump, lane]
    rcases eq_or_ne l (c.laneOf thread routed draws) with same | other
    · rw [if_pos same, same]
      refine iff_of_true (by omega) ⟨rfl, lane ▸ uses⟩
    · rw [if_neg other]
      exact iff_of_false (fun moves => moves rfl) fun both => other both.1.symm

/-- The draws that select an item and ask for the bump pointer: multiples of the period, and item 0. -/
theorem selectList_forced_iff (several : 2 ≤ c.build.BIBOP_BAG_SET_SIZE) (draw : BitVec 32) :
    ((c.heap.selectList draw).1 = item ∧ (c.heap.selectList draw).2 = true) ↔
      item = 0 ∧ draw.toNat % c.build.BIBOP_BAG_SET_RANDOMIZER = 0 := by
  have mask : draw.toNat &&& c.build.BIBOP_BAG_SET_MASK =
      draw.toNat % c.build.BIBOP_BAG_SET_SIZE := Nat.and_two_pow_sub_one_eq_mod _ _
  have period : draw.toNat &&& c.build.BIBOP_BAG_SET_RANDOMIZER_MASK =
      draw.toNat % c.build.BIBOP_BAG_SET_RANDOMIZER := by
    simp only [Build.BIBOP_BAG_SET_RANDOMIZER_MASK, Build.BIBOP_BAG_SET_RANDOMIZER,
      Build.BIBOP_BAG_SET_SIZE, Build.BIBOP_BAG_SET_WEIGHT, ← Nat.pow_add, Nat.and_two_pow_sub_one_eq_mod]
  have single : ¬c.build.BIBOP_BAG_SET_SIZE ≤ 1 := by omega
  simp only [BibopHeap.selectList, Config.heap_build, if_neg single, mask, period, beq_iff_eq]
  constructor
  · rintro ⟨rfl, forced⟩
    refine ⟨Nat.mod_eq_zero_of_dvd ?_, forced⟩
    exact (Nat.dvd_mul_right _ _).trans (Nat.dvd_of_mod_eq_zero forced)
  · rintro ⟨rfl, forced⟩
    refine ⟨Nat.mod_eq_zero_of_dvd ?_, forced⟩
    exact (Nat.dvd_mul_right _ _).trans (Nat.dvd_of_mod_eq_zero forced)

/-- An item with a free object is bumped by the multiples of the period, and only if it is item 0. -/
theorem bumps_busy_iff (rep : Represents c s pool) (thread : threadIndex < MAX_ALIVE_THREADS)
    (routed : c.build.IF_CANARY_CONDITION sz = false) (several : 2 ≤ c.build.BIBOP_BAG_SET_SIZE)
    (bound : item < c.items)
    (busy : IS_FREELIST_EMPTY (s.freelist (itemOf c.heap threadIndex sz item)) = false) :
    Bumps c.heap threadIndex sz item s draws ↔
      item = 0 ∧ draws.list.toNat % c.build.BIBOP_BAG_SET_RANDOMIZER = 0 := by
  rw [bumps_iff rep thread routed bound, BibopHeap.UsesBump, busy, ← selectList_forced_iff several]
  simp

/-- A period of consecutive numbers has one multiple of its length. -/
theorem card_multiples {r : ℕ} (positive : 0 < r) (first : ℕ) :
    ((Finset.range r).filter fun k => (first + k) % r = 0).card = 1 := by
  have small := Nat.mod_lt first positive
  apply Finset.card_eq_one.mpr
  refine ⟨if first % r = 0 then 0 else r - first % r, ?_⟩
  ext k
  rw [Finset.mem_filter, Finset.mem_range, Finset.mem_singleton, Nat.add_mod]
  constructor
  · rintro ⟨below, multiple⟩
    rw [Nat.mod_eq_of_lt below] at multiple
    rcases Nat.lt_or_ge (first % r + k) r with one | two
    · rw [Nat.mod_eq_of_lt one] at multiple
      rw [if_pos (by omega)]
      omega
    · rw [Nat.mod_eq_sub_mod two, Nat.mod_eq_of_lt (by omega)] at multiple
      rw [if_neg (by omega)]
      omega
  · rintro rfl
    split
    · rename_i aligned
      exact ⟨positive, by rw [aligned, Nat.zero_mod, Nat.zero_mod]⟩
    · refine ⟨by omega, ?_⟩
      rw [Nat.mod_eq_of_lt (by omega : r - first % r < r), Nat.add_sub_cancel' small.le, Nat.mod_self]

/-- Of a period of consecutive draws, one bumps item 0, and none an item other than 0, as long as there
are free objects. -/
theorem bumpCount_eq (rep : Represents c s pool) (thread : threadIndex < MAX_ALIVE_THREADS)
    (routed : c.build.IF_CANARY_CONDITION sz = false) (several : 2 ≤ c.build.BIBOP_BAG_SET_SIZE)
    (short : c.build.bagSetPower + c.build.bagSetWeightPower ≤ 32) (bound : item < c.items)
    (busy : IS_FREELIST_EMPTY (s.freelist (itemOf c.heap threadIndex sz item)) = false)
    (first : ℕ) (guard : BitVec 32) :
    bumpCount c.heap threadIndex sz item s first guard = if item = 0 then 1 else 0 := by
  have period : c.build.BIBOP_BAG_SET_RANDOMIZER =
      2 ^ (c.build.bagSetPower + c.build.bagSetWeightPower) := (Nat.pow_add ..).symm
  have word : c.build.BIBOP_BAG_SET_RANDOMIZER ∣ 2 ^ 32 := period ▸ Nat.pow_dvd_pow 2 short
  have positive : 0 < c.build.BIBOP_BAG_SET_RANDOMIZER := period ▸ Nat.two_pow_pos _
  have bumps_iff' (k : ℕ) : Bumps c.heap threadIndex sz item s ⟨BitVec.ofNat 32 (first + k), guard⟩ ↔
      item = 0 ∧ (first + k) % c.build.BIBOP_BAG_SET_RANDOMIZER = 0 := by
    rw [bumps_busy_iff rep thread routed several bound busy, BitVec.toNat_ofNat,
      Nat.mod_mod_of_dvd _ word]
  simp only [bumpCount, Config.heap_build, bumps_iff']
  split
  · rename_i zero
    simp only [zero, true_and]
    exact card_multiples positive first
  · rename_i nonzero
    simp only [nonzero, false_and, Finset.filter_false, Finset.card_empty]

end FreeGuard.Soundness.BumpRandomisation
