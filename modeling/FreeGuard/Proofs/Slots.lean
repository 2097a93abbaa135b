import FreeGuard.Proofs.Layout

/-! # Object slots and their shadow entries

A `Slot` is a place of an object: a heap, a thread, a usable bag and an index below the bag's object
count. Within its heap a slot has a rank, and its shadow entry is the one of that rank. Both decoders
find the bag and the entry of a slot from its address, and the encoder returns to the address. For an
address that is no slot the decoder still yields an entry; `rankAt` says of which rank.
-/

namespace FreeGuard.Model

/-- A place of an object. -/
@[ext] structure Slot (c : Config) where
  heap : ℕ
  thread : ℕ
  bag : ℕ
  index : ℕ
  thread_lt : thread < MAX_ALIVE_THREADS
  bag_lt : bag < c.usable
  index_lt : index < c.numObjects bag

/-- Inside `[_heapBegin, _heapEnd)`. -/
def Inside (heap : BibopHeap) (addr size : ℕ) : Prop :=
  heap._heapBegin ≤ addr ∧ addr + size ≤ heap._heapEnd

namespace Config

variable (c : Config) {h t b off : ℕ}

/-- The shadow entry of a rank in a heap. -/
def entryAt (h r : ℕ) : ℕ := c.shadowMemBegin + h * 2 ^ c.ceilPower + r * c.infoSize

/-- The rank of the shadow entry that the decoder yields for an offset in a bag. -/
def rankAt (t b off : ℕ) : ℕ :=
  if b < c.usable then t * c.objectsPerThread + c.objectsBefore b + off / classSize b else off

/-- The ranks of the shadow entries of a heap. -/
def ranks : ℕ := MAX_ALIVE_THREADS * c.objectsPerThread

/-! ## Decoding an address -/

theorem bagBegin_add (h t b off : ℕ) : c.bagBegin h t b + off - c.heapBegin =
    Radix.offset MAX_ALIVE_THREADS c.numBags c.bagSize h t b off := by
  rw [bagBegin, startOffset, heapSize, threadSize, Radix.offset]
  omega

/-- Every address from `_heapBegin` on lies in a bag of a heap. -/
theorem exists_place {addr : ℕ} (inside : c.heapBegin ≤ addr) : ∃ h t b off,
    t < MAX_ALIVE_THREADS ∧ b < c.numBags ∧ off < c.bagSize ∧ addr = c.bagBegin h t b + off := by
  obtain ⟨h, t, b, off, thread, bag, small, digits⟩ :=
    Radix.exists_digits (show 0 < MAX_ALIVE_THREADS by decide)
    c.numBags_pos c.bagSize_pos (addr - c.heapBegin)
  refine ⟨h, t, b, off, thread, bag, small, ?_⟩
  have lower : c.heapBegin ≤ c.bagBegin h t b := by
    rw [bagBegin]
    omega
  rw [← bagBegin_add] at digits
  omega

variable {c}

theorem heapIndex_at (thread : t < MAX_ALIVE_THREADS) (bag : b < c.numBags) (small : off < c.bagSize) :
    c.heap.heapIndex (c.bagBegin h t b + off) = h := by
  rw [BibopHeap.heapIndex, heap_heapBegin, bagBegin_add, heap_bagShiftBits,
    heap_numBagsPerHeapShiftBits, Nat.shiftRight_eq_div_pow, Nat.shiftRight_eq_div_pow, Nat.pow_add,
    ← numBags_eq_pow]
  exact Radix.offset_group small bag thread

theorem localBagOffset_at (small : off < c.bagSize) :
    c.heap.localBagOffset (c.bagBegin h t b + off) = off := by
  rw [BibopHeap.localBagOffset, heap_heapBegin, bagBegin_add, heap_bagMask,
    Nat.and_two_pow_sub_one_eq_mod]
  exact Radix.offset_mod_cell small

theorem bagOf_at (thread : t < MAX_ALIVE_THREADS) (bag : b < c.numBags) (small : off < c.bagSize) :
    c.heap.bagOf (c.bagBegin h t b + off) = (t, b) := by
  simp only [BibopHeap.bagOf, heap_heapBegin, bagBegin_add, heap_heapMask, heap_bagShiftBits,
    heap_threadShiftBits, heap_numBagsPerSubHeapMask, Nat.and_two_pow_sub_one_eq_mod,
    Nat.shiftRight_eq_div_pow]
  rw [← heapSize_eq_pow, ← threadSize_eq_pow, ← numBags_eq_pow]
  exact Prod.ext (Radix.offset_row small bag thread) (Radix.offset_cell small bag)

theorem numBagSetItem_at (thread : t < MAX_ALIVE_THREADS) (bag : b < c.numBags)
    (small : off < c.bagSize) :
    c.heap.numBagSetItem (c.bagBegin h t b + off) = h % c.items := by
  rw [BibopHeap.numBagSetItem, heap_build, heapIndex_at thread bag small, items,
    Build.BIBOP_BAG_SET_MASK, Build.BIBOP_BAG_SET_SIZE, Nat.and_two_pow_sub_one_eq_mod]
  split
  · rename_i single
    rw [show 2 ^ c.build.bagSetPower = 1 from le_antisymm single (Nat.two_pow_pos _), Nat.mod_one]
  · rfl

/-- The decoder on a usable bag. -/
theorem getShadowObjectInfo_usable (thread : t < MAX_ALIVE_THREADS) (usable : b < c.usable)
    (small : off < c.bagSize) :
    c.heap.getShadowObjectInfo (c.bagBegin h t b + off) =
      if off % classSize b ≠ 0 then
        .error (.invalidObject (c.bagBegin h t b + off) (classSize b) (classSize b - 1) off)
      else .ok ((t, b), h % c.items, c.entryAt h (c.rankAt t b off)) := by
  have bag := Nat.lt_of_lt_of_le usable c.usable_le_numBags
  simp only [BibopHeap.getShadowObjectInfo, numBagSetItem_at thread bag small,
    bagOf_at thread bag small, localBagOffset_at small, heapIndex_at thread bag small,
    heap_threadBag thread usable, heap_shadowMemBegin, heap_ceilShiftBits,
    heap_shadowObjectInfoSize, Nat.shiftLeft_eq, Nat.shiftRight_eq_div_pow]
  rw [rankAt, if_pos usable]
  change (if off &&& (2 ^ (b + 4) - 1) ≠ 0 then _ else Except.ok (_, _,
    _ + (t * c.objectsPerThread + c.objectsBefore b) * c.infoSize + off / classSize b * c.infoSize)) = _
  rw [Nat.and_two_pow_sub_one_eq_mod, entryAt, Nat.add_mul _ (off / classSize b), Nat.add_assoc _ _
    (off / classSize b * c.infoSize)]
  rfl

/-- The decoder on a bag that `initialize` leaves zero: every address passes, with its offset as the
rank. -/
theorem getShadowObjectInfo_unusable (thread : t < MAX_ALIVE_THREADS) (bag : b < c.numBags)
    (unusable : c.usable ≤ b) (small : off < c.bagSize) :
    c.heap.getShadowObjectInfo (c.bagBegin h t b + off) =
      .ok ((t, b), h % c.items, c.entryAt h (c.rankAt t b off)) := by
  simp only [BibopHeap.getShadowObjectInfo, numBagSetItem_at thread bag small,
    bagOf_at thread bag small, localBagOffset_at small, heapIndex_at thread bag small,
    heap_unusable t unusable, heap_shadowMemBegin, heap_ceilShiftBits,
    heap_shadowObjectInfoSize, Nat.shiftLeft_eq, Nat.shiftRight_eq_div_pow]
  have rank : c.rankAt t b off = off := by rw [rankAt, if_neg (by omega)]
  simp [rank, entryAt, PerThreadBag.zero]

/-- The overload that is given the bag. -/
theorem getShadowObjectInfoIn_at (thread : t < MAX_ALIVE_THREADS) (usable : b < c.usable)
    (small : off < c.bagSize) :
    c.heap.getShadowObjectInfoIn (c.bagBegin h t b + off) (t, b) =
      c.entryAt h (c.rankAt t b off) := by
  have bag := Nat.lt_of_lt_of_le usable c.usable_le_numBags
  simp only [BibopHeap.getShadowObjectInfoIn, localBagOffset_at small, heapIndex_at thread bag small,
    heap_threadBag thread usable, heap_shadowMemBegin, heap_ceilShiftBits,
    heap_shadowObjectInfoSize, Nat.shiftLeft_eq, Nat.shiftRight_eq_div_pow]
  rw [rankAt, if_pos usable, entryAt, Nat.add_mul _ (off / classSize b), ← Nat.add_assoc]
  rfl

/-! ## The bounds of the heap -/

/-- Bytes of a thread's part of a heap are inside exactly when the heap exists. -/
theorem inside_iff {h th b off size : ℕ} (thread : th < MAX_ALIVE_THREADS)
    (fits : b * c.bagSize + off + size ≤ c.threadSize) (some : 0 < size) :
    Inside c.heap (c.bagBegin h th b + off) size ↔ h < BIBOP_NUM_HEAPS := by
  have rows := Nat.mul_le_mul_right c.threadSize thread
  rw [Nat.succ_mul, ← heapSize_eq] at rows
  have place : c.bagBegin h th b = c.heapBegin + h * c.heapSize + (th * c.threadSize + b * c.bagSize) :=
    rfl
  rw [Inside, heap_heapBegin, heap_heapEnd]
  constructor
  · intro inside
    by_contra! outside
    have heaps := Nat.mul_le_mul_right c.heapSize outside
    omega
  · intro exists'
    have heaps := Nat.mul_le_mul_right c.heapSize exists'
    rw [Nat.succ_mul] at heaps
    omega

theorem bag_fits {b : ℕ} (usable : b < c.usable) : b * c.bagSize + c.bagSize ≤ c.threadSize := by
  rw [← Nat.succ_mul]
  exact Nat.mul_le_mul_right _ (Nat.lt_of_lt_of_le usable c.usable_le_numBags)

/-- A block of a usable bag is inside exactly when its heap exists. -/
theorem block_inside_iff {h th b i : ℕ} (thread : th < MAX_ALIVE_THREADS) (usable : b < c.usable)
    (small : i * classSize b < c.bagSize) :
    Inside c.heap (c.bagBegin h th b + i * classSize b) (classSize b) ↔ h < BIBOP_NUM_HEAPS := by
  refine inside_iff thread ?_ (classSize_pos b)
  have whole := block_fits usable small
  have fits := bag_fits usable
  omega

/-! ## Ranks -/

theorem objectsBefore_mono {a b : ℕ} (le : a ≤ b) : c.objectsBefore a ≤ c.objectsBefore b := by
  induction b with
  | zero => rw [Nat.le_zero.mp le]
  | succ b ih =>
    rcases Nat.le_succ_iff.mp le with before | rfl
    · exact (ih before).trans (Nat.le_add_right ..)
    · exact le_rfl

/-- The objects of a bag come before those of every later bag. -/
theorem objectsBefore_add_le {a b : ℕ} (lt : a < b) :
    c.objectsBefore a + c.numObjects a ≤ c.objectsBefore b :=
  c.objectsBefore_mono lt

/-- The rounded shadow size of a heap is no less than the exact one. -/
theorem ranks_le_ceil : c.ranks * c.infoSize ≤ 2 ^ c.ceilPower := by
  have size := Nat.lt_size_self (MAX_ALIVE_THREADS * c.objectsPerThread * c.infoSize - 1)
  rw [← ceilPower] at size
  rw [ranks]
  omega

/-- The objects of a thread fall short of a power of two by the unusable classes and the guards. -/
theorem objectsBefore_bounds {b : ℕ} (usable : b ≤ c.usable) :
    c.objectsBefore b + 2 ^ (c.bagPower - 3 - b) ≤ 2 ^ (c.bagPower - 3) ∧
      2 ^ (c.bagPower - 3) + 2 ^ (9 - b) ≤
        c.objectsBefore b + 2 ^ (c.bagPower - 3 - b) + 512 + b := by
  induction b with
  | zero =>
    simp only [objectsBefore, Nat.sub_zero]
    omega
  | succ b ih =>
    obtain ⟨upper, lower⟩ := ih (by omega)
    have power := c.usable_le_bagPower
    have objects : c.numObjects b + c.reserved b = 2 ^ (c.bagPower - 3 - (b + 1)) := by
      rw [numObjects, Nat.sub_add_cancel (c.reserved_lt b).le]
      congr 1
      omega
    have halves : 2 ^ (c.bagPower - 3 - b) = 2 * 2 ^ (c.bagPower - 3 - (b + 1)) := by
      rw [← Nat.pow_succ', show (c.bagPower - 3 - (b + 1)).succ = c.bagPower - 3 - b by omega]
    have guard : c.reserved b + 2 ^ (9 - (b + 1)) ≤ 2 ^ (9 - b) + 1 := by
      have reserved : c.reserved b ≤ 2 ^ (8 - b) := by
        rw [reserved]
        split
        · exact le_rfl
        · exact Nat.zero_le _
      rw [show 9 - (b + 1) = 8 - b by omega]
      rcases Nat.lt_or_ge b 9 with small | large
      · rw [show 9 - b = 8 - b + 1 by omega, Nat.pow_succ]
        omega
      · rw [show 8 - b = 0 by omega] at reserved ⊢
        rw [show 9 - b = 0 by omega]
        omega
    rw [objectsBefore]
    omega

/-- The objects of a thread have as many bits as the power of two above them. -/
theorem objectsPerThread_bounds (c : Config) :
    2 ^ (c.bagPower - 4) < c.objectsPerThread ∧ c.objectsPerThread < 2 ^ (c.bagPower - 3) := by
  obtain ⟨upper, lower⟩ := objectsBefore_bounds (c := c) le_rfl
  have power := c.usable_le_bagPower
  have many := c.usable_ge
  have few := c.usable_le
  have tail : 2 ^ (c.bagPower - 3 - c.usable) ≤ 2 ^ (c.bagPower - 6) :=
    Nat.pow_le_pow_right (by decide) (by omega)
  have page : 2 ^ 13 ≤ 2 ^ (c.bagPower - 6) := Nat.pow_le_pow_right (by decide) (by omega)
  have eighths : 2 ^ (c.bagPower - 3) = 8 * 2 ^ (c.bagPower - 6) := by
    rw [show c.bagPower - 3 = c.bagPower - 6 + 3 by omega, Nat.pow_add, Nat.mul_comm]
  have halves : 2 ^ (c.bagPower - 4) = 4 * 2 ^ (c.bagPower - 6) := by
    rw [show c.bagPower - 4 = c.bagPower - 6 + 2 by omega, Nat.pow_add, Nat.mul_comm]
  have positive : 0 < 2 ^ (c.bagPower - 3 - c.usable) := Nat.two_pow_pos _
  have slack : 0 < 2 ^ (9 - c.usable) := Nat.two_pow_pos _
  rw [objectsPerThread]
  omega

/-- The rounded shadow size of a heap, in ranks. -/
theorem ceil_eq (c : Config) :
    2 ^ c.ceilPower = MAX_ALIVE_THREADS * 2 ^ (c.bagPower - 3) * c.infoSize := by
  obtain ⟨above, below⟩ := c.objectsPerThread_bounds
  have power := c.usable_le_bagPower
  have many := c.usable_ge
  have info := c.infoSize_pos
  -- the exact size has the same number of bits as the power of two above it
  have exact_power : c.ceilPower = 7 + (c.bagPower - 3) + c.infoPower := by
    have size (n : ℕ) : 2 ^ (7 + n + c.infoPower) = 2 ^ n * (MAX_ALIVE_THREADS * c.infoSize) := by
      rw [Nat.pow_add, Nat.add_comm 7, Nat.pow_add, Nat.mul_assoc]
      rfl
    have whole : MAX_ALIVE_THREADS * c.objectsPerThread * c.infoSize =
        c.objectsPerThread * (MAX_ALIVE_THREADS * c.infoSize) := by
      simp only [Nat.mul_comm MAX_ALIVE_THREADS, Nat.mul_assoc]
    have unit : 0 < MAX_ALIVE_THREADS * c.infoSize := Nat.mul_pos (by decide) info
    rw [ceilPower, whole]
    apply le_antisymm
    · rw [Nat.size_le, size]
      have := Nat.mul_le_mul_right (MAX_ALIVE_THREADS * c.infoSize) below
      rw [Nat.succ_mul] at this
      omega
    · rw [show 7 + (c.bagPower - 3) + c.infoPower = (7 + (c.bagPower - 4) + c.infoPower) + 1 by omega]
      rw [Nat.succ_le_iff, Nat.lt_size, size]
      have := Nat.mul_le_mul_right (MAX_ALIVE_THREADS * c.infoSize) above
      rw [Nat.succ_mul] at this
      omega
  rw [exact_power, Nat.pow_add, Nat.pow_add]
  rfl

/-- The rounding leaves a shadow entry for every class-sized block of a heap, guards included. -/
theorem rankAt_fits (thread : t < MAX_ALIVE_THREADS) (small : off < c.bagSize) :
    c.rankAt t b off * c.infoSize < 2 ^ c.ceilPower := by
  have fits := c.usable_le_bagPower
  rw [ceil_eq]
  refine Nat.mul_lt_mul_of_pos_right ?_ c.infoSize_pos
  have most : c.objectsPerThread ≤ 2 ^ (c.bagPower - 3) :=
    (Nat.le_add_right _ _).trans (objectsBefore_bounds (c := c) le_rfl).1
  have eighth : c.bagSize = 8 * 2 ^ (c.bagPower - 3) := by
    rw [bagSize, show 8 = 2 ^ 3 from rfl, ← Nat.pow_add]
    congr 1
    omega
  rw [rankAt]
  split
  · rename_i usable
    have before := (objectsBefore_bounds (c := c) usable.le).1
    have grow : 2 ^ (c.bagPower - (b + 4)) ≤ 2 ^ (c.bagPower - 3 - b) :=
      Nat.pow_le_pow_right (by decide) (by omega)
    have index : off / classSize b < 2 ^ (c.bagPower - (b + 4)) :=
      Nat.div_lt_of_lt_mul (by rw [Nat.mul_comm, slots_mul_classSize usable]; exact small)
    have threads := Nat.mul_le_mul (Nat.le_pred_of_lt thread) most
    change _ ≤ 127 * _ at threads
    change _ < 128 * _
    omega
  · change _ < 128 * _
    omega

/-- The entry of a rank below the rounded size determines the heap and the rank. -/
theorem entryAt_inj {h h' r r' : ℕ} (small : r * c.infoSize < 2 ^ c.ceilPower)
    (small' : r' * c.infoSize < 2 ^ c.ceilPower) (same : c.entryAt h r = c.entryAt h' r') :
    h = h' ∧ r = r' := by
  have equal : h * 2 ^ c.ceilPower + r * c.infoSize = h' * 2 ^ c.ceilPower + r' * c.infoSize := by
    rw [entryAt, entryAt] at same
    omega
  have heaps : h = h' := by
    have left := Radix.mul_add_div_of_lt (a := h) small
    rwa [equal, Radix.mul_add_div_of_lt small', eq_comm] at left
  subst heaps
  exact ⟨rfl, Nat.eq_of_mul_eq_mul_right c.infoSize_pos (Nat.add_left_cancel equal)⟩

/-- The encoder on the entry that the decoder yields for an aligned offset. -/
theorem getAddrFromShadowInfo_at {i : ℕ} (thread : t < MAX_ALIVE_THREADS) (usable : b < c.usable)
    (inside : i * classSize b < c.bagSize) :
    c.heap.getAddrFromShadowInfo (c.entryAt h (c.rankAt t b (i * classSize b))) (t, b) =
      c.bagBegin h t b + i * classSize b := by
  have small := c.rankAt_fits (b := b) thread inside
  rw [rankAt, if_pos usable, Nat.mul_div_cancel _ (classSize_pos b)] at small ⊢
  generalize first : t * c.objectsPerThread + c.objectsBefore b = r at small ⊢
  have shadowOffset : c.entryAt h (r + i) - c.shadowMemBegin =
      h * 2 ^ c.ceilPower + (r + i) * c.infoSize := by
    rw [entryAt]
    omega
  have within : (r + i) * c.infoSize - r * c.infoSize = i * c.infoSize := by
    rw [← Nat.sub_mul, Nat.add_sub_cancel_left]
  simp only [BibopHeap.getAddrFromShadowInfo, heap_shadowMemBegin, shadowOffset,
    heap_ceilShiftBits, heap_shadowMemSizePerHeapMask, heap_threadBag thread usable,
    heap_shadowObjectInfoSizeShiftBits, heap_heapSizeShiftBits, heap_heapBegin,
    Nat.shiftRight_eq_div_pow, Nat.and_two_pow_sub_one_eq_mod, Nat.shiftLeft_eq,
    Radix.mul_add_div_of_lt small, Nat.mul_add_mod_of_lt small]
  change _ + _ + c.startOffset t b + ((r + i) * c.infoSize - (t * c.objectsPerThread +
    c.objectsBefore b) * c.infoSize) / c.infoSize * classSize b = _
  simp only [first, within, Nat.mul_div_cancel _ c.infoSize_pos, bagBegin, heapSize_eq_pow]

/-- Entries of different ranks do not overlap. -/
theorem entryAt_apart {h h' r r' : ℕ} (small : r * c.infoSize + c.infoSize ≤ 2 ^ c.ceilPower)
    (small' : r' * c.infoSize + c.infoSize ≤ 2 ^ c.ceilPower) (different : (h, r) ≠ (h', r')) :
    c.entryAt h r + c.infoSize ≤ c.entryAt h' r' ∨
      c.entryAt h' r' + c.infoSize ≤ c.entryAt h r := by
  have step {a a' s s' : ℕ} (before : a < a') (fits : s * c.infoSize + c.infoSize ≤ 2 ^ c.ceilPower) :
      c.entryAt a s + c.infoSize ≤ c.entryAt a' s' := by
    have := Nat.mul_le_mul_right (2 ^ c.ceilPower) before
    rw [Nat.succ_mul] at this
    rw [entryAt, entryAt]
    omega
  rcases Nat.lt_trichotomy h h' with before | rfl | after
  · exact .inl (step before small)
  · rcases Nat.lt_trichotomy r r' with below | rfl | above
    · have := Nat.mul_le_mul_right c.infoSize below
      rw [Nat.succ_mul] at this
      rw [entryAt, entryAt]
      omega
    · exact absurd rfl different
    · have := Nat.mul_le_mul_right c.infoSize above
      rw [Nat.succ_mul] at this
      rw [entryAt, entryAt]
      omega
  · exact .inr (step after small')

/-- No shadow entry is at one of the two addresses with a meaning of their own. -/
theorem two_le_entryAt (h r : ℕ) : 2 ≤ c.entryAt h r := by
  have := Nat.le_of_dvd c.shadowMemBegin_pos c.shadowMemBegin_aligned
  have page : 2 ≤ PageSize := by decide
  rw [entryAt]
  omega

end Config

namespace Slot

variable {c : Config} {x y : Slot c}

/-- The start address of a slot. -/
def addr (x : Slot c) : ℕ := c.bagBegin x.heap x.thread x.bag + x.index * classSize x.bag

/-- The position of a slot's shadow entry in its heap. -/
def rank (x : Slot c) : ℕ :=
  x.thread * c.objectsPerThread + (c.objectsBefore x.bag + x.index)

/-- The shadow entry of a slot. -/
def entry (x : Slot c) : ℕ := c.entryAt x.heap x.rank

theorem before_lt (x : Slot c) : c.objectsBefore x.bag + x.index < c.objectsPerThread :=
  Nat.lt_of_lt_of_le (Nat.add_lt_add_left x.index_lt _) (c.objectsBefore_mono x.bag_lt)

theorem rank_lt (x : Slot c) : x.rank < c.ranks := by
  have := Nat.mul_le_mul_right c.objectsPerThread x.thread_lt
  have := x.before_lt
  rw [Nat.succ_mul] at *
  rw [rank, Config.ranks]
  omega

theorem rank_fits (x : Slot c) : x.rank * c.infoSize + c.infoSize ≤ 2 ^ c.ceilPower := by
  rw [← Nat.succ_mul]
  exact (Nat.mul_le_mul_right _ x.rank_lt).trans c.ranks_le_ceil

theorem rank_small (x : Slot c) : x.rank * c.infoSize < 2 ^ c.ceilPower := by
  have := x.rank_fits
  have := c.infoSize_pos
  omega

/-- A heap and a rank determine the slot. -/
theorem eq_of_rank (heap : x.heap = y.heap) (rank : x.rank = y.rank) : x = y := by
  have thread : x.thread = y.thread := by
    have left := Radix.mul_add_div_of_lt (a := x.thread) x.before_lt
    rwa [← Slot.rank, rank, Slot.rank, Radix.mul_add_div_of_lt y.before_lt, eq_comm] at left
  have before : c.objectsBefore x.bag + x.index = c.objectsBefore y.bag + y.index := by
    rw [Slot.rank, Slot.rank, thread] at rank
    exact Nat.add_left_cancel rank
  have bag : x.bag = y.bag := by
    have := x.index_lt
    have := y.index_lt
    rcases Nat.lt_trichotomy x.bag y.bag with lt | same | gt
    · have := c.objectsBefore_add_le lt
      omega
    · exact same
    · have := c.objectsBefore_add_le gt
      omega
  rw [bag] at before
  exact Slot.ext heap thread bag (Nat.add_left_cancel before)

/-- Distinct slots have distinct entries. -/
theorem entry_inj (same : x.entry = y.entry) : x = y :=
  have ⟨heap, rank⟩ := c.entryAt_inj x.rank_small y.rank_small same
  eq_of_rank heap rank

theorem entry_ne_null (x : Slot c) : x.entry ≠ NULL := by
  have := c.two_le_entryAt x.heap x.rank
  rw [entry, NULL]
  omega

theorem entry_ne_sentinel (x : Slot c) : x.entry ≠ ALLOC_SENTINEL := by
  have := c.two_le_entryAt x.heap x.rank
  rw [entry, ALLOC_SENTINEL]
  omega

/-- A slot ends before the guard of its bag. -/
theorem addr_fits (x : Slot c) :
    x.index * classSize x.bag + classSize x.bag + c.guardoffset x.bag ≤ c.bagSize := by
  have := Nat.mul_le_mul_right (classSize x.bag) x.index_lt
  have := Config.objects_add_guard x.bag_lt
  rw [Nat.succ_mul] at *
  omega

theorem heapBegin_le (x : Slot c) : c.heapBegin ≤ x.addr := by
  rw [addr, Config.bagBegin]
  omega

theorem offset_lt (x : Slot c) : x.index * classSize x.bag < c.bagSize := by
  have := x.addr_fits
  have := classSize_pos x.bag
  omega

theorem rankAt_offset (x : Slot c) :
    c.rankAt x.thread x.bag (x.index * classSize x.bag) = x.rank := by
  simp only [Config.rankAt, if_pos x.bag_lt, Nat.mul_div_cancel _ (classSize_pos _), rank,
    Nat.add_assoc]

/-- The decoder on the address of a slot. -/
theorem getShadowObjectInfo_addr (x : Slot c) :
    c.heap.getShadowObjectInfo x.addr = .ok ((x.thread, x.bag), x.heap % c.items, x.entry) := by
  rw [addr, Config.getShadowObjectInfo_usable x.thread_lt x.bag_lt x.offset_lt,
    if_neg (by rw [Nat.mul_mod_left]; exact fun nonzero => nonzero rfl), rankAt_offset, entry]

theorem getShadowObjectInfoIn_addr (x : Slot c) :
    c.heap.getShadowObjectInfoIn x.addr (x.thread, x.bag) = x.entry := by
  simp only [addr, Config.getShadowObjectInfoIn_at x.thread_lt x.bag_lt x.offset_lt, rankAt_offset,
    entry]

/-- The encoder returns from the entry of a slot to its address. -/
theorem getAddrFromShadowInfo_entry (x : Slot c) :
    c.heap.getAddrFromShadowInfo x.entry (x.thread, x.bag) = x.addr := by
  rw [entry, ← rankAt_offset]
  exact Config.getAddrFromShadowInfo_at x.thread_lt x.bag_lt x.offset_lt

/-- A slot is inside the heap exactly when its heap exists. -/
theorem inside_iff :
    Inside c.heap x.addr (classSize x.bag) ↔ x.heap < BIBOP_NUM_HEAPS :=
  Config.block_inside_iff x.thread_lt x.bag_lt x.offset_lt

/-- The slots of heaps that do not exist start at or after the end. -/
theorem addr_lt_heapEnd_iff : x.addr < c.heap._heapEnd ↔ x.heap < BIBOP_NUM_HEAPS := by
  have room := Config.bag_fits x.bag_lt
  have start := x.offset_lt
  have first : x.bag * c.bagSize + x.index * classSize x.bag + 1 ≤ c.threadSize := by omega
  rw [← Config.inside_iff x.thread_lt first Nat.one_pos, Inside, Config.heap_heapBegin,
    Nat.succ_le_iff]
  refine (and_iff_right ?_).symm
  rw [Config.bagBegin]
  omega

end Slot

end FreeGuard.Model
