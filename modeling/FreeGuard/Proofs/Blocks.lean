import FreeGuard.Proofs.Allocation

/-! # Live blocks

What the two heaps record of a live block: the mark of its shadow entry, or its entry in the map. The
reported size of a small object is that of its class less the canary; an address in an unusable bag has
the size that a class of zero bytes gives.
-/

namespace FreeGuard.Model

open Machine

variable {c : Config} {lib lib' : LibFreeGuard} {pool pool' : Pool c} {entries entries' : Entries}
  {p q n h t b off : ℕ}

/-- A live block at an address, with the bytes that it has for its owner. -/
inductive Block (c : Config) (lib : LibFreeGuard) : ℕ → ℕ → Prop
  | small (x : Slot c) : x.Live lib.small → Block c lib x.addr (classSize x.bag - c.build.canaryBytes)
  | large {p st : ℕ} : lib.big._xmap.find p sizeofPointer = some st →
      Block c lib p (lib.big.status st).size.toNat

theorem Build.canaryBytes_le (build : Build) : build.canaryBytes ≤ 1 := by
  rw [canaryBytes]
  split
  · exact le_rfl
  · exact Nat.zero_le _

theorem classSize_ge (b : ℕ) : 2 ^ 4 ≤ classSize b :=
  Nat.pow_le_pow_right (by decide) (Nat.le_add_left 4 b)

theorem classSize_le (usable : b < c.usable) : classSize b ≤ 2 ^ 22 := by
  have most := c.usable_le
  exact Nat.pow_le_pow_right (by decide) (by omega)

/-- The size that `getObjectSize` computes from the class of a bag. -/
def Config.reportedSize (c : Config) (b : ℕ) : size_t :=
  if b < c.usable then BitVec.ofNat 64 (classSize b - c.build.canaryBytes)
  else if c.build.canary then -1 else 0

theorem Config.reportedSize_toNat (usable : b < c.usable) :
    (c.reportedSize b).toNat = classSize b - c.build.canaryBytes := by
  have most := classSize_le usable
  rw [reportedSize, if_pos usable, BitVec.toNat_ofNat]
  exact Nat.mod_eq_of_lt (by omega)

/-- The heap ends where another one would start. -/
theorem Config.heapEnd_eq (c : Config) : c.heap._heapEnd = c.bagBegin BIBOP_NUM_HEAPS 0 0 + 0 := by
  rw [heap_heapEnd, bagBegin, startOffset]
  omega

/-- `getObjectSize` of an address of the heap: the class check fails, or the size of its bag. -/
theorem Config.getObjectSize_at (thread : t < MAX_ALIVE_THREADS) (bag : b < c.numBags)
    (small : off < c.bagSize) (inside : c.heap.isSmallObject (c.bagBegin h t b + off) = true) :
    c.heap.getObjectSize (c.bagBegin h t b + off) =
      if b < c.usable ∧ off % classSize b ≠ 0 then
        .error (.invalidObject (c.bagBegin h t b + off) (classSize b) (classSize b - 1) off)
      else .ok (c.reportedSize b) := by
  have valid : c.heap.isInvalidAddr (c.bagBegin h t b + off) = false := by
    rw [BibopHeap.isInvalidAddr, Bool.not_eq_false']
    exact inside
  have reported : (if c.build.canary = true then
      BitVec.ofNat 64 (c.heap._threadBag (t, b)).classSize - 1
      else BitVec.ofNat 64 (c.heap._threadBag (t, b)).classSize) = c.reportedSize b := by
    rw [reportedSize, Build.canaryBytes]
    rcases Nat.lt_or_ge b c.usable with usable | unusable
    · have least := classSize_ge b
      have most := classSize_le usable
      rw [show (c.heap._threadBag (t, b)).classSize = classSize b from
        congrArg PerThreadBag.classSize (heap_threadBag thread usable), if_pos usable]
      split
      · apply BitVec.eq_of_toNat_eq
        rw [BitVec.toNat_sub_of_le, BitVec.toNat_ofNat, BitVec.toNat_ofNat]
        · change classSize b % 2 ^ 64 - 1 = (classSize b - 1) % 2 ^ 64
          omega
        · rw [BitVec.le_def, BitVec.toNat_ofNat]
          change 1 ≤ classSize b % 2 ^ 64
          omega
      · rfl
    · rw [show (c.heap._threadBag (t, b)).classSize = 0 from
        congrArg PerThreadBag.classSize (heap_unusable t unusable), if_neg (Nat.not_lt.mpr unusable)]
      rfl
  rw [BibopHeap.getObjectSize, valid, if_neg Bool.false_ne_true,
    Config.getShadowObjectInfo_at thread bag small]
  split
  · rfl
  · exact congrArg Except.ok reported

/-! ## Freeing a block of the small heap -/

section Free

variable {s next : HeapState} {x : Slot c} {threadIndex : ℕ}

theorem Slot.addr_ne_null (x : Slot c) : x.addr ≠ NULL :=
  Nat.ne_of_gt (Nat.lt_of_lt_of_le c.heapBegin_pos x.heapBegin_le)

theorem Slot.isSmallObject_addr (inside : x.heap < BIBOP_NUM_HEAPS) :
    c.heap.isSmallObject x.addr = true :=
  isSmallObject_iff.mpr ⟨x.heapBegin_le, (Slot.addr_lt_heapEnd_iff.mpr inside).le⟩

/-- A pointer outside the heap that the map does not know has no size. -/
theorem oldSize_unknown (outside : c.heap.isSmallObject p = false)
    (unknown : lib.big.isLargeObject p = false) : lib.oldSize c.heap p = .ok (-1) := by
  rw [LibFreeGuard.oldSize, outside, unknown]
  rfl

/-- The size reported where a slot starts. -/
theorem Slot.oldSize_addr (inside : c.heap.isSmallObject x.addr = true) :
    lib.oldSize c.heap x.addr = .ok (c.reportedSize x.bag) := by
  rw [LibFreeGuard.oldSize, if_pos inside]
  apply (Config.getObjectSize_at x.thread_lt x.bag_lt_numBags x.offset_lt inside).trans
  rw [if_neg fun both => both.2 (Nat.mul_mod_left ..)]

/-- A deallocation where a slot starts releases that slot. -/
theorem Represents.free_slot (rep : Represents c s pool)
    (ok : c.heap.freeSmallObject threadIndex x.addr s = .ok next) :
    x ∈ pool.live ∧
      ∃ pool', Represents c next pool' ∧ Released pool pool' x x.bagRef (x.heap % c.items) := by
  obtain ⟨-, y, live, bag, leads, pool', after, released⟩ := rep.freeSmallObject x.heapBegin_le ok
  obtain ⟨rfl, rfl⟩ := leads.unique x.leadsTo_addr
  exact ⟨live, pool', after, released⟩

/-- The entry of a slot waits in a list of a bag. -/
def Waits (s : HeapState) (bag : BagRef) (entry : ℕ) : Prop :=
  (∃ item nodes, (s.freelist (bag, item)).Holds s.links nodes ∧ entry ∈ nodes) ∨
    ∃ nodes, Chain s.links (s.cfreelist bag).next nodes ∧ entry ∈ nodes

theorem Represents.exists_of_waits (rep : Represents c s pool) {bag : BagRef} {entry : ℕ}
    (waits : Waits s bag entry) :
    ∃ (x : Slot c) (q : Queue), q.bag = bag ∧ x ∈ pool.queue q ∧ x.entry = entry := by
  rcases waits with ⟨item, nodes, holds, member⟩ | ⟨nodes, chain, member⟩
  · rw [holds.unique (rep.lists.freelist (bag, item))] at member
    obtain ⟨x, queued, same⟩ := List.mem_map.mp member
    exact ⟨x, .inl (bag, item), rfl, queued, same⟩
  · rw [chain.unique (rep.lists.cached bag)] at member
    obtain ⟨x, queued, same⟩ := List.mem_map.mp member
    exact ⟨x, .inr bag, rfl, queued, same⟩

theorem Represents.waits_iff (rep : Represents c s pool) {bag : BagRef} :
    Waits s bag x.entry ↔ ∃ q : Queue, q.bag = bag ∧ x ∈ pool.queue q := by
  constructor
  · intro waits
    obtain ⟨y, q, ofBag, queued, same⟩ := rep.exists_of_waits waits
    exact ⟨q, ofBag, Slot.entry_inj same ▸ queued⟩
  · rintro ⟨q, rfl, member⟩
    cases q with
    | inl item => exact .inl ⟨item.2, _, rep.lists.freelist item, Slot.entry_mem_iff.mpr member⟩
    | inr bag => exact .inr ⟨_, rep.lists.cached bag, Slot.entry_mem_iff.mpr member⟩

/-- A released slot waits in a list of the bag through which it was released. -/
theorem Represents.waits_of_released (rep : Represents c s pool) (after : Represents c next pool')
    (live : x ∈ pool.live) {bag : BagRef} {item : ℕ} (released : Released pool pool' x bag item)
    (position : next.position = s.position) (guards : next.guards = s.guards) :
    Waits next bag x.entry := by
  have reached : pool'.Reached c.slots x := by
    rw [after.reached_iff, position, ← rep.reached_iff]
    exact rep.partition.live_reached x live
  rw [after.waits_iff]
  rcases after.partition.covered x reached with still | skipped | ⟨q, queued⟩
  · rw [released.live] at still
    exact absurd rfl still.2
  · rw [after.skipped, guards, ← rep.skipped] at skipped
    exact absurd skipped (rep.partition.live_not_skipped x live)
  · rcases released.queued q x queued with ⟨-, ofBag⟩ | ⟨r, -, old⟩
    · exact ⟨q, ofBag, queued⟩
    · exact absurd live (rep.partition.queued_not_live r x old)

/-- Without cached lists a released slot waits in the free list of its item. -/
theorem Represents.queued_of_released (rep : Represents c s pool) (after : Represents c next pool')
    (live : x ∈ pool.live) {bag : BagRef} {item : ℕ} (released : Released pool pool' x bag item)
    (position : next.position = s.position) (guards : next.guards = s.guards)
    (plain : c.build.cfreelist = false) : x ∈ pool'.queue (.inl (bag, item)) := by
  have waits := rep.waits_of_released after live released position guards
  obtain ⟨q, -, queued⟩ := after.waits_iff.mp waits
  rcases released.home plain q x queued with ⟨-, rfl⟩ | old
  · exact queued
  · exact absurd live (rep.partition.queued_not_live q x old)

/-- Without canaries, a first object can be freed by any thread; it waits in a list then, and in the free
list of its item in the build without cached lists. -/
theorem exists_alloc_free {freer : ℕ} {sz : size_t} {draws : Draws} {l : Lane c}
    (thread : threadIndex < MAX_ALIVE_THREADS) (routed : c.build.IF_CANARY_CONDITION sz = false)
    (unguarded : c.build.belowGuardCutoff draws.guard.toInt = false)
    (lane : c.laneOf thread routed draws = l) (other : freer < MAX_ALIVE_THREADS)
    (plain : c.build.canary = false) :
    ∃ (t : HeapSystem) (pool : Pool c), Run (HeapStep c.heap) c.system
        [.malloc threadIndex sz draws, .free freer (l.slot 0).addr] t ∧
      Represents c t.state pool ∧ Waits t.state l.bagRef (l.slot 0).entry ∧
      (c.build.cfreelist = false → l.slot 0 ∈ pool.queue (.inl l.ref)) := by
  obtain ⟨s, run, pool, rep, -, -, taken⟩ := allocations_exhaust thread routed unguarded lane.symm 1
  have live := (taken 0 Nat.one_pos).1
  have inside := (l.slot 0).heapBegin_le
  obtain ⟨t, ok⟩ : ∃ t, c.heap.freeSmallObject freer (l.slot 0).addr s.state = .ok t := by
    rw [rep.free_of_live (l.slot 0).leadsTo_addr live]
    exact rep.freeMarked_plain (l.slot 0).leadsTo_addr live plain
  obtain ⟨guards, -⟩ := rep.freeSmallObject inside ok
  obtain ⟨-, pool', after, released⟩ := rep.free_slot ok
  have position := (freeSmallObject_frame ok).2
  have item : ((l.slot 0).bagRef, (l.slot 0).heap % c.items) = l.ref :=
    congrArg Lane.ref (l.slot_lane 0)
  refine ⟨⟨t, s.returned⟩, pool', run.append (.single (.free s other ?_ ok)), after, ?_, fun off => ?_⟩
  · rwa [Config.heap_heapBegin]
  · exact rep.waits_of_released after live released position guards
  · rw [← item]
    exact rep.queued_of_released after live released position guards off

/-- Freeing a live slot with nothing broken near it. -/
theorem xxfree_slot (rep : Represents c lib.small pool) (inside : c.heap.isSmallObject x.addr = true)
    (live : x ∈ pool.live) (intact : c.build.canary = true → ∀ y, x.Near y → ¬y.Broken lib.small) :
    ∃ small pool', lib.xxfree c.heap threadIndex x.addr = .ok { lib with small := small } ∧
      c.heap.freeSmallObject threadIndex x.addr lib.small = .ok small ∧ Represents c small pool' ∧
      Released pool pool' x x.bagRef (x.heap % c.items) := by
  obtain ⟨small, ok⟩ : ∃ small, c.heap.freeSmallObject threadIndex x.addr lib.small = .ok small :=
    rep.free_intact live intact
  obtain ⟨-, pool', after, released⟩ := rep.free_slot ok
  refine ⟨small, pool', ?_, ok, after, released⟩
  rw [LibFreeGuard.xxfree, if_neg x.addr_ne_null, if_pos inside, ok]
  rfl

end Free

end FreeGuard.Model
