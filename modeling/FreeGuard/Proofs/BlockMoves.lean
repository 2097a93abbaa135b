import FreeGuard.Proofs.Blocks
import FreeGuard.Proofs.LibRun

/-! # What the calls do to live blocks

Every byte belongs to one live block at most. An allocation adds a block where there was none and writes
only bytes of it; a deallocation of a block takes that one away and writes only bytes of it. All others
keep their addresses and their bytes.
-/

namespace FreeGuard.Model

open Machine

variable {c : Config} {lib lib' : LibFreeGuard} {pool pool' : Pool c} {entries entries' : Entries}
  {threadIndex p q r m n a : ℕ} {size : size_t} {inputs : Inputs}

/-- A byte belongs to the live block at an address, its canary included. -/
inductive Owns (c : Config) (lib : LibFreeGuard) : ℕ → ℕ → Prop
  | small (x : Slot c) {a : ℕ} : x.Live lib.small → x.addr ≤ a → a < x.addr + classSize x.bag →
      Owns c lib x.addr a
  | large {p st a : ℕ} : lib.big._xmap.find p sizeofPointer = some st → p ≤ a →
      a < p + (lib.big.status st).size.toNat → Owns c lib p a

theorem Block.owns (block : Block c lib p n) (first : p ≤ a) (last : a < p + n) : Owns c lib p a := by
  cases block with
  | small x live => exact .small x live first (Nat.lt_of_lt_of_le last (by omega))
  | large found => exact .large found first last

/-- The bytes of a slot in a heap are reserved. -/
theorem Slot.reserved {x : Slot c} (inside : x.heap < BIBOP_NUM_HEAPS) (first : x.addr ≤ a)
    (last : a < x.addr + classSize x.bag) : c.Reserved a := by
  have within := Slot.inside_iff.mpr inside
  exact ⟨within.1.trans first, Nat.lt_of_lt_of_le last within.2⟩

namespace Consistent

variable (held : Consistent c lib pool entries)
include held

theorem find_iff {st : ℕ} : lib.big._xmap.find p sizeofPointer = some st ↔
    ((p, sizeofPointer), st) ∈ entries := by
  constructor
  · intro found
    rw [held.large.models.find] at found
    obtain ⟨before, after, split, -⟩ := List.lookup_eq_some_iff.mp found
    rw [split]
    exact List.mem_append_right _ (List.mem_cons_self ..)
  · exact held.large.find_of_mem

/-- The live blocks, by what stands for them. -/
theorem block_iff : Block c lib p n ↔
    (∃ x ∈ pool.live, x.addr = p ∧ n = classSize x.bag - c.build.canaryBytes) ∨
      ∃ st, ((p, sizeofPointer), st) ∈ entries ∧ n = (lib.big.status st).size.toNat := by
  constructor
  · rintro (⟨x, live⟩ | found)
    · exact .inl ⟨x, held.small.live_iff.mpr live, rfl, rfl⟩
    · exact .inr ⟨_, held.find_iff.mp found, rfl⟩
  · rintro (⟨x, live, rfl, rfl⟩ | ⟨st, member, rfl⟩)
    · exact .small x (held.small.live_iff.mp live)
    · exact .large (held.find_iff.mpr member)

theorem block_pos (block : Block c lib p n) : 0 < n := by
  cases block with
  | small x live =>
    have least := classSize_ge x.bag
    have byte := c.build.canaryBytes_le
    omega
  | @large p st found =>
    have large : 2 ^ 19 ≤ (lib.big.status st).size.toNat :=
      (held.large.places _ (held.find_iff.mp found)).large
    omega

theorem block_ne_null (block : Block c lib p n) : p ≠ NULL := by
  cases block with
  | small x live => exact x.addr_ne_null
  | large found =>
    rintro rfl
    have places := held.large.places _ (held.find_iff.mp found)
    exact places.nonnull (Nat.le_zero.mp places.first)

/-- A large object that the range test takes for a small one starts at the end of the heap. -/
theorem large_at_end {st : ℕ} (found : lib.big._xmap.find p sizeofPointer = some st)
    (isSmall : c.heap.isSmallObject p = true) : p = c.heap._heapEnd := by
  have places := held.large.places _ (held.find_iff.mp found)
  have range := isSmallObject_iff.mp isSmall
  apply Nat.le_antisymm range.2
  by_contra before
  exact held.large.regions.unreserved _ (List.mem_map_of_mem (held.find_iff.mp found)) p places.covers
    ⟨range.1, Nat.not_le.mp before⟩

/-- A byte of a large object lies in its region. -/
theorem region_covers {st : ℕ} (found : lib.big._xmap.find p sizeofPointer = some st) (first : p ≤ a)
    (last : a < p + (lib.big.status st).size.toNat) : (lib.big.status st).region.Covers a :=
  (held.large.places _ (held.find_iff.mp found)).block_covers ⟨first, last⟩

theorem region_unreserved {st : ℕ} (found : lib.big._xmap.find p sizeofPointer = some st)
    (covers : (lib.big.status st).region.Covers a) : ¬c.Reserved a := by
  have member := held.find_iff.mp found
  exact held.large.regions.unreserved _ (List.mem_map_of_mem member) _ covers

/-- No large object starts where an object of the small heap does. -/
theorem large_ne_slot {st : ℕ} (found : lib.big._xmap.find p sizeofPointer = some st) {x : Slot c}
    (within : x.heap < BIBOP_NUM_HEAPS) : p ≠ x.addr := by
  rintro rfl
  have positive := classSize_pos x.bag
  have covers : (lib.big.status st).region.Covers x.addr :=
    (held.large.places _ (held.find_iff.mp found)).covers
  exact held.region_unreserved found covers (Slot.reserved within le_rfl (by omega))

variable (inside : HeldInside pool)
include inside

/-- A byte belongs to one block. -/
theorem owns_unique (first : Owns c lib p a) (second : Owns c lib q a) : p = q := by
  have reserved {x : Slot c} (live : x.Live lib.small) (lower : x.addr ≤ a)
      (upper : a < x.addr + classSize x.bag) : c.Reserved a :=
    Slot.reserved (inside x (.inl (held.small.live_iff.mpr live))) lower upper
  cases first with
  | small x live lower upper =>
    cases second with
    | small y live' lower' upper' =>
      have same : x.addr + (a - x.addr) = y.addr + (a - y.addr) := by omega
      rw [Slot.eq_of_byte (by omega) (by omega) same]
    | large found lower' upper' =>
      have covers := held.region_covers found lower' upper'
      exact absurd (reserved live lower upper) (held.region_unreserved found covers)
  | large found lower upper =>
    have covers := held.region_covers found lower upper
    cases second with
    | small y live' lower' upper' =>
      exact absurd (reserved live' lower' upper') (held.region_unreserved found covers)
    | large found' lower' upper' =>
      have covers' := held.region_covers found' lower' upper'
      have same := held.large.regions.eq_of_covers (held.find_iff.mp found) (held.find_iff.mp found')
        covers covers'
      exact (Prod.mk.inj (Prod.mk.inj same).1).1

/-- The bytes of live blocks are mapped. -/
theorem owns_mapped (owns : Owns c lib p a) : lib.mapped a = true := by
  cases owns with
  | small x live lower upper =>
    have within := inside x (.inl (held.small.live_iff.mpr live))
    exact held.large.regions.reserved_present a (Slot.reserved within lower upper)
  | large found lower upper =>
    have covers := held.region_covers found lower upper
    exact held.large.regions.present _ (List.mem_map_of_mem (held.find_iff.mp found)) a covers

end Consistent

/-- No live slot is led to from the end of the heap. -/
theorem HeldInside.end_not_live (inside : HeldInside pool) {x : Slot c} {bag : BagRef}
    (leads : c.LeadsTo c.heap._heapEnd bag x) : x ∉ pool.live := by
  intro live
  obtain ⟨off, small, same, -, -⟩ := leads.place
  rw [c.heapEnd_eq] at same
  obtain ⟨heap, -⟩ := Config.bagBegin_inj (by decide) leads.thread c.numBags_pos leads.number
    c.bagSize_pos small same
  exact absurd (inside x (.inl live)) (heap ▸ lt_irrefl _)

/-! ## The size that is reported -/

/-- The size reported for a live block is known, and no more than its own. -/
theorem Consistent.oldSize (held : Consistent c lib pool entries) (inside : HeldInside pool)
    (block : Block c lib p n) :
    ∃ old, lib.oldSize c.heap p = .ok old ∧ old ≠ -1 ∧ old.toNat ≤ n := by
  have top : (-1 : size_t).toNat = 2 ^ 64 - 1 := rfl
  have known {b : ℕ} (usable : b < c.usable) : c.reportedSize b ≠ -1 := by
    have value := Config.reportedSize_toNat usable
    have most := classSize_le usable
    intro same
    rw [same] at value
    omega
  cases block with
  | small x live =>
    have isSmall := Slot.isSmallObject_addr (inside x (.inl (held.small.live_iff.mpr live)))
    exact ⟨_, Slot.oldSize_addr isSmall, known x.bag_lt, (Config.reportedSize_toNat x.bag_lt).le⟩
  | @large p st found =>
    have places := held.large.places _ (held.find_iff.mp found)
    have large : 2 ^ 19 ≤ (lib.big.status st).size.toNat := places.large
    have bounded := places.bounded
    have last := places.last
    dsimp only at last bounded
    cases isSmall : c.heap.isSmallObject p with
    | true =>
      -- the first class is reported at the end of the heap
      have atEnd := held.large_at_end found isSmall
      have sized : lib.oldSize c.heap p = c.heap.getObjectSize p := by
        simp only [LibFreeGuard.oldSize, if_pos isSmall]
      rw [atEnd, c.heapEnd_eq] at sized isSmall
      rw [Config.getObjectSize_at (by decide) c.numBags_pos c.bagSize_pos isSmall,
        if_neg fun both => both.2 (Nat.zero_mod _)] at sized
      have value := Config.reportedSize_toNat c.usable_pos
      have first : classSize 0 = 16 := rfl
      rw [atEnd, c.heapEnd_eq]
      exact ⟨_, sized, known c.usable_pos, by omega⟩
    | false =>
      have isLarge : lib.big.isLargeObject p = true := by
        rw [BigHeap.isLargeObject, found]
        rfl
      have sized : lib.oldSize c.heap p = .ok (lib.big.status st).size := by
        rw [LibFreeGuard.oldSize, isSmall, isLarge, BigHeap.getObjectSize, found]
        rfl
      refine ⟨_, sized, fun same => ?_, le_rfl⟩
      rw [same] at last
      omega

/-! ## Allocation -/

section Allocation

variable (held : Consistent c lib pool entries) (after : Consistent c lib' pool' entries')
  (own : Own pool) (move : Malloced c threadIndex size inputs lib pool entries q lib' pool' entries')
include held after own move

/-- An allocation adds its block. -/
theorem Malloced.block_iff (objStatus : inputs.supply.objStatus ∉ lib.big.statuses) :
    Block c lib' r n ↔ Block c lib r n ∨ r = q ∧ n = c.usableSize size := by
  rw [after.block_iff, held.block_iff, Config.usableSize]
  cases routed : c.build.IF_CANARY_CONDITION size with
  | false =>
    obtain ⟨x, rfl, -, live, bag⟩ := move.slot own held routed
    have number : x.bag = c.bagNumOf size := (Prod.mk.inj bag).2
    cases move with
    | large large => cases routed.symm.trans large
    | small =>
      rw [live, if_neg Bool.false_ne_true, ← number]
      constructor
      · rintro (⟨y, (rfl | old), rfl, rfl⟩ | large)
        · exact .inr ⟨rfl, rfl⟩
        · exact .inl (.inl ⟨y, old, rfl, rfl⟩)
        · exact .inl (.inr large)
      · rintro ((⟨y, old, rfl, rfl⟩ | large) | ⟨rfl, rfl⟩)
        · exact .inl ⟨y, .inr old, rfl, rfl⟩
        · exact .inr large
        · exact .inl ⟨x, .inl rfl, rfl, rfl⟩
  | true =>
    cases move with
    | small small => cases routed.symm.trans small
    | large _ promise made =>
      have kept := held.large.status_kept objStatus made
      obtain ⟨new, -⟩ := made.places (Build.large_of_condition routed) promise
      rw [if_pos rfl]
      constructor
      · rintro (small | ⟨st, member, rfl⟩)
        · exact .inl (.inl small)
        · rcases List.mem_append.mp member with old | single
          · exact .inl (.inr ⟨st, old, by rw [kept _ old]⟩)
          · cases List.mem_singleton.mp single
            exact .inr ⟨rfl, by rw [new]⟩
      · rintro ((small | ⟨st, old, rfl⟩) | ⟨rfl, rfl⟩)
        · exact .inl small
        · exact .inr ⟨st, List.mem_append_left _ old, by rw [kept _ old]⟩
        · exact .inr ⟨_, List.mem_append_right _ (List.mem_singleton_self _), by rw [new]⟩

/-- There was no block where an allocation puts one. -/
theorem Malloced.fresh (inside : HeldInside pool') : ¬Block c lib q n := by
  intro block
  cases routed : c.build.IF_CANARY_CONDITION size with
  | false =>
    obtain ⟨x, place, dead, live, -⟩ := move.slot own held routed
    have within := inside x (.inl (live ▸ Set.mem_insert ..))
    cases block with
    | small y mark =>
      obtain rfl := Slot.addr_inj place
      exact dead (held.small.live_iff.mpr mark)
    | large found => exact held.large_ne_slot found within place.symm
  | true =>
    cases move with
    | small small => cases routed.symm.trans small
    | @large ptr _ _ _ _ promise made =>
      obtain ⟨first, last⟩ := made.placed promise.some
      have large : 2 ^ 19 ≤ size.toNat := Build.large_of_condition routed
      have free := promise.fresh q first (by omega)
      have positive : Owns c lib q q := block.owns le_rfl (by have := held.block_pos block; omega)
      rw [held.owns_mapped inside positive] at free
      cases free

/-- An allocation writes only to its block. -/
theorem Malloced.frame (thread : threadIndex < MAX_ALIVE_THREADS) (outside : ¬Owns c lib' q a) :
    lib'.small.mem a = lib.small.mem a := by
  cases routed : c.build.IF_CANARY_CONDITION size with
  | false =>
    obtain ⟨x, rfl, -, live, bag⟩ := move.slot own held routed
    have number : x.bag = c.bagNumOf size := (Prod.mk.inj bag).2
    have mark := after.small.live_iff.mp (live ▸ Set.mem_insert x pool.live)
    cases move with
    | large large => cases routed.symm.trans large
    | small _ ran =>
      have wrote := allocateSmallObject_mem thread routed ran
      dsimp only
      rw [wrote, ← number]
      split
      · apply Function.update_of_ne
        rintro rfl
        have positive := classSize_pos x.bag
        exact outside (.small x mark (by omega) (by omega))
      · rfl
  | true =>
    cases move with
    | small small => cases routed.symm.trans small
    | large => rfl

/-- An allocation keeps the contents of the blocks. -/
theorem Malloced.contents (inside : HeldInside pool') (thread : threadIndex < MAX_ALIVE_THREADS)
    (objStatus : inputs.supply.objStatus ∉ lib.big.statuses) {i : ℕ} (block : Block c lib r n)
    (below : i < n) : lib'.small.mem (r + i) = lib.small.mem (r + i) := by
  apply move.frame held after own thread
  intro atNew
  have still : Block c lib' r n := (move.block_iff held after own objStatus).mpr (.inl block)
  have atOld : Owns c lib' r (r + i) :=
    still.owns (Nat.le_add_right ..) (Nat.add_lt_add_left below r)
  obtain rfl := after.owns_unique inside atNew atOld
  exact move.fresh held after own inside block

/-- An allocation breaks no canary. -/
theorem Malloced.intact (canary : c.build.canary = true) (thread : threadIndex < MAX_ALIVE_THREADS)
    (unbroken : ∀ y : Slot c, ¬y.Broken lib.small) (y : Slot c) : ¬y.Broken lib'.small := by
  rintro ⟨mark, broken⟩
  have stays (mark : y.Live lib.small) : lib.small.mem y.canary = CANARY_SENTINEL :=
    not_not.mp fun other => unbroken y ⟨mark, other⟩
  cases routed : c.build.IF_CANARY_CONDITION size with
  | false =>
    obtain ⟨x, rfl, -, live, bag⟩ := move.slot own held routed
    have number : x.bag = c.bagNumOf size := (Prod.mk.inj bag).2
    have member : y ∈ insert x pool.live := live ▸ after.small.live_iff.mpr mark
    cases move with
    | large large => cases routed.symm.trans large
    | small _ ran =>
      obtain ⟨written, kept⟩ := allocateSmallObject_canary canary thread routed ran
      rw [← number] at written
      rcases member with rfl | old
      · exact broken written
      · exact broken (kept _ (stays (held.small.live_iff.mp old)))
  | true =>
    cases move with
    | small small => cases routed.symm.trans small
    | large => exact broken (stays mark)

end Allocation

/-! ## Deallocation -/

/-- A deallocation at the heap of a live block. -/
inductive FreedBlock (c : Config) (threadIndex p : ℕ) (lib lib' : LibFreeGuard) (pool pool' : Pool c)
    (entries entries' : Entries) : Prop
  | small (x : Slot c) {small : HeapState} : x.addr = p → x ∈ pool.live →
      c.heap.freeSmallObject threadIndex x.addr lib.small = .ok small → lib' = { lib with small := small } →
      Released pool pool' x x.bagRef (x.heap % c.items) → entries' = entries →
      FreedBlock c threadIndex p lib lib' pool pool' entries entries'
  | large {st : ℕ} {big : BigHeap} {mapped : Mapped} {before rest : Entries} :
      Deallocated lib.big lib.mapped p st big mapped → lib' = { lib with big := big, mapped := mapped } →
      entries = before ++ ((p, sizeofPointer), st) :: rest → entries' = before ++ rest → pool' = pool →
      FreedBlock c threadIndex p lib lib' pool pool' entries entries'

/-- A deallocation of a live block that returns is made at its heap. -/
theorem Freed.at_block (held : Consistent c lib pool entries) (inside : HeldInside pool)
    (block : Block c lib p m)
    (move : Freed c threadIndex p lib pool entries lib' pool' entries') :
    FreedBlock c threadIndex p lib lib' pool pool' entries entries' := by
  cases move with
  | ignored none =>
    cases block with
    | small x live =>
      rcases none with null | ⟨isSmall, -⟩
      · exact absurd null x.addr_ne_null
      · have within := inside x (.inl (held.small.live_iff.mpr live))
        rw [Slot.isSmallObject_addr within] at isSmall
        cases isSmall
    | large found =>
      rcases none with null | ⟨-, isLarge⟩
      · exact absurd null (held.block_ne_null (.large found))
      · rw [BigHeap.isLargeObject, found] at isLarge
        cases isLarge
  | small isSmall ran step =>
    cases step with
    | @release _ _ _ x bag _ live leads released guards returned =>
      cases block with
      | small y mark =>
        obtain ⟨rfl, rfl⟩ := leads.unique y.leadsTo_addr
        exact .small x rfl live ran rfl released rfl
      | large found =>
        have atEnd := held.large_at_end found isSmall
        exact absurd live (inside.end_not_live (atEnd ▸ leads))
  | large notSmall freed split => exact .large freed rfl split rfl rfl

/-- A deallocation takes away its block. -/
theorem FreedBlock.block_iff (held : Consistent c lib pool entries)
    (after : Consistent c lib' pool' entries') (inside : HeldInside pool)
    (freed : FreedBlock c threadIndex p lib lib' pool pool' entries entries') :
    Block c lib' r n ↔ Block c lib r n ∧ r ≠ p := by
  have apart (y : Slot c) (live : y ∈ pool.live) {st : ℕ}
      (member : ((y.addr, sizeofPointer), st) ∈ entries) : False :=
    held.large_ne_slot (held.find_iff.mpr member) (inside y (.inl live)) rfl
  rw [after.block_iff, held.block_iff]
  cases freed with
  | small x place live ran same released kept =>
    subst place same kept
    rw [released.live]
    constructor
    · rintro (⟨y, ⟨old, other⟩, rfl, rfl⟩ | ⟨st, member, rfl⟩)
      · exact ⟨.inl ⟨y, old, rfl, rfl⟩, fun same => other (Slot.addr_inj same)⟩
      · exact ⟨.inr ⟨st, member, rfl⟩, fun same => apart x live (same ▸ member)⟩
    · rintro ⟨⟨y, old, rfl, rfl⟩ | ⟨st, member, rfl⟩, other⟩
      · exact .inl ⟨y, ⟨old, fun same => other (congrArg Slot.addr same)⟩, rfl, rfl⟩
      · exact .inr ⟨st, member, rfl⟩
  | @large st _ _ before rest freed same split kept still =>
    subst same kept still
    have absent : p ∉ (before ++ rest).map fun e => e.1.1 :=
      List.map_notMem_of_nodup_middle (split ▸ held.large.addr_nodup)
    have status : (lib.big.status) = _ := freed.status.symm
    rw [split, status]
    constructor
    · rintro (⟨y, live, rfl, rfl⟩ | ⟨st', member, rfl⟩)
      · refine ⟨.inl ⟨y, live, rfl, rfl⟩, ?_⟩
        rintro rfl
        exact apart y live (split ▸ List.mem_append_right _ (List.mem_cons_self ..))
      · refine ⟨.inr ⟨st', List.mem_middle.mpr (.inr member), rfl⟩, ?_⟩
        rintro rfl
        exact absent (List.mem_map_of_mem member)
    · rintro ⟨⟨y, live, rfl, rfl⟩ | ⟨st', member, rfl⟩, other⟩
      · exact .inl ⟨y, live, rfl, rfl⟩
      · refine .inr ⟨st', ?_, rfl⟩
        rcases List.mem_middle.mp member with same | kept
        · exact absurd (Prod.mk.inj (Prod.mk.inj same).1).1 other
        · exact kept

/-- A deallocation writes only to its block. -/
theorem FreedBlock.frame (held : Consistent c lib pool entries)
    (freed : FreedBlock c threadIndex p lib lib' pool pool' entries entries')
    (outside : ¬Owns c lib p a) : lib'.small.mem a = lib.small.mem a := by
  cases freed with
  | small x place live ran same released kept =>
    subst place same
    have mark := held.small.live_iff.mp live
    apply (freeSmallObject_frame ran).1
    have ofAddr : c.heap.bagOf x.addr = x.bagRef :=
      Config.bagOf_at x.thread_lt x.bag_lt_numBags x.offset_lt
    have size : (c.heap._threadBag x.bagRef).classSize = classSize x.bag :=
      congrArg PerThreadBag.classSize (Config.heap_threadBag x.thread_lt x.bag_lt)
    rw [ofAddr, size]
    rintro ⟨lower, upper⟩
    exact outside (.small x mark lower (by omega))
  | large freed same split kept still =>
    subst same
    rfl

/-! ## The first block of the default build -/

/-- The first request of 15 bytes gets a block of the first class, which is the only live one. -/
theorem Config.makefile_first : ∃ (x : Slot makefile) (taken : HeapState) (pool : Pool makefile),
    makefile.boot.xxmalloc makefile.heap 0 15 plainInputs =
      .ok (x.addr, { makefile.boot with small := taken }) ∧
    Consistent makefile { makefile.boot with small := taken } pool [] ∧ HeldInside pool ∧
    pool.live = {x} ∧ x.bag = 0 ∧ taken.mem x.canary = CANARY_SENTINEL := by
  have thread : 0 < MAX_ALIVE_THREADS := by decide
  have routed : makefile.build.IF_CANARY_CONDITION 15 = false := by decide
  have held := makefile.booted.consistent
  have inner := xxmalloc_small makefile.boot 0 plainInputs routed
  generalize ran : makefile.heap.allocateSmallObject 0 15 plainInputs.draws makefile.boot.small =
    result at inner
  obtain ⟨p, taken⟩ := result
  dsimp only at inner
  obtain ⟨pool, entries, move, after⟩ := held.xxmalloc thread (supplied_plain _ _) inner
  have inside := heldInside_fresh.malloc held.small (bumpsInside_boot _ _ thread _ _) move
  obtain ⟨x, rfl, -, live, bag⟩ := move.slot own_fresh held routed
  obtain ⟨written, -⟩ := allocateSmallObject_canary rfl thread routed ran
  have number : x.bag = makefile.bagNumOf 15 := (Prod.mk.inj bag).2
  rw [← number] at written
  cases move with
  | large large => cases routed.symm.trans large
  | small =>
    have only : pool.live = {x} := live.trans (insert_empty_eq x)
    exact ⟨x, taken, pool, inner, after, inside, only, number.trans (by decide +kernel), written⟩

/-- Nothing is broken when one live object has its canary. -/
theorem Represents.intact_of_single {s : HeapState} {x : Slot c} (rep : Represents c s pool)
    (only : pool.live = {x}) (written : s.mem x.canary = CANARY_SENTINEL) (y : Slot c) :
    ¬y.Broken s := by
  intro broken
  have live : y ∈ ({x} : Set (Slot c)) := only ▸ rep.live_iff.mpr broken.1
  obtain rfl : y = x := live
  exact broken.2 written

end FreeGuard.Model
