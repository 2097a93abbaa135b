import FreeGuard.Model.BigRun
import FreeGuard.Proofs.HashMap

/-! # Large objects and their mappings

`pageUpSize` rounds a size up to whole pages, or wraps to zero at the top of the range. `Mappings` is
what the map and the status objects say about the live large objects: each ends where a region of its
own ends, which its status object describes. The user half of the address space is too small for so
many of them that a bucket's counter overflows.
-/

namespace FreeGuard.Model

open HashMap Machine

/-! ## Rounding -/

theorem and_not_pageMask (x : size_t) :
    (x &&& ~~~(BitVec.ofNat 64 PageSize - 1)).toNat = x.toNat / PageSize * PageSize := by
  have mask : ~~~(BitVec.ofNat 64 PageSize - 1) = BitVec.allOnes 64 <<< 12 := by decide
  have bound := x.isLt
  rw [mask, ← BitVec.shiftLeft_ushiftRight, BitVec.toNat_shiftLeft, BitVec.toNat_ushiftRight,
    Nat.shiftRight_eq_div_pow, Nat.shiftLeft_eq]
  change x.toNat / 4096 * 4096 % _ = x.toNat / 4096 * 4096
  omega

namespace BigHeap

/-- A size is rounded up to whole pages, unless that wraps to zero. -/
theorem pageUpSize_spec (size : size_t) :
    (pageUpSize size).toNat = 0 ∨
      size.toNat ≤ (pageUpSize size).toNat ∧ (pageUpSize size).toNat < size.toNat + PageSize := by
  have bound := size.isLt
  have page : (BitVec.ofNat 64 PageSize).toNat = PageSize := by decide
  have pred : (BitVec.ofNat 64 PageSize - 1).toNat = PageSize - 1 := by decide
  have value : PageSize = 4096 := rfl
  rw [pageUpSize, alignup]
  split
  · exact .inr ⟨le_rfl, by omega⟩
  · rw [and_not_pageMask, BitVec.toNat_add, pred, value]
    omega

theorem pageUpSize_dvd (size : size_t) : PageSize ∣ (pageUpSize size).toNat := by
  rw [pageUpSize, alignup]
  split
  · rename_i whole
    have remainder := congrArg BitVec.toNat whole
    rw [BitVec.toNat_umod] at remainder
    exact Nat.dvd_of_mod_eq_zero remainder
  · rw [and_not_pageMask]
    exact Nat.dvd_mul_left ..

/-- No whole number of pages below what a size is rounded to holds it. -/
theorem pageUpSize_least (size : size_t) {pages : ℕ} (whole : PageSize ∣ pages)
    (enough : size.toNat ≤ pages) : (pageUpSize size).toNat ≤ pages := by
  obtain ⟨count, rfl⟩ := whole
  obtain ⟨rounded, same⟩ := pageUpSize_dvd size
  rcases pageUpSize_spec size with none | ⟨-, upper⟩
  · omega
  · rw [same] at upper ⊢
    apply Nat.mul_le_mul_left
    change size.toNat ≤ 4096 * count at enough
    change 4096 * rounded < size.toNat + 4096 at upper
    omega

/-- `diff`, when the size has been rounded without wrapping. -/
theorem pageUpSize_sub (size : size_t) (some : 0 < (pageUpSize size).toNat) :
    (pageUpSize size - size).toNat = (pageUpSize size).toNat - size.toNat := by
  rcases pageUpSize_spec size with none | ⟨lower, -⟩
  · omega
  · exact BitVec.toNat_sub_of_le (BitVec.le_def.mpr lower)

end BigHeap

/-! ## Live mappings -/

/-- No threshold is smaller. -/
def LARGE_OBJECT_MIN : ℕ := 2 ^ 19

theorem Build.large_of_condition {build : Build} {size : size_t}
    (routed : build.IF_CANARY_CONDITION size = true) : LARGE_OBJECT_MIN ≤ size.toNat := by
  have least : LARGE_OBJECT_MIN ≤ build.LARGE_OBJECT_THRESHOLD := by
    rw [Build.LARGE_OBJECT_THRESHOLD]
    split <;> decide
  rw [Build.IF_CANARY_CONDITION] at routed
  split at routed
  · have above := of_decide_eq_true routed
    rw [BitVec.toNat_add, show (1 : size_t).toNat = 1 from rfl] at above
    omega
  · have above := of_decide_eq_true routed
    omega

/-- A status object describes the large object at an address. -/
structure BigObjectStatus.Places (status : BigObjectStatus) (addr : ℕ) : Prop where
  rounded : status.pageUpSize = BigHeap.pageUpSize status.size
  first : status.start ≤ addr
  last : addr + status.size.toNat = status.start + status.pageUpSize.toNat
  large : LARGE_OBJECT_MIN ≤ status.size.toNat
  nonnull : status.start ≠ NULL
  aligned : PageSize ∣ status.start
  bounded : status.start + status.pageUpSize.toNat ≤ 2 ^ 47

theorem BigObjectStatus.Places.covers {status : BigObjectStatus} {addr : ℕ}
    (places : status.Places addr) : status.region.Covers addr := by
  have first := places.first
  have last := places.last
  have large : 2 ^ 19 ≤ status.size.toNat := places.large
  exact ⟨first, by change addr < status.start + status.pageUpSize.toNat; omega⟩

/-- The object lies in its region. -/
theorem BigObjectStatus.Places.block_covers {status : BigObjectStatus} {addr a : ℕ}
    (places : status.Places addr) (inside : (⟨addr, status.size.toNat⟩ : Region).Covers a) :
    status.region.Covers a := by
  have first := places.first
  have last := places.last
  obtain ⟨above, below⟩ := inside
  change addr ≤ a at above
  change a < addr + status.size.toNat at below
  exact ⟨first.trans above, by change a < status.start + status.pageUpSize.toNat; omega⟩

theorem BigObjectStatus.Places.near {status : BigObjectStatus} {addr : ℕ}
    (places : status.Places addr) : addr - status.start < PageSize := by
  have last := places.last
  have first := places.first
  have large : 2 ^ 19 ≤ status.size.toNat := places.large
  rcases BigHeap.pageUpSize_spec status.size with none | ⟨-, upper⟩
  · rw [← places.rounded] at none
    omega
  · rw [← places.rounded] at upper
    omega

/-- The entries of the map are the live large objects, each in a region of its own. -/
structure Mappings (reserved : ℕ → Prop) (big : BigHeap) (mapped : Mapped)
    (entries : List ((ℕ × size_t) × ℕ)) : Prop where
  models : big._xmap.Models entries
  keylen : ∀ e ∈ entries, e.1.2 = sizeofPointer
  places : ∀ e ∈ entries, (big.status e.2).Places e.1.1
  regions : Regions reserved mapped (entries.map fun e => (big.status e.2).region)
  inUse : ∀ e ∈ entries, e.2 ∈ big.statuses
  distinct : (entries.map Prod.snd).Nodup

variable {reserved : ℕ → Prop} {big big' : BigHeap} {mapped mapped' : Mapped}
  {entries : List ((ℕ × size_t) × ℕ)} {size : size_t} {supply : Supply} {ptr p : ℕ}

/-- The user half of the address space holds few large objects. -/
theorem regions_few {statuses : List BigObjectStatus}
    (regions : Regions reserved mapped (statuses.map BigObjectStatus.region))
    (places : ∀ status ∈ statuses, ∃ addr, status.Places addr) : statuses.length ≤ 2 ^ 28 := by
  rw [← List.length_map BigObjectStatus.region]
  apply regions.length_le (Nat.two_pow_pos 19)
  · intro r member
    obtain ⟨status, inside, rfl⟩ := List.mem_map.mp member
    obtain ⟨addr, places⟩ := places status inside
    have large : 2 ^ 19 ≤ status.size.toNat := places.large
    have first := places.first
    have last := places.last
    change 2 ^ 19 ≤ status.pageUpSize.toNat
    omega
  · intro r member
    obtain ⟨status, inside, rfl⟩ := List.mem_map.mp member
    obtain ⟨addr, places⟩ := places status inside
    exact places.bounded

/-- The map after `initBigHeap`, when what is reserved is mapped. -/
theorem mappings_initBigHeap (links : LinkedPath.Links ListRef) (count : ℕ → size_t)
    (entryAt : ListRef → Entry ℕ ℕ) (status : ℕ → BigObjectStatus)
    (present : ∀ a, reserved a → mapped a = true) :
    Mappings reserved (.initBigHeap links count entryAt status) mapped [] where
  models := models_initializeMap _ (by decide) _ _ _
  keylen _ member := absurd member List.not_mem_nil
  places _ member := absurd member List.not_mem_nil
  regions := ⟨fun _ member => absurd member List.not_mem_nil, .nil, present,
    fun _ member => absurd member List.not_mem_nil⟩
  inUse _ member := absurd member List.not_mem_nil
  distinct := List.nodup_nil

namespace Mappings

theorem isLargeObject_iff (maps : Mappings reserved big mapped entries) (addr : ℕ) :
    big.isLargeObject addr = true ↔ (addr, sizeofPointer) ∈ entries.map Prod.fst := by
  rw [BigHeap.isLargeObject, maps.models.find]
  exact lookup_isSome_iff_mem

/-- Two entries at one address are one. -/
theorem eq_of_addr (maps : Mappings reserved big mapped entries) {e f : (ℕ × size_t) × ℕ}
    (first : e ∈ entries) (second : f ∈ entries) (same : e.1.1 = f.1.1) : e = f := by
  have covers := (maps.places e first).covers
  have also := (maps.places f second).covers
  rw [← same] at also
  exact maps.regions.eq_of_covers first second covers also

theorem addr_nodup (maps : Mappings reserved big mapped entries) :
    (entries.map fun e => e.1.1).Nodup :=
  maps.distinct.of_map.map_on fun _ first _ second => maps.eq_of_addr first second

/-- An entry's status object is the one found under its address. -/
theorem find_of_mem (maps : Mappings reserved big mapped entries) {e : (ℕ × size_t) × ℕ}
    (member : e ∈ entries) : big._xmap.find e.1.1 sizeofPointer = some e.2 := by
  have present : (e.1.1, sizeofPointer) ∈ entries.map Prod.fst := by
    rw [← maps.keylen e member]
    exact List.mem_map_of_mem member
  have found := lookup_isSome_iff_mem.mpr present
  rw [maps.models.find]
  obtain ⟨st, lookup⟩ := Option.isSome_iff_exists.mp found
  obtain ⟨before, after, split, -⟩ := List.lookup_eq_some_iff.mp lookup
  have other : ((e.1.1, sizeofPointer), st) ∈ entries := split ▸ by simp
  rw [lookup, ← maps.eq_of_addr other member rfl]

/-- Large objects are few enough for every bucket to count one more. -/
theorem fits (maps : Mappings reserved big mapped entries) (key : ℕ) :
    big._xmap.Fits key sizeofPointer := by
  have regions : Regions reserved mapped
      ((entries.map fun e => big.status e.2).map BigObjectStatus.region) := by
    rw [List.map_map]
    exact maps.regions
  have few := regions_few regions fun status member => by
    obtain ⟨e, inside, rfl⟩ := List.mem_map.mp member
    exact ⟨_, maps.places e inside⟩
  rw [List.length_map] at few
  exact maps.models.fits (by omega) (by decide) key

end Mappings

/-- What an allocation that returns has done. -/
structure Allocated (big : BigHeap) (mapped : Mapped) (size : size_t) (supply : Supply) (ptr p : ℕ)
    (big' : BigHeap) (mapped' : Mapped) : Prop where
  result : supply.mmap = some ptr
  start : p = ptr + (BigHeap.pageUpSize size - size).toNat
  xmap : big'._xmap = big._xmap.insert supply.entry p sizeofPointer supply.objStatus
  status : big'.status =
    Function.update big.status supply.objStatus ⟨ptr, size, BigHeap.pageUpSize size⟩
  statuses : big'.statuses = supply.objStatus :: big.statuses
  mapping : mapped' = mapped.map ptr (BigHeap.pageUpSize size).toNat

theorem BigHeap.allocated (ok : big.allocateAtBigHeap size supply mapped = .ok (p, big', mapped')) :
    ∃ ptr, Allocated big mapped size supply ptr p big' mapped' := by
  rw [BigHeap.allocateAtBigHeap] at ok
  cases result : supply.mmap with
  | none =>
    rw [result] at ok
    cases ok
  | some ptr =>
    rw [result] at ok
    cases ok
    exact ⟨ptr, result, rfl, rfl, rfl, rfl, rfl⟩

/-- An allocation that gets a mapping returns. -/
theorem BigHeap.allocate_mapped (size : size_t) (result : supply.mmap = some ptr) :
    ∃ big' mapped', big.allocateAtBigHeap size supply mapped =
      .ok (ptr + (BigHeap.pageUpSize size - size).toNat, big', mapped') := by
  rw [BigHeap.allocateAtBigHeap, result]
  exact ⟨_, _, rfl⟩

/-- An object placed at the end of a mapping starts in it. -/
theorem placed_at_end {size : size_t} {start : ℕ} (some : 0 < (BigHeap.pageUpSize size).toNat) :
    start ≤ start + (BigHeap.pageUpSize size - size).toNat ∧
      start + (BigHeap.pageUpSize size - size).toNat + size.toNat =
        start + (BigHeap.pageUpSize size).toNat := by
  have diff := BigHeap.pageUpSize_sub size some
  have rounded := (BigHeap.pageUpSize_spec size).resolve_left (Nat.ne_of_gt some)
  omega

/-- What is stored for a mapping describes the object at its end. -/
theorem MmapResult.places {start : ℕ} (promise : MmapResult mapped (BigHeap.pageUpSize size).toNat start)
    (large : LARGE_OBJECT_MIN ≤ size.toNat) :
    (⟨start, size, BigHeap.pageUpSize size⟩ : BigObjectStatus).Places
      (start + (BigHeap.pageUpSize size - size).toNat) :=
  ⟨rfl, (placed_at_end promise.some).1, (placed_at_end promise.some).2, large, promise.nonnull,
    promise.aligned, promise.bounded⟩

/-- The object of an allocation starts in its mapping and ends with it. -/
theorem Allocated.placed (made : Allocated big mapped size supply ptr p big' mapped')
    (some : 0 < (BigHeap.pageUpSize size).toNat) :
    ptr ≤ p ∧ p + size.toNat = ptr + (BigHeap.pageUpSize size).toNat := by
  rw [made.start]
  exact placed_at_end some

/-- The status object of an allocation describes its object. -/
theorem Allocated.places (made : Allocated big mapped size supply ptr p big' mapped')
    (large : LARGE_OBJECT_MIN ≤ size.toNat)
    (promise : MmapResult mapped (BigHeap.pageUpSize size).toNat ptr) :
    big'.status supply.objStatus = ⟨ptr, size, BigHeap.pageUpSize size⟩ ∧
      (big'.status supply.objStatus).Places p := by
  have new : big'.status supply.objStatus = ⟨ptr, size, BigHeap.pageUpSize size⟩ := by
    simp only [made.status, Function.update_self]
  rw [new, made.start]
  exact ⟨rfl, promise.places large⟩

/-- A new status object replaces none that is in use. -/
theorem Mappings.status_kept (maps : Mappings reserved big mapped entries)
    (objStatus : supply.objStatus ∉ big.statuses)
    (made : Allocated big mapped size supply ptr p big' mapped') :
    ∀ e ∈ entries, big'.status e.2 = big.status e.2 := by
  intro e member
  rw [made.status]
  apply Function.update_of_ne
  intro same
  exact objStatus (same ▸ maps.inUse e member)

/-- A new large object. -/
theorem Mappings.allocate (maps : Mappings reserved big mapped entries)
    (large : LARGE_OBJECT_MIN ≤ size.toNat) (objStatus : supply.objStatus ∉ big.statuses)
    (entry : supply.entry ∉ big._xmap.blocks)
    (promise : MmapResult mapped (BigHeap.pageUpSize size).toNat ptr)
    (made : Allocated big mapped size supply ptr p big' mapped') :
    Mappings reserved big' mapped' (entries ++ [((p, sizeofPointer), supply.objStatus)]) := by
  obtain ⟨new, places⟩ := made.places large promise
  have kept := maps.status_kept objStatus made
  refine ⟨made.xmap ▸ maps.models.insert entry (maps.fits p), ?_, ?_, ?_, ?_, ?_⟩
  · exact List.forall_mem_append.mpr ⟨maps.keylen, List.forall_mem_singleton.mpr rfl⟩
  · refine List.forall_mem_append.mpr ⟨?_, List.forall_mem_singleton.mpr places⟩
    intro e member
    rw [kept e member]
    exact maps.places e member
  · have same : entries.map (fun e => (big'.status e.2).region) =
        entries.map fun e => (big.status e.2).region :=
      List.map_congr_left fun e member => by rw [kept e member]
    have fresh : ∀ a, (⟨ptr, (BigHeap.pageUpSize size).toNat⟩ : Region).Covers a → mapped a = false :=
      fun a covers => promise.fresh a covers.1 covers.2
    rw [List.map_append, List.map_singleton, same, new, made.mapping]
    exact (maps.regions.map fresh).perm (List.perm_append_singleton ..).symm
  · rw [made.statuses]
    exact List.forall_mem_append.mpr ⟨fun e member => List.mem_cons_of_mem _ (maps.inUse e member),
      List.forall_mem_singleton.mpr (List.mem_cons_self ..)⟩
  · rw [List.map_append]
    refine List.nodup_append.mpr ⟨maps.distinct, List.nodup_singleton _, ?_⟩
    rintro st old other single rfl
    obtain ⟨e, member, same⟩ := List.mem_map.mp old
    have last : st = supply.objStatus := List.mem_singleton.mp single
    apply objStatus
    rw [← last, ← same]
    exact maps.inUse e member

/-- What a deallocation that returns has done. -/
structure Deallocated (big : BigHeap) (mapped : Mapped) (ptr st : ℕ) (big' : BigHeap)
    (mapped' : Mapped) : Prop where
  found : big._xmap.find ptr sizeofPointer = some st
  xmap : big'._xmap = (big._xmap.erase ptr sizeofPointer).2
  status : big'.status = big.status
  statuses : big'.statuses = big.statuses.filter (· ≠ st)
  mapping : mapped' = mapped.unmap (big.status st).start (big.status st).pageUpSize.toNat

theorem BigHeap.deallocated (ok : big.deallocateToBigHeap ptr mapped = .ok (big', mapped')) :
    ∃ st, Deallocated big mapped ptr st big' mapped' := by
  rw [BigHeap.deallocateToBigHeap] at ok
  cases found : big._xmap.find ptr sizeofPointer with
  | none =>
    rw [found] at ok
    cases ok
  | some st =>
    rw [found] at ok
    cases ok
    exact ⟨st, found, rfl, rfl, rfl, rfl⟩

/-- A pointer that the map knows is freed, and the region of its status object is unmapped. -/
theorem BigHeap.deallocate_found {st : ℕ} (found : big._xmap.find ptr sizeofPointer = some st) :
    ∃ big', big.deallocateToBigHeap ptr mapped =
      .ok (big', mapped.unmap (big.status st).region.start (big.status st).region.length) := by
  rw [BigHeap.deallocateToBigHeap, found]
  exact ⟨_, rfl⟩

/-- Freeing a large object takes its entry out and unmaps its region. -/
theorem Mappings.deallocate (maps : Mappings reserved big mapped entries) {st : ℕ}
    (freed : Deallocated big mapped ptr st big' mapped') :
    ∃ before after, entries = before ++ ((ptr, sizeofPointer), st) :: after ∧
      Mappings reserved big' mapped' (before ++ after) := by
  have found := freed.found
  rw [maps.models.find] at found
  obtain ⟨before, after, rfl, earlier⟩ := List.lookup_eq_some_iff.mp found
  refine ⟨before, after, rfl, ?_⟩
  have first : ∀ e ∈ before, e.1 ≠ (ptr, sizeofPointer) :=
    fun e member => (bne_iff_ne.mp (earlier e member)).symm
  have models := maps.models.erase_split first
  have sub := List.middle_sublist before after ((ptr, sizeofPointer), st)
  have other : ∀ e ∈ before ++ after, e.2 ≠ st := fun e member =>
    List.ne_of_nodup_middle maps.distinct member
  refine ⟨freed.xmap ▸ models, fun e member => maps.keylen e (sub.subset member), ?_, ?_, ?_,
    maps.distinct.sublist (sub.map _)⟩
  · rw [freed.status]
    exact fun e member => maps.places e (sub.subset member)
  · have regions := maps.regions
    rw [List.map_append, List.map_cons] at regions
    rw [freed.status, freed.mapping, List.map_append]
    exact (regions.perm List.perm_middle).unmap
  · rw [freed.statuses]
    intro e member
    exact List.mem_filter.mpr ⟨maps.inUse e (sub.subset member), by simpa using other e member⟩

end FreeGuard.Model
