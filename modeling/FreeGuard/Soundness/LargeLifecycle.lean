import FreeGuard.Machine.Run
import FreeGuard.Proofs.BigHeap

/-! # The life of a large object

In every run of the big heap the map holds exactly the live large objects. Each ends with the region that
was mapped for it, whose length is its size rounded up to whole pages, and the regions mapped so far are
those of the live objects and those unmapped, each as often as it was mapped.
-/

namespace FreeGuard.Soundness.LargeLifecycle

open Machine Model HashMap

variable {build : Build} {s t : BigSystem} {event : BigEvent} {events : List BigEvent}
  {entries : List ((ℕ × size_t) × ℕ)}

/-- A status object describes a live object: whole pages, as few as hold it, which it ends with. -/
structure Describes (status : BigObjectStatus) (p : ℕ) (size : size_t) : Prop where
  size_eq : status.size = size
  whole : PageSize ∣ status.pageUpSize.toNat
  holds : size.toNat ≤ status.pageUpSize.toNat
  least : ∀ pages, PageSize ∣ pages → size.toNat ≤ pages → status.pageUpSize.toNat ≤ pages
  first : status.start ≤ p
  near : p - status.start < PageSize
  last : p + size.toNat = status.start + status.pageUpSize.toNat

/-- The region that the map leads to from a pointer. -/
def regionOf (big : BigHeap) (p : ℕ) : Option Region :=
  (big._xmap.find p sizeofPointer).map fun st => (big.status st).region

/-- What holds between two calls. -/
structure Lifecycle (s : BigSystem) : Prop where
  /-- The keys of the map are the live pointers, each once. -/
  keys : ∃ entries, s.big._xmap.Models entries ∧
    (entries.map Prod.fst).Perm (s.live.map fun entry => (entry.1, sizeofPointer))
  once : (s.live.map Prod.fst).Nodup
  isLarge : ∀ p, s.big.isLargeObject p = true ↔ p ∈ s.live.map Prod.fst
  placed : ∀ entry ∈ s.live, ∃ st, s.big._xmap.find entry.1 sizeofPointer = some st ∧
    Describes (s.big.status st) entry.1 entry.2
  sizes : ∀ entry ∈ s.live, s.big.getObjectSize entry.1 = entry.2
  disjoint : s.live.Pairwise fun first second =>
    Region.Apart ⟨first.1, first.2.toNat⟩ ⟨second.1, second.2.toNat⟩
  /-- Every region mapped is that of one live object, or has been unmapped once. -/
  unmapped : s.maps.Perm (s.unmaps ++ s.live.filterMap fun entry => regionOf s.big entry.1)
  accepted : ∀ entry ∈ s.live, ∃ region big, regionOf s.big entry.1 = some region ∧
    s.big.deallocateToBigHeap entry.1 s.mapped = .ok (big, s.mapped.unmap region.start region.length)
  rejected : ∀ p, p ∉ s.live.map Prod.fst →
    s.big.deallocateToBigHeap p s.mapped = .error (.invalidFree p)

/-- The live object of an entry of the map. -/
def liveOf (big : BigHeap) (e : (ℕ × size_t) × ℕ) : ℕ × size_t := (e.1.1, (big.status e.2).size)

/-- The map's entries account for the live objects and the regions. -/
structure Accounts (s : BigSystem) (entries : List ((ℕ × size_t) × ℕ)) : Prop where
  mappings : Mappings (fun _ => False) s.big s.mapped entries
  live : s.live.Perm (entries.map (liveOf s.big))
  maps : s.maps.Perm (s.unmaps ++ entries.map fun e => (s.big.status e.2).region)

theorem Accounts.step (held : Accounts s entries) (step : BigStep build s event t) :
    ∃ entries', Accounts t entries' := by
  cases step with
  | @allocate size supply start ptr big mapped routed objStatus entry result promise ok =>
    obtain ⟨start', made⟩ := BigHeap.allocated ok
    obtain rfl := Option.some.inj (made.result.symm.trans result)
    have large := Build.large_of_condition routed
    have kept := held.mappings.status_kept objStatus made
    have new := (made.places large promise).1
    refine ⟨_, held.mappings.allocate large objStatus entry promise made, ?_, ?_⟩
    · have same : entries.map (liveOf big) = entries.map (liveOf s.big) :=
        List.map_congr_left fun e member => by rw [liveOf, kept e member, liveOf]
      rw [List.map_append, List.map_singleton, same, liveOf, new]
      exact (held.live.cons _).trans (List.perm_append_singleton ..).symm
    · have same : entries.map (fun e => (big.status e.2).region) =
          entries.map fun e => (s.big.status e.2).region :=
        List.map_congr_left fun e member => by rw [kept e member]
      rw [List.map_append, List.map_singleton, same, new, ← List.append_assoc]
      exact (held.maps.cons _).trans (List.perm_append_singleton ..).symm
  | @deallocate ptr st big mapped found ok =>
    obtain ⟨st', freed⟩ := BigHeap.deallocated ok
    obtain rfl := Option.some.inj (freed.found.symm.trans found)
    obtain ⟨before, after, rfl, mappings⟩ := held.mappings.deallocate freed
    refine ⟨_, mappings, ?_, ?_⟩
    · have others : ∀ e ∈ before ++ after, e.1.1 ≠ ptr := fun e member =>
        List.ne_of_nodup_middle held.mappings.addr_nodup member
      have kept : (before ++ after).map (liveOf big) = (before ++ after).map (liveOf s.big) := by
        apply List.map_congr_left
        intro e member
        simp only [liveOf, freed.status]
      have left := held.live.trans (List.perm_middle.map (liveOf s.big))
      have filtered := left.filter fun entry => decide (entry.1 ≠ ptr)
      have unchanged : ((before ++ after).map (liveOf s.big)).filter
          (fun entry => decide (entry.1 ≠ ptr)) = (before ++ after).map (liveOf s.big) := by
        apply List.filter_eq_self.mpr
        intro entry member
        obtain ⟨e, inside, rfl⟩ := List.mem_map.mp member
        exact decide_eq_true (others e inside)
      rw [List.map_cons, List.filter_cons_of_neg (by simp [liveOf]), unchanged, ← kept] at filtered
      exact filtered
    · have maps := held.maps
      rw [List.map_append, List.map_cons] at maps
      rw [freed.status, List.map_append]
      exact (maps.trans (List.perm_middle.append_left _)).trans List.perm_middle
  | isLargeObject => exact ⟨entries, held⟩
  | getObjectSize => exact ⟨entries, held⟩

/-- A live object is that of one entry of the map. -/
theorem Accounts.entry (held : Accounts s entries) {entry : ℕ × size_t} (live : entry ∈ s.live) :
    ∃ e ∈ entries, liveOf s.big e = entry ∧
      s.big._xmap.find entry.1 sizeofPointer = some e.2 := by
  obtain ⟨e, member, rfl⟩ := List.mem_map.mp (held.live.mem_iff.mp live)
  exact ⟨e, member, rfl, held.mappings.find_of_mem member⟩

theorem Accounts.isLarge (held : Accounts s entries) (p : ℕ) :
    s.big.isLargeObject p = true ↔ p ∈ s.live.map Prod.fst := by
  rw [held.mappings.isLargeObject_iff, (held.live.map Prod.fst).mem_iff, List.map_map]
  constructor
  · intro member
    obtain ⟨e, inside, same⟩ := List.mem_map.mp member
    exact List.mem_map.mpr ⟨e, inside, congrArg Prod.fst same⟩
  · intro member
    obtain ⟨e, inside, same⟩ := List.mem_map.mp member
    exact List.mem_map.mpr ⟨e, inside, Prod.ext same (held.mappings.keylen e inside)⟩

theorem Accounts.lifecycle (held : Accounts s entries) : Lifecycle s where
  keys := by
    refine ⟨entries, held.mappings.models, ?_⟩
    have keys : entries.map Prod.fst =
        (entries.map (liveOf s.big)).map fun entry => (entry.1, sizeofPointer) := by
      rw [List.map_map]
      exact List.map_congr_left fun e member => Prod.ext rfl (held.mappings.keylen e member)
    rw [keys]
    exact (held.live.map _).symm
  once := by
    rw [(held.live.map Prod.fst).nodup_iff, List.map_map]
    exact held.mappings.addr_nodup
  isLarge := held.isLarge
  placed := by
    intro entry live
    obtain ⟨e, member, rfl, found⟩ := held.entry live
    have places := held.mappings.places e member
    refine ⟨e.2, found, rfl, ?_, ?_, ?_, places.first, places.near, places.last⟩
    · rw [places.rounded]
      exact BigHeap.pageUpSize_dvd _
    · have first := places.first
      have last := places.last
      change (s.big.status e.2).size.toNat ≤ _
      omega
    · rw [places.rounded]
      exact fun pages => BigHeap.pageUpSize_least _
  sizes := by
    intro entry live
    obtain ⟨e, member, rfl, found⟩ := held.entry live
    rw [BigHeap.getObjectSize, found]
    rfl
  disjoint := by
    have symmetric : Std.Symm fun first second : ℕ × size_t =>
        Region.Apart ⟨first.1, first.2.toNat⟩ ⟨second.1, second.2.toNat⟩ :=
      ⟨fun _ _ apart => Std.Symm.symm _ _ apart⟩
    apply (held.live.pairwise_iff fun apart => symmetric.symm _ _ apart).mpr
    rw [List.pairwise_map]
    apply (List.pairwise_map.mp held.mappings.regions.apart).imp_of_mem
    intro e f first second apart a inE inF
    exact apart a ((held.mappings.places e first).block_covers inE)
      ((held.mappings.places f second).block_covers inF)
  unmapped := by
    have regions : (entries.map (liveOf s.big)).filterMap (fun entry => regionOf s.big entry.1) =
        entries.map fun e => (s.big.status e.2).region := by
      rw [List.filterMap_map, ← List.filterMap_eq_map]
      apply List.filterMap_congr
      intro e member
      change regionOf s.big e.1.1 = some _
      rw [regionOf, held.mappings.find_of_mem member]
      rfl
    have live := held.live.filterMap fun entry => regionOf s.big entry.1
    rw [regions] at live
    exact held.maps.trans (live.symm.append_left _)
  accepted := by
    intro entry live
    obtain ⟨e, member, rfl, found⟩ := held.entry live
    obtain ⟨big', ok⟩ := BigHeap.deallocate_found found
    refine ⟨_, big', ?_, ok⟩
    rw [regionOf, found]
    rfl
  rejected := by
    intro p dead
    have absent : s.big._xmap.find p sizeofPointer = none := by
      rw [← held.isLarge, BigHeap.isLargeObject, Bool.not_eq_true] at dead
      exact Option.not_isSome_iff_eq_none.mp (Bool.not_eq_true _ ▸ dead)
    simp only [BigHeap.deallocateToBigHeap, absent]

/-- Every run of the big heap keeps the lifecycle. -/
theorem large_lifecycle (build : Build) (links : LinkedPath.Links ListRef) (count : ℕ → size_t)
    (entryAt : ListRef → Entry ℕ ℕ) (status : ℕ → BigObjectStatus) (mapped : Mapped)
    (run : Run (BigStep build) (.initial links count entryAt status mapped) events t) :
    Lifecycle t := by
  have start : Accounts (.initial links count entryAt status mapped) [] :=
    ⟨mappings_initBigHeap links count entryAt status fun _ never => never.elim, .nil, .nil⟩
  obtain ⟨entries, held⟩ := run.invariant (fun s => ∃ entries, Accounts s entries)
    (fun _ _ _ ⟨_, held⟩ step => held.step step) ⟨[], start⟩
  exact held.lifecycle

/-- What a first allocation obtains. -/
def firstSupply : Supply := ⟨0, 0, some 0x300000000000⟩

/-- The big heap over zeroed memory, with nothing mapped. -/
def zeroed : BigSystem :=
  .initial ⟨fun _ => .bucket 0, fun _ => .bucket 0⟩ (fun _ => 0) (fun _ => ⟨0, 0, 0⟩)
    (fun _ => ⟨0, 0, 0⟩) fun _ => false

/-- In the default build the first large object lives, is freed, and leaves nothing mapped. -/
theorem first_object_lifecycle : ∃ t,
    Run (BigStep .makefile) zeroed
      [.allocate 0x400001 firstSupply, .deallocate 0x300000000fff] t ∧
    Lifecycle t ∧ t.live = [] ∧ t.unmaps = [⟨0x300000000000, 0x401000⟩] ∧ t.unmaps = t.maps := by
  have place : 0x300000000000 + (BigHeap.pageUpSize 0x400001 - 0x400001).toNat = 0x300000000fff := by
    decide
  have result : firstSupply.mmap = some 0x300000000000 := rfl
  obtain ⟨big, mapped, ok⟩ := BigHeap.allocate_mapped 0x400001 result
  rw [place] at ok
  have promise : MmapResult zeroed.mapped (BigHeap.pageUpSize 0x400001).toNat 0x300000000000 :=
    ⟨by decide, by decide, by decide, by decide, fun _ _ _ => rfl⟩
  have unused : firstSupply.entry ∉ zeroed.big._xmap.blocks := by
    have empty : zeroed.big._xmap.Refines [] := refines_initializeMap _ (by decide) _ _ _
    exact fun member => absurd ((empty.block _).mp member) List.not_mem_nil
  have first : BigStep .makefile zeroed (.allocate 0x400001 firstSupply) _ :=
    .allocate zeroed (by decide) List.not_mem_nil unused result promise ok
  have between := large_lifecycle _ _ _ _ _ _ (.single first)
  obtain ⟨region, big', known, freed⟩ := between.accepted _ (List.mem_cons_self ..)
  obtain ⟨st, found, same⟩ := Option.map_eq_some_iff.mp known
  have run := Run.cons first (.single (BigStep.deallocate _ found freed))
  have region_eq : region = ⟨0x300000000000, 0x401000⟩ := by
    have only := between.unmapped
    simp only [List.filterMap_cons, known] at only
    exact (List.singleton_perm_singleton.mp only).symm
  refine ⟨_, run, large_lifecycle _ _ _ _ _ _ run, rfl, ?_, ?_⟩
  · rw [same, region_eq]
    rfl
  · rw [same, region_eq]
    rfl

end FreeGuard.Soundness.LargeLifecycle
