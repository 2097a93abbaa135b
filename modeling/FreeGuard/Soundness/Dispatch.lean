import FreeGuard.Proofs.LibRun

/-! # Frees and reallocations go to the heap that issued the block

The two heaps are told apart by an address range whose upper bound is inclusive. A large object that
starts right at the end of the small heap is therefore taken for a small one. As long as no mapping
places an object there and the bump pointers stay in the small heap, every live pointer is in the range
exactly when the small heap issued it, and the other ones are in the map.
-/

namespace FreeGuard.Soundness.Dispatch

open Machine Model

variable {c : Config} {s : LibSystem} {lib : LibFreeGuard} {pool : Pool c} {entries : Entries}

/-! ## The calls on a pointer of known owner -/

/-- `xxfree` at the heap of the owner. -/
def freeAt (heap : BibopHeap) (owner : Owner) (threadIndex ptr : ℕ) (lib : LibFreeGuard) :
    Except Stop LibFreeGuard :=
  match owner with
  | .small => do
    let small ← heap.freeSmallObject threadIndex ptr lib.small
    pure { lib with small := small }
  | .large => do
    let (big, mapped) ← lib.big.deallocateToBigHeap ptr lib.mapped
    pure { lib with big := big, mapped := mapped }

/-- The size that the heap of the owner reports. -/
def oldSizeAt (heap : BibopHeap) (owner : Owner) (ptr : ℕ) (lib : LibFreeGuard) : Except Stop size_t :=
  match owner with
  | .small => heap.getObjectSize ptr
  | .large => .ok (lib.big.getObjectSize ptr)

/-- `xxrealloc` of a non-null pointer with both of its calls at the heap of the owner. -/
def reallocAt (heap : BibopHeap) (owner : Owner) (threadIndex ptr : ℕ) (sz : size_t) (inputs : Inputs)
    (lib : LibFreeGuard) : Except Stop (ℕ × LibFreeGuard) :=
  if sz = 0 then do
    let lib ← freeAt heap owner threadIndex ptr lib
    pure (NULL, lib)
  else do
    let oldSize ← oldSizeAt heap owner ptr lib
    if oldSize = -1 then pure (NULL, lib)
    else if oldSize ≥ sz then pure (ptr, lib)
    else
      let (newObject, lib) ← lib.xxmalloc heap threadIndex sz inputs
      let lib := lib.memcpy newObject ptr oldSize.toNat
      let lib ← freeAt heap owner threadIndex ptr lib
      pure (newObject, lib)

/-- The two tests tell the owner of a non-null pointer. -/
structure Told (heap : BibopHeap) (lib : LibFreeGuard) (ptr : ℕ) (owner : Owner) : Prop where
  nonnull : ptr ≠ NULL
  isSmall : heap.isSmallObject ptr = true ↔ owner = .small
  isLarge : owner = .large → lib.big.isLargeObject ptr = true

theorem Told.xxfree {heap : BibopHeap} {ptr : ℕ} {owner : Owner} (told : Told heap lib ptr owner)
    (threadIndex : ℕ) : lib.xxfree heap threadIndex ptr = freeAt heap owner threadIndex ptr lib := by
  rw [LibFreeGuard.xxfree, if_neg told.nonnull]
  cases owner with
  | small => rw [if_pos (told.isSmall.mpr rfl), freeAt]
  | large =>
    have notSmall : ¬heap.isSmallObject ptr = true := fun small =>
      absurd (told.isSmall.mp small) (by decide)
    simp only [if_neg notSmall, if_pos (told.isLarge rfl), freeAt]

theorem Told.oldSize {heap : BibopHeap} {ptr : ℕ} {owner : Owner} (told : Told heap lib ptr owner) :
    lib.oldSize heap ptr = oldSizeAt heap owner ptr lib := by
  rw [LibFreeGuard.oldSize]
  cases owner with
  | small => rw [if_pos (told.isSmall.mpr rfl), oldSizeAt]
  | large =>
    have notSmall : ¬heap.isSmallObject ptr = true := fun small =>
      absurd (told.isSmall.mp small) (by decide)
    simp only [if_neg notSmall, if_pos (told.isLarge rfl), oldSizeAt]

/-! ## The invariant -/

/-- No large object starts right at the end of the small heap. -/
def AvoidsEnd (c : Config) (size : size_t) (inputs : Inputs) : Prop :=
  c.build.IF_CANARY_CONDITION size = true → inputs.supply.mmap = some c.heap._heapEnd →
    BigHeap.pageUpSize size ≠ size

/-- Bump pointers stay in the heap, and no large object starts at its end. -/
def apart (c : Config) : Discipline :=
  ⟨fun lib threadIndex size inputs => BumpsInside c lib threadIndex size inputs ∧
    AvoidsEnd c size inputs, fun _ => True⟩

/-- Live small pointers lie in the small heap, live large ones are in the map and not at its end. -/
structure Routed (c : Config) (s : LibSystem) (pool : Pool c) (entries : Entries) : Prop where
  inside : HeldInside pool
  avoids : ∀ e ∈ entries, e.1.1 ≠ c.heap._heapEnd
  small : ∀ p, (p, Owner.small) ∈ s.live → c.Reserved p
  large : ∀ p, (p, Owner.large) ∈ s.live → (p, sizeofPointer) ∈ entries.map Prod.fst

/-- An object at the end of the small heap fills a mapping that starts there. -/
theorem eq_of_end {mapped : Mapped} {ptr p : ℕ} {size : size_t}
    {big big' : BigHeap} {mapped' : Mapped} {supply : Supply}
    (present : ∀ a, c.Reserved a → mapped a = true)
    (promise : MmapResult mapped (BigHeap.pageUpSize size).toNat ptr)
    (large : LARGE_OBJECT_MIN ≤ size.toNat)
    (made : Allocated big mapped size supply ptr p big' mapped') (last : p = c.heap._heapEnd) :
    ptr = c.heap._heapEnd ∧ BigHeap.pageUpSize size = size := by
  obtain ⟨first, stop⟩ := made.placed promise.some
  have big : 2 ^ 19 ≤ size.toNat := large
  have nonempty : c.heap._heapBegin < c.heap._heapEnd := by
    rw [Config.heap_heapEnd, Config.heap_heapBegin]
    have positive : 0 < c.heapSize := by
      rw [c.heapSize_eq_pow]
      exact Nat.two_pow_pos _
    have heaps : 0 < BIBOP_NUM_HEAPS := by decide
    have := Nat.mul_pos heaps positive
    omega
  have start : ptr = c.heap._heapEnd := by
    by_contra before
    have busy := present (c.heap._heapEnd - 1) ⟨by omega, by omega⟩
    have free := promise.fresh (c.heap._heapEnd - 1) (by omega) (by omega)
    exact absurd (busy.symm.trans free) Bool.true_eq_false.mp
  exact ⟨start, BitVec.eq_of_toNat_eq (by omega)⟩

/-- A small pointer in the heap more. -/
theorem Routed.push_small {pool' : Pool c} {lib' : LibFreeGuard} {p : ℕ}
    (routed : Routed c s pool entries) (inside : HeldInside pool') (reserved : c.Reserved p) :
    Routed c ⟨lib', (p, .small) :: s.live⟩ pool' entries := by
  refine ⟨inside, routed.avoids, ?_, ?_⟩
  · intro q member
    rcases List.mem_cons.mp member with same | old
    · obtain ⟨rfl, -⟩ := Prod.mk.inj same
      exact reserved
    · exact routed.small q old
  · intro q member
    rcases List.mem_cons.mp member with same | old
    · cases same
    · exact routed.large q old

/-- A pointer to an object of the map more. -/
theorem Routed.push_large {pool' : Pool c} {lib' : LibFreeGuard} {p st : ℕ}
    (routed : Routed c s pool entries) (inside : HeldInside pool') (avoids : p ≠ c.heap._heapEnd) :
    Routed c ⟨lib', (p, .large) :: s.live⟩ pool' (entries ++ [((p, sizeofPointer), st)]) := by
  refine ⟨inside, ?_, ?_, ?_⟩
  · exact List.forall_mem_append.mpr ⟨routed.avoids, List.forall_mem_singleton.mpr avoids⟩
  · intro q member
    rcases List.mem_cons.mp member with same | old
    · cases same
    · exact routed.small q old
  · intro q member
    rw [List.map_append, List.mem_append]
    rcases List.mem_cons.mp member with same | old
    · obtain ⟨rfl, -⟩ := Prod.mk.inj same
      exact .inr (List.mem_singleton_self _)
    · exact .inl (routed.large q old)

theorem Routed.free {pool' : Pool c} {entries' : Entries} {lib' : LibFreeGuard} {threadIndex ptr : ℕ}
    (routed : Routed c s pool entries)
    (move : Freed c threadIndex ptr s.lib pool entries lib' pool' entries') :
    Routed c ⟨lib', dropLive ptr s.live⟩ pool' entries' := by
  have inside := routed.inside.free move
  have kept {q : ℕ} {owner : Owner} (member : (q, owner) ∈ dropLive ptr s.live) :
      (q, owner) ∈ s.live ∧ q ≠ ptr := by
    simpa [dropLive] using member
  have small (q : ℕ) (member : (q, Owner.small) ∈ dropLive ptr s.live) : c.Reserved q :=
    routed.small q (kept member).1
  cases move with
  | ignored => exact ⟨inside, routed.avoids, small, fun q member => routed.large q (kept member).1⟩
  | small => exact ⟨inside, routed.avoids, small, fun q member => routed.large q (kept member).1⟩
  | @large st big mapped before after notSmall freed split =>
    subst split
    refine ⟨inside, fun e member => routed.avoids e ?_, small, fun q member => ?_⟩
    · exact List.mem_middle.mpr (.inr member)
    · obtain ⟨live, other⟩ := kept member
      have old := routed.large q live
      rw [List.map_append, List.map_cons] at old
      rw [List.map_append]
      rcases List.mem_middle.mp old with same | kept
      · exact absurd (Prod.mk.inj same).1 other
      · exact kept

theorem routed_preserved (c : Config) : Preserves c (apart c) (Routed c) where
  malloc := by
    intro s pool pool' entries entries' threadIndex p size inputs lib' routed held allowed move
    have inside := routed.inside.malloc held.small allowed.1 move
    have blocks := fun toSmall => move.block toSmall
    cases move with
    | @small p small pool' toSmall ran step =>
      obtain ⟨x, live, i, block, place⟩ := blocks toSmall
      have within := (Config.block_inside_iff block.1 (Config.bagNumOf_lt toSmall) block.2.1).mpr
        (inside x (.inl live))
      rw [← place] at within
      have positive := classSize_pos (c.bagNumOf size)
      have last := within.2
      rw [ownerOf, Config.heap_build, toSmall, if_neg Bool.false_ne_true]
      exact routed.push_small inside ⟨within.1, by omega⟩
    | @large ptr p big mapped toLarge promise made =>
      rw [ownerOf, Config.heap_build, toLarge, if_pos rfl]
      apply routed.push_large inside
      intro last
      obtain ⟨start, whole⟩ := eq_of_end held.large.regions.reserved_present promise
        (Build.large_of_condition toLarge) made last
      exact allowed.2 toLarge (start ▸ made.result) whole
  free routed _ _ move := routed.free move
  write _ routed := ⟨routed.inside, routed.avoids, routed.small, routed.large⟩

/-- The tests tell the owner of every live pointer. -/
theorem Routed.told (routed : Routed c s pool entries) (held : Consistent c s.lib pool entries) {p : ℕ}
    {owner : Owner} (live : (p, owner) ∈ s.live) : Told c.heap s.lib p owner := by
  cases owner with
  | small =>
    have within := routed.small p live
    have positive := c.heapBegin_pos
    have first := within.1
    rw [Config.heap_heapBegin] at first
    refine ⟨by rw [NULL]; omega, iff_of_true (isSmallObject_iff.mpr ⟨within.1, within.2.le⟩) rfl, ?_⟩
    exact fun large => absurd large (by decide)
  | large =>
    obtain ⟨e, member, key⟩ := List.mem_map.mp (routed.large p live)
    obtain rfl : e.1.1 = p := by rw [key]
    have places := held.large.places e member
    have outside := held.large.regions.unreserved _ (List.mem_map_of_mem member) _ places.covers
    have first := places.first
    have nonnull : (s.lib.big.status e.2).start ≠ 0 := places.nonnull
    refine ⟨by rw [NULL]; omega, iff_of_false (fun small => ?_) (by decide), fun _ => ?_⟩
    · obtain ⟨lower, upper⟩ := isSmallObject_iff.mp small
      exact outside ⟨lower, lt_of_le_of_ne upper (routed.avoids e member)⟩
    · rw [held.large.isLargeObject_iff, ← held.large.keylen e member]
      exact List.mem_map_of_mem member

/-- A reallocation of a live pointer makes both of its calls at the heap of the owner. -/
theorem Routed.xxrealloc (routed : Routed c s pool entries) (held : Consistent c s.lib pool entries)
    {p threadIndex : ℕ} {owner : Owner} {sz : size_t} {inputs : Inputs} (live : (p, owner) ∈ s.live)
    (thread : threadIndex < MAX_ALIVE_THREADS) (supplied : Supplied s.lib sz inputs.supply)
    (allowed : (apart c).alloc s.lib threadIndex sz inputs) :
    s.lib.xxrealloc c.heap threadIndex p sz inputs =
      reallocAt c.heap owner threadIndex p sz inputs s.lib := by
  have told := routed.told held live
  rw [LibFreeGuard.xxrealloc, reallocAt, if_neg told.nonnull, told.xxfree, told.oldSize]
  split
  · rfl
  cases oldSizeAt c.heap owner p s.lib with
  | error stop => rfl
  | ok oldSize =>
    change (if oldSize = -1 then _ else _) = if oldSize = -1 then _ else _
    split
    · rfl
    split
    · rfl
    cases ran : s.lib.xxmalloc c.heap threadIndex sz inputs with
    | error stop => rfl
    | ok result =>
      obtain ⟨newObject, mid⟩ := result
      obtain ⟨pool', entries', move, after⟩ := held.xxmalloc thread supplied ran
      have grown := (routed_preserved c).malloc routed held allowed move
      have copied := (routed_preserved c).write (mid.memcpy newObject p oldSize.toNat).small.mem grown
      have again : Told c.heap (mid.memcpy newObject p oldSize.toNat) p owner :=
        copied.told (after.withMem _) (List.mem_cons_of_mem _ live)
      change ((mid.memcpy newObject p oldSize.toNat).xxfree c.heap threadIndex p >>= _) =
        (freeAt c.heap owner threadIndex p (mid.memcpy newObject p oldSize.toNat) >>= _)
      rw [again.xxfree threadIndex]

/-- The inputs of an allocation for which `mmap` returns the end of the small heap. -/
def endInputs : Inputs := ⟨⟨0, 0⟩, ⟨0, 0, some Config.makefile.heap._heapEnd⟩⟩

end FreeGuard.Soundness.Dispatch
