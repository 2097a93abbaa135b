import FreeGuard.Proofs.BlockMoves

/-! # Reallocating a dead pointer

`xxrealloc` asks for the size of the class of an address, not whether an object is live there. Of the
pointers into the small heap that are not live it refuses those that fail the class check and those into
an unusable bag; the others it keeps or copies from. A pointer outside the heap is refused when the map
does not know it.
-/

namespace FreeGuard.Soundness.DeadRealloc

open Machine Model

variable {c : Config} {lib : LibFreeGuard} {pool : Pool c} {entries : Entries} {threadIndex p : ℕ}
  {sz size : size_t} {inputs : Inputs} {h t b off : ℕ}

/-- `xxrealloc` copies bytes of the old block. -/
def Copies (heap : BibopHeap) (threadIndex p : ℕ) (sz : size_t) (inputs : Inputs) (lib : LibFreeGuard) :
    Prop :=
  ∃ oldSize newObject mid, lib.oldSize heap p = .ok oldSize ∧ oldSize ≠ -1 ∧ oldSize < sz ∧
    lib.xxmalloc heap threadIndex sz inputs = .ok (newObject, mid) ∧ oldSize ≠ 0

/-- `xxrealloc` returns null or ends the process, and copies nothing. -/
structure Rejected (heap : BibopHeap) (threadIndex p : ℕ) (sz : size_t) (inputs : Inputs)
    (lib : LibFreeGuard) : Prop where
  returns : ∀ q lib', lib.xxrealloc heap threadIndex p sz inputs = .ok (q, lib') → q = NULL
  copies : ¬Copies heap threadIndex p sz inputs lib

/-- The shadow entry of an address is marked, or is the one that the next object of the small heap gets. -/
def MarkedNext (c : Config) (threadIndex p : ℕ) (sz : size_t) (inputs : Inputs) (lib : LibFreeGuard) :
    Prop :=
  let shadowinfo := c.heap.getShadowObjectInfoIn p (c.heap.bagOf p)
  lib.small.links shadowinfo = ALLOC_SENTINEL ∨ c.build.IF_CANARY_CONDITION sz = false ∧
    shadowinfo = c.heap.getShadowObjectInfoIn (c.nextObject threadIndex sz inputs lib)
      (threadIndex, c.bagNumOf sz)

/-- The dead pointers that the code refuses. -/
inductive Refused (c : Config) (threadIndex p : ℕ) (sz : size_t) (inputs : Inputs)
    (lib : LibFreeGuard) : Prop
  | outside : c.heap.isSmallObject p = false → Refused c threadIndex p sz inputs lib
  | misaligned : c.heap.localBagOffset p &&& (c.heap._threadBag (c.heap.bagOf p)).classMask ≠ 0 →
      Refused c threadIndex p sz inputs lib
  | exhausted : c.build.IF_CANARY_CONDITION sz = true → inputs.supply.mmap = none →
      Refused c threadIndex p sz inputs lib
  | unusable : c.heap._numUsableBags ≤ (c.heap.bagOf p).2 →
      (c.build.canary = false → ¬MarkedNext c threadIndex p sz inputs lib) →
      Refused c threadIndex p sz inputs lib

/-! ## The ways through the call -/

section Ways

variable {heap : BibopHeap}

theorem rejected_of_invalid {stop : Stop} (nonnull : p ≠ NULL) (nonzero : sz ≠ 0)
    (sized : lib.oldSize heap p = .error stop) : Rejected heap threadIndex p sz inputs lib where
  returns q lib' ok := by
    rw [xxrealloc_invalid nonnull nonzero sized] at ok
    cases ok
  copies := by
    rintro ⟨_, _, _, known, -⟩
    cases sized.symm.trans known

theorem rejected_of_unknown (nonnull : p ≠ NULL) (nonzero : sz ≠ 0)
    (sized : lib.oldSize heap p = .ok (-1)) : Rejected heap threadIndex p sz inputs lib where
  returns q lib' ok := by
    rw [xxrealloc_unknown nonnull nonzero sized] at ok
    cases ok
    rfl
  copies := by
    rintro ⟨_, _, _, known, valid, -⟩
    cases sized.symm.trans known
    exact valid rfl

theorem not_rejected_of_kept (nonnull : p ≠ NULL) (nonzero : sz ≠ 0)
    (sized : lib.oldSize heap p = .ok size) (known : size ≠ -1) (enough : sz ≤ size) :
    ¬Rejected heap threadIndex p sz inputs lib := fun rejected =>
  nonnull (rejected.returns p lib (xxrealloc_kept nonnull nonzero sized known enough))

theorem rejected_of_exhausted {stop : Stop} (nonnull : p ≠ NULL) (nonzero : sz ≠ 0)
    (sized : lib.oldSize heap p = .ok size) (known : size ≠ -1) (short : size < sz)
    (failed : lib.xxmalloc heap threadIndex sz inputs = .error stop) :
    Rejected heap threadIndex p sz inputs lib where
  returns q lib' ok := by
    rw [xxrealloc_moved nonnull nonzero sized known short, failed] at ok
    cases ok
  copies := by
    rintro ⟨_, _, _, -, -, -, ok, -⟩
    cases failed.symm.trans ok

end Ways

/-! ## Pointers into the small heap -/

/-- In a usable bag only a failing allocation stops the call. -/
theorem rejected_usable_iff (nonnull : p ≠ NULL) (nonzero : sz ≠ 0) (usable : b < c.usable)
    (sized : lib.oldSize c.heap p = .ok (c.reportedSize b)) :
    Rejected c.heap threadIndex p sz inputs lib ↔
      c.build.IF_CANARY_CONDITION sz = true ∧ inputs.supply.mmap = none := by
  have least := classSize_ge b
  have most := classSize_le usable
  have byte := c.build.canaryBytes_le
  have value := Config.reportedSize_toNat usable
  have top : (-1 : size_t).toNat = 2 ^ 64 - 1 := rfl
  have known : c.reportedSize b ≠ -1 := by
    intro same
    rw [same] at value
    omega
  have nonempty : c.reportedSize b ≠ 0 := by
    intro same
    rw [same] at value
    change 0 = _ at value
    omega
  by_cases enough : sz ≤ c.reportedSize b
  · apply iff_of_false (not_rejected_of_kept nonnull nonzero sized known enough)
    rintro ⟨large, -⟩
    have above := Config.class_lt_of_condition usable large
    rw [BitVec.le_def] at enough
    omega
  · have short := BitVec.not_le.mp enough
    have failing : (∃ stop, lib.xxmalloc c.heap threadIndex sz inputs = .error stop) ↔ _ :=
      xxmalloc_error_iff
    rw [← failing]
    constructor
    · intro rejected
      cases ran : lib.xxmalloc c.heap threadIndex sz inputs with
      | error stop => exact ⟨stop, rfl⟩
      | ok result => exact absurd ⟨_, _, _, sized, known, short, ran, nonempty⟩ rejected.copies
    · rintro ⟨stop, failed⟩
      exact rejected_of_exhausted nonnull nonzero sized known short failed

/-- A deallocation at an address that passes the class check fails exactly when its entry is unmarked. -/
theorem free_plain_iff (plain : c.build.canary = false) {s : HeapState} (rep : Represents c s pool)
    (thread : t < MAX_ALIVE_THREADS) (number : b < c.numBags) (small : off < c.bagSize)
    (aligned : b < c.usable → off % classSize b = 0) :
    (∃ next, c.heap.freeSmallObject threadIndex (c.bagBegin h t b + off) s = .ok next) ↔
      s.links (c.entryAt h (c.rankAt t b off)) = ALLOC_SENTINEL := by
  constructor
  · rintro ⟨next, ok⟩
    rw [BibopHeap.freeSmallObject, Config.getShadowObjectInfo_at thread number small,
      if_neg fun both => both.2 (aligned both.1)] at ok
    change (if BibopHeap.isObjectFree s _ then _ else _) = _ at ok
    split at ok
    · cases ok
    · rename_i busy
      simpa [BibopHeap.isObjectFree] using busy
  · intro mark
    obtain ⟨x, live, -, -, leads⟩ := rep.leadsTo_of_marked thread number small aligned mark
    rw [rep.free_of_live leads live]
    exact rep.freeMarked_plain leads live plain

/-- The marks after an allocation. -/
theorem marked_after {q : ℕ} {mid : LibFreeGuard}
    (ok : lib.xxmalloc c.heap threadIndex sz inputs = .ok (q, mid)) :
    mid.small.links (c.heap.getShadowObjectInfoIn p (c.heap.bagOf p)) = ALLOC_SENTINEL ↔
      MarkedNext c threadIndex p sz inputs lib := by
  have next := xxmalloc_nextObject ok
  dsimp only [MarkedNext]
  rw [← next]
  cases routed : c.build.IF_CANARY_CONDITION sz with
  | true =>
    rw [LibFreeGuard.xxmalloc, Config.heap_build, routed, if_pos rfl] at ok
    cases ran : lib.big.allocateAtBigHeap sz inputs.supply lib.mapped with
    | error stop =>
      rw [ran] at ok
      cases ok
    | ok result =>
      rw [ran] at ok
      cases ok
      simp
  | false =>
    rw [xxmalloc_small lib threadIndex inputs routed] at ok
    cases ok
    rw [allocateSmallObject_links (Prod.eta _).symm, Function.update_apply]
    simp only [true_and]
    split
    · rename_i same
      exact iff_of_true rfl (.inr same)
    · rename_i other
      exact ⟨.inl, fun either => either.resolve_right other⟩

/-- After an allocation the deallocation at an address that passes the class check succeeds exactly when
the address is marked by then. -/
theorem free_moved_iff (plain : c.build.canary = false) {q : ℕ} {mid : LibFreeGuard}
    (ok : lib.xxmalloc c.heap threadIndex sz inputs = .ok (q, mid))
    (rep : Represents c (mid.memcpy q p 0).small pool) (thread : t < MAX_ALIVE_THREADS)
    (number : b < c.numBags) (small : off < c.bagSize) (place : p = c.bagBegin h t b + off)
    (aligned : b < c.usable → off % classSize b = 0) :
    (∃ next, c.heap.freeSmallObject threadIndex p (mid.memcpy q p 0).small = .ok next) ↔
      MarkedNext c threadIndex p sz inputs lib := by
  have entry : c.heap.getShadowObjectInfoIn p (c.heap.bagOf p) = c.entryAt h (c.rankAt t b off) := by
    have decoded := Config.getShadowObjectInfo_at (h := h) thread number small
    rw [if_neg fun both => both.2 (aligned both.1), ← place] at decoded
    obtain ⟨ofAddr, shadowinfo⟩ := c.heap.getShadowObjectInfo_ok decoded
    rw [← ofAddr, shadowinfo]
  have frees : (∃ next, c.heap.freeSmallObject threadIndex (c.bagBegin h t b + off)
      (mid.memcpy q p 0).small = .ok next) ↔
      mid.small.links (c.entryAt h (c.rankAt t b off)) = ALLOC_SENTINEL :=
    free_plain_iff plain rep thread number small aligned
  rw [← place, ← entry] at frees
  exact frees.trans (marked_after ok)

/-- Without canaries the size in an unusable bag is zero, and the deallocation decides. -/
theorem rejected_plain_iff (plain : c.build.canary = false) (held : Consistent c lib pool entries)
    (caller : threadIndex < MAX_ALIVE_THREADS) (supplied : Supplied lib sz inputs.supply)
    (nonzero : sz ≠ 0) (thread : t < MAX_ALIVE_THREADS) (number : b < c.numBags)
    (unusable : c.usable ≤ b) (small : off < c.bagSize) (place : p = c.bagBegin h t b + off)
    (isSmall : c.heap.isSmallObject p = true) (sized : lib.oldSize c.heap p = .ok 0) :
    Rejected c.heap threadIndex p sz inputs lib ↔
      (c.build.IF_CANARY_CONDITION sz = true ∧ inputs.supply.mmap = none) ∨
        ¬MarkedNext c threadIndex p sz inputs lib := by
  have nonnull : p ≠ NULL := by
    have positive := c.heapBegin_pos
    rw [place, Config.bagBegin, NULL]
    omega
  have known : (0 : size_t) ≠ -1 := by decide
  have short : 0 < sz := by
    rw [BitVec.lt_def]
    exact Nat.pos_of_ne_zero fun zero => nonzero (BitVec.eq_of_toNat_eq zero)
  have aligned : b < c.usable → off % classSize b = 0 := fun usable =>
    absurd usable (Nat.not_lt.mpr unusable)
  have failing : (∃ stop, lib.xxmalloc c.heap threadIndex sz inputs = .error stop) ↔ _ :=
    xxmalloc_error_iff
  rw [← failing]
  cases ran : lib.xxmalloc c.heap threadIndex sz inputs with
  | error stop =>
    exact iff_of_true (rejected_of_exhausted nonnull nonzero sized known short ran) (.inl ⟨stop, rfl⟩)
  | ok result =>
    obtain ⟨q, mid⟩ := result
    obtain ⟨pool', entries', move, after⟩ := held.xxmalloc caller supplied ran
    have copied : Represents c (mid.memcpy q p 0).small pool' := (after.withMem _).small
    have marks := free_moved_iff plain ran copied thread number small place aligned
    have free : (mid.memcpy q p 0).xxfree c.heap threadIndex p =
        (do let small ← c.heap.freeSmallObject threadIndex p (mid.memcpy q p 0).small
            pure { mid.memcpy q p 0 with small := small }) := by
      simp only [LibFreeGuard.xxfree, if_neg nonnull, if_pos isSmall]
    have moved : lib.xxrealloc c.heap threadIndex p sz inputs = _ :=
      xxrealloc_moved nonnull nonzero sized known short
    rw [ran] at moved
    change _ = ((mid.memcpy q p 0).xxfree c.heap threadIndex p >>= _) at moved
    rw [free] at moved
    have unfailing : ¬∃ stop, (Except.ok (q, mid) : Except Stop (ℕ × LibFreeGuard)) = .error stop := by
      rintro ⟨_, ⟨⟩⟩
    rw [← marks]
    constructor
    · intro rejected
      apply Or.inr
      rintro ⟨next, ok⟩
      rw [ok] at moved
      exact move.nonnull (rejected.returns _ _ moved)
    · rintro (failed | stuck)
      · exact absurd failed unfailing
      · constructor
        · intro q' lib' ok
          cases ended : c.heap.freeSmallObject threadIndex p (mid.memcpy q p 0).small with
          | error stop =>
            rw [moved, ended] at ok
            cases ok
          | ok next => exact absurd ⟨next, ended⟩ stuck
        · rintro ⟨_, _, _, again, -, -, -, nonempty⟩
          cases sized.symm.trans again
          exact nonempty rfl

/-! ## Every dead pointer -/

/-- What is refused, at an address of the small heap. -/
theorem refused_iff (thread : t < MAX_ALIVE_THREADS) (number : b < c.numBags) (small : off < c.bagSize)
    (place : p = c.bagBegin h t b + off) (isSmall : c.heap.isSmallObject p = true) :
    Refused c threadIndex p sz inputs lib ↔ (b < c.usable ∧ off % classSize b ≠ 0) ∨
      (c.build.IF_CANARY_CONDITION sz = true ∧ inputs.supply.mmap = none) ∨
      c.usable ≤ b ∧ (c.build.canary = false → ¬MarkedNext c threadIndex p sz inputs lib) := by
  have bag : c.heap.bagOf p = (t, b) := place ▸ Config.bagOf_at thread number small
  have offset : c.heap.localBagOffset p = off := place ▸ Config.localBagOffset_at small
  have masked : c.heap.localBagOffset p &&& (c.heap._threadBag (c.heap.bagOf p)).classMask ≠ 0 ↔
      b < c.usable ∧ off % classSize b ≠ 0 := by
    rw [bag, offset]
    rcases Nat.lt_or_ge b c.usable with usable | unusable
    · rw [show (c.heap._threadBag (t, b)).classMask = 2 ^ (b + 4) - 1 from
        congrArg PerThreadBag.classMask (Config.heap_threadBag thread usable),
        Nat.and_two_pow_sub_one_eq_mod]
      exact (and_iff_right usable).symm
    · rw [show (c.heap._threadBag (t, b)).classMask = 0 from
        congrArg PerThreadBag.classMask (Config.heap_unusable t unusable), Nat.and_zero]
      exact iff_of_false (not_not.mpr rfl) fun both => Nat.not_lt.mpr unusable both.1
  rw [← masked]
  constructor
  · rintro (outside | misaligned | ⟨large, none⟩ | ⟨unusable, unmarked⟩)
    · rw [isSmall] at outside
      cases outside
    · exact .inl misaligned
    · exact .inr (.inl ⟨large, none⟩)
    · rw [bag, Config.heap_numUsableBags] at unusable
      exact .inr (.inr ⟨unusable, unmarked⟩)
  · rintro (misaligned | ⟨large, none⟩ | ⟨unusable, unmarked⟩)
    · exact .misaligned misaligned
    · exact .exhausted large none
    · refine .unusable ?_ unmarked
      rw [bag, Config.heap_numUsableBags]
      exact unusable

/-- After any run, a reallocation of a pointer that is no live block returns null or ends the process,
without copying from it, exactly when the code refuses the pointer. -/
theorem dead_realloc_iff (c : Config) {s t : LibSystem} {events : List LibEvent}
    (booted : Booted c s.lib) (run : Run (LibStep c.heap) s events t)
    (caller : threadIndex < MAX_ALIVE_THREADS) (supplied : Supplied t.lib sz inputs.supply)
    (nonnull : p ≠ NULL) (dead : ∀ n, ¬Block c t.lib p n) (nonzero : sz ≠ 0) :
    Rejected c.heap threadIndex p sz inputs t.lib ↔ Refused c threadIndex p sz inputs t.lib := by
  obtain ⟨pool, entries, held⟩ := exists_consistent booted run
  cases isSmall : c.heap.isSmallObject p with
  | false =>
    have isLarge : t.lib.big.isLargeObject p = false := by
      rw [BigHeap.isLargeObject]
      cases found : t.lib.big._xmap.find p sizeofPointer with
      | none => rfl
      | some st => exact absurd (.large found) (dead _)
    have sized := oldSize_unknown isSmall isLarge
    exact iff_of_true (rejected_of_unknown nonnull nonzero sized) (.outside isSmall)
  | true =>
    obtain ⟨h, thr, b, off, thread, number, small, place⟩ :=
      c.exists_place (isSmallObject_iff.mp isSmall).1
    have sized := Config.getObjectSize_at (h := h) thread number small (place ▸ isSmall)
    rw [← place, show c.heap.getObjectSize p = t.lib.oldSize c.heap p by
      rw [LibFreeGuard.oldSize, if_pos isSmall]] at sized
    rw [refused_iff thread number small place isSmall]
    rcases Nat.lt_or_ge b c.usable with usable | unusable
    · rcases eq_or_ne (off % classSize b) 0 with aligned | aligned
      · rw [if_neg fun both => both.2 aligned] at sized
        rw [rejected_usable_iff nonnull nonzero usable sized]
        refine ⟨fun exhausted => .inr (.inl exhausted), ?_⟩
        rintro (⟨-, misaligned⟩ | exhausted | ⟨unusable, -⟩)
        · exact absurd aligned misaligned
        · exact exhausted
        · exact absurd usable (Nat.not_lt.mpr unusable)
      · rw [if_pos ⟨usable, aligned⟩] at sized
        exact iff_of_true (rejected_of_invalid nonnull nonzero sized) (.inl ⟨usable, aligned⟩)
    · rw [if_neg fun both => Nat.not_lt.mpr unusable both.1, Config.reportedSize,
        if_neg (Nat.not_lt.mpr unusable)] at sized
      cases canary : c.build.canary with
      | true =>
        rw [canary, if_pos rfl] at sized
        exact iff_of_true (rejected_of_unknown nonnull nonzero sized)
          (.inr (.inr ⟨unusable, fun plain => absurd plain Bool.true_eq_false.mp⟩))
      | false =>
        rw [canary, if_neg Bool.false_ne_true] at sized
        rw [rejected_plain_iff canary held caller supplied nonzero thread number unusable small place
          isSmall sized]
        constructor
        · rintro (exhausted | unmarked)
          · exact .inr (.inl exhausted)
          · exact .inr (.inr ⟨unusable, fun _ => unmarked⟩)
        · rintro (⟨usable, -⟩ | exhausted | ⟨-, unmarked⟩)
          · exact absurd usable (Nat.not_lt.mpr unusable)
          · exact .inl exhausted
          · exact .inr (unmarked rfl)

/-- In the default build a pointer below the heap is refused at the start. -/
theorem unknown_pointer_rejected :
    Rejected Config.makefile.heap 0 8 16 plainInputs Config.makefile.boot := by
  have outside : Config.makefile.heap.isSmallObject 8 = false := by
    rw [BibopHeap.isSmallObject, Config.heap_heapBegin]
    rfl
  apply (dead_realloc_iff Config.makefile Config.makefile.booted (.nil Config.makefile.library)
    (by decide) (supplied_plain _ _) (by decide) ?_ (by decide)).mpr (.outside outside)
  intro n block
  generalize place : 8 = p at block
  cases block with
  | small x =>
    have start := x.heapBegin_le
    rw [← place] at start
    exact absurd start (by decide)
  | large found =>
    have none := Config.makefile.booted.consistent.large.models.find p sizeofPointer
    cases found.symm.trans none

/-- In the default build the first object is given back by `realloc` after it has been freed. -/
theorem freed_pointer_kept : ∃ p s,
    Run (LibStep Config.makefile.heap) Config.makefile.library
      [.malloc 0 15 plainInputs, .free 0 p] s ∧
    p ≠ NULL ∧ (∀ n, ¬Block Config.makefile s.lib p n) ∧
    s.lib.xxrealloc Config.makefile.heap 0 p 8 plainInputs = .ok (p, s.lib) ∧
    ¬Rejected Config.makefile.heap 0 p 8 plainInputs s.lib := by
  have thread : 0 < MAX_ALIVE_THREADS := by decide
  obtain ⟨x, taken, pool, inner, after, inside, only, number, written⟩ := Config.makefile_first
  have member : x ∈ pool.live := only ▸ Set.mem_singleton x
  have isSmall := Slot.isSmallObject_addr (inside x (.inl member))
  have intact := after.small.intact_of_single only written
  obtain ⟨small, pool', ok, ended, freed, released⟩ :=
    xxfree_slot after.small isSmall member fun _ y _ => intact y
  have first := LibStep.malloc Config.makefile.library thread (supplied_plain _ _) inner
  refine ⟨x.addr, _, .cons first (.single (.free _ thread ok)), x.addr_ne_null, ?_, ?_⟩
  · intro n block
    generalize same : x.addr = p at block
    cases block with
    | small y mark =>
      obtain rfl := Slot.addr_inj same
      have still := freed.live_iff.mpr mark
      rw [released.live] at still
      exact still.2 rfl
    | large found =>
      have none := after.large.models.find p sizeofPointer
      cases found.symm.trans none
  · have sized : ({ Config.makefile.boot with small := small } : LibFreeGuard).oldSize
        Config.makefile.heap x.addr = .ok (Config.makefile.reportedSize x.bag) :=
      Slot.oldSize_addr isSmall
    rw [number] at sized
    have known : Config.makefile.reportedSize 0 ≠ -1 := by decide
    have enough : 8 ≤ Config.makefile.reportedSize 0 := by decide
    exact ⟨xxrealloc_kept x.addr_ne_null (by decide) sized known enough,
      not_rejected_of_kept x.addr_ne_null (by decide) sized known enough⟩

end FreeGuard.Soundness.DeadRealloc
