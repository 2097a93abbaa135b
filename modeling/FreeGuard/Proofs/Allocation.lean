import FreeGuard.Proofs.Canary
import FreeGuard.Proofs.Library

/-! # What the calls around an allocation add to it

Where the next allocation goes is settled by the state before it and its inputs. `xxmemalign` moves the
pointer of its inner allocation, `xxcalloc` clears what that allocation returned.
-/

namespace FreeGuard.Model

variable {c : Config} {lib lib' : LibFreeGuard} {threadIndex p q : ℕ} {alignment size : size_t}
  {inputs : Inputs}

/-- The address of the next object: at the end of its mapping, the first of its free list, or under its
bump pointer. -/
def Config.nextObject (c : Config) (threadIndex : ℕ) (size : size_t) (inputs : Inputs)
    (lib : LibFreeGuard) : ℕ :=
  let item : ItemRef := ((threadIndex, c.bagNumOf size), (c.heap.selectList inputs.draws.list).1)
  if c.build.IF_CANARY_CONDITION size then
    inputs.supply.mmap.getD NULL + (BigHeap.pageUpSize size - size).toNat
  else if c.heap.UsesBump item inputs.draws lib.small then lib.small.position item
  else c.heap.getAddrFromShadowInfo
    (FREELIST_REMOVE lib.small.links (lib.small.freelist item)).1 item.1

theorem BibopHeap.takeObject_fst (heap : BibopHeap) (bag : BagRef) (draws : Draws) (s : HeapState) :
    (heap.takeObject bag draws s).1 =
      if heap.UsesBump (bag, (heap.selectList draws.list).1) draws s then
        s.position (bag, (heap.selectList draws.list).1)
      else heap.getAddrFromShadowInfo
        (FREELIST_REMOVE s.links (s.freelist (bag, (heap.selectList draws.list).1))).1 bag := by
  have idle_iff : (!IS_FREELIST_EMPTY (s.freelist (bag, (heap.selectList draws.list).1)) &&
      !(heap.selectList draws.list).2) = true ↔
      ¬heap.UsesBump (bag, (heap.selectList draws.list).1) draws s := by
    simp [UsesBump]
  rw [takeObject]
  dsimp only
  split
  · rename_i idle
    rw [if_neg (idle_iff.mp idle)]
  · rename_i busy
    rw [if_pos (not_not.mp fun idle => busy (idle_iff.mpr idle))]

/-- An allocation returns the next object. -/
theorem xxmalloc_nextObject (ok : lib.xxmalloc c.heap threadIndex size inputs = .ok (p, lib')) :
    p = c.nextObject threadIndex size inputs lib := by
  rw [LibFreeGuard.xxmalloc, Config.heap_build] at ok
  rw [Config.nextObject]
  cases routed : c.build.IF_CANARY_CONDITION size with
  | true =>
    rw [routed, if_pos rfl] at ok
    rw [if_pos rfl]
    cases ran : lib.big.allocateAtBigHeap size inputs.supply lib.mapped with
    | error stop =>
      rw [ran] at ok
      cases ok
    | ok result =>
      obtain ⟨object, big, mapped⟩ := result
      rw [ran] at ok
      cases ok
      obtain ⟨ptr, made⟩ := BigHeap.allocated ran
      rw [made.start, made.result]
      rfl
  | false =>
    rw [routed, if_neg Bool.false_ne_true] at ok
    cases ok
    rw [if_neg Bool.false_ne_true]
    exact c.heap.takeObject_fst ..

/-- An allocation returns no null pointer. -/
theorem Malloced.nonnull {pool pool' : Pool c} {entries entries' : Entries}
    (move : Malloced c threadIndex size inputs lib pool entries p lib' pool' entries') : p ≠ NULL := by
  cases routed : c.build.IF_CANARY_CONDITION size with
  | true =>
    cases move with
    | small small => cases routed.symm.trans small
    | @large ptr _ _ _ _ promise made =>
      have first := (made.placed promise.some).1
      have positive := Nat.pos_of_ne_zero promise.nonnull
      exact Nat.ne_of_gt (Nat.lt_of_lt_of_le positive first)
  | false =>
    obtain ⟨x, -, i, -, rfl⟩ := move.block routed
    have positive := c.heapBegin_pos
    rw [Config.bagBegin, NULL]
    omega

/-- No usable byte of a new block is the canary of an object of the small heap. -/
theorem Malloced.canary_not_usable {pool pool' : Pool c} {entries entries' : Entries} {a : ℕ}
    (canary : c.build.canary = true) (thread : threadIndex < MAX_ALIVE_THREADS)
    (present : ∀ a, c.Reserved a → lib.mapped a = true)
    (move : Malloced c threadIndex size inputs lib pool entries p lib' pool' entries') (first : p ≤ a)
    (last : a < p + c.usableSize size) {x : Slot c} (inside : x.heap < BIBOP_NUM_HEAPS) :
    x.canary ≠ a := by
  rw [Config.usableSize] at last
  cases routed : c.build.IF_CANARY_CONDITION size with
  | true =>
    rw [routed, if_pos rfl] at last
    cases move with
    | small small => cases routed.symm.trans small
    | @large ptr _ _ _ _ promise made =>
      obtain ⟨start, stop⟩ := made.placed promise.some
      have free := promise.fresh a (by omega) (by omega)
      have within := Slot.inside_iff.mpr inside
      have positive := classSize_pos x.bag
      rintro rfl
      have byte : c.Reserved x.canary :=
        ⟨within.1.trans (by rw [Slot.canary]; omega), by have := within.2; rw [Slot.canary]; omega⟩
      rw [present _ byte] at free
      cases free
  | false =>
    obtain ⟨y, -, i, block, rfl⟩ := move.block routed
    rw [routed, if_neg Bool.false_ne_true, Build.canaryBytes, canary, if_pos rfl] at last
    have isBlock : c.IsBlock ⟨c.bagBegin y.heap threadIndex (c.bagNumOf size) +
        i * classSize (c.bagNumOf size), classSize (c.bagNumOf size)⟩ :=
      ⟨y.heap, threadIndex, c.bagNumOf size, i, thread, Config.bagNumOf_lt routed, block.2.1, rfl⟩
    exact x.canary_not_usable isBlock ⟨first, last⟩

/-- An allocation does not return only when `mmap` fails. -/
theorem xxmalloc_error_iff : (∃ stop, lib.xxmalloc c.heap threadIndex size inputs = .error stop) ↔
    c.build.IF_CANARY_CONDITION size = true ∧ inputs.supply.mmap = none := by
  cases routed : c.build.IF_CANARY_CONDITION size with
  | true =>
    cases result : inputs.supply.mmap with
    | none =>
      rw [LibFreeGuard.xxmalloc, Config.heap_build, routed, if_pos rfl, BigHeap.allocateAtBigHeap,
        result]
      exact iff_of_true ⟨_, rfl⟩ ⟨rfl, rfl⟩
    | some ptr =>
      obtain ⟨big, mapped, ok⟩ := xxmalloc_large lib threadIndex routed result
      rw [ok]
      exact iff_of_false (by rintro ⟨_, ⟨⟩⟩) (by rintro ⟨-, ⟨⟩⟩)
  | false =>
    rw [xxmalloc_small lib threadIndex inputs routed]
    exact iff_of_false (by rintro ⟨_, ⟨⟩⟩) (by rintro ⟨⟨⟩, -⟩)

/-! ## xxmemalign -/

/-- What `xxmemalign` of a size that is not zero returns. -/
theorem xxmemalign_cases (nonzero : size ≠ 0)
    (ok : lib.xxmemalign c.heap threadIndex alignment size inputs = .ok (q, lib')) :
    ∃ object, lib.xxmalloc c.heap threadIndex (alignment + size) inputs = .ok (object, lib') ∧
      q = object + object % alignment.toNat := by
  rw [LibFreeGuard.xxmemalign, if_neg nonzero] at ok
  dsimp only at ok
  cases ran : lib.xxmalloc c.heap threadIndex (alignment + size) inputs with
  | error stop =>
    rw [ran] at ok
    cases ok
  | ok result =>
    obtain ⟨object, mid⟩ := result
    rw [ran] at ok
    cases ok
    exact ⟨object, rfl, rfl⟩

theorem xxmemalign_ok (nonzero : size ≠ 0)
    (inner : lib.xxmalloc c.heap threadIndex (alignment + size) inputs = .ok (p, lib')) :
    lib.xxmemalign c.heap threadIndex alignment size inputs =
      .ok (p + p % alignment.toNat, lib') := by
  rw [LibFreeGuard.xxmemalign, if_neg nonzero]
  dsimp only
  rw [inner]
  rfl

/-- `xxposix_memalign` stores what `xxmemalign` returns. -/
theorem xxposix_memalign_cases
    (ok : lib.xxposix_memalign c.heap threadIndex alignment size inputs = .ok (0, q, lib')) :
    lib.xxmemalign c.heap threadIndex alignment size inputs = .ok (q, lib') := by
  rw [LibFreeGuard.xxposix_memalign] at ok
  cases ran : lib.xxmemalign c.heap threadIndex alignment size inputs with
  | error stop =>
    rw [ran] at ok
    cases ok
  | ok result =>
    rw [ran] at ok
    cases ok
    rfl

/-- Adding the residue once aligns an address whose double is aligned. -/
theorem dvd_add_mod_iff (object alignment : ℕ) :
    alignment ∣ object + object % alignment ↔ alignment ∣ 2 * object := by
  simp only [Nat.dvd_iff_mod_eq_zero, Nat.add_mod_mod, Nat.two_mul]

/-! ## xxcalloc -/

/-- `xxcalloc` clears the block of its inner allocation. -/
theorem xxcalloc_cases {nelem elsize : size_t}
    (ok : lib.xxcalloc c.heap threadIndex nelem elsize inputs = .ok (p, lib')) :
    ∃ mid, lib.xxmalloc c.heap threadIndex (nelem * elsize) inputs = .ok (p, mid) ∧
      lib' = if p ≠ NULL then mid.memset p 0 (nelem * elsize).toNat else mid := by
  rw [LibFreeGuard.xxcalloc] at ok
  cases ran : lib.xxmalloc c.heap threadIndex (nelem * elsize) inputs with
  | error stop =>
    rw [ran] at ok
    cases ok
  | ok result =>
    obtain ⟨object, mid⟩ := result
    rw [ran] at ok
    change (if object ≠ NULL then _ else _) = _ at ok
    split at ok
    · rename_i nonnull
      cases ok
      exact ⟨mid, rfl, (if_pos nonnull).symm⟩
    · rename_i null
      cases ok
      exact ⟨_, rfl, (if_neg null).symm⟩

theorem xxcalloc_ok {nelem elsize : size_t} (nonnull : p ≠ NULL)
    (inner : lib.xxmalloc c.heap threadIndex (nelem * elsize) inputs = .ok (p, lib')) :
    lib.xxcalloc c.heap threadIndex nelem elsize inputs =
      .ok (p, lib'.memset p 0 (nelem * elsize).toNat) := by
  rw [LibFreeGuard.xxcalloc, inner]
  exact if_pos nonnull

/-! ## xxrealloc -/

section Realloc

variable {heap : BibopHeap} {sz oldSize : size_t} {stop : Stop}

theorem xxrealloc_invalid (nonnull : p ≠ NULL) (nonzero : sz ≠ 0)
    (sized : lib.oldSize heap p = .error stop) :
    lib.xxrealloc heap threadIndex p sz inputs = .error stop := by
  rw [LibFreeGuard.xxrealloc, if_neg nonnull, if_neg nonzero, sized]
  rfl

theorem xxrealloc_unknown (nonnull : p ≠ NULL) (nonzero : sz ≠ 0)
    (sized : lib.oldSize heap p = .ok (-1)) :
    lib.xxrealloc heap threadIndex p sz inputs = .ok (NULL, lib) := by
  rw [LibFreeGuard.xxrealloc, if_neg nonnull, if_neg nonzero, sized]
  rfl

theorem xxrealloc_kept (nonnull : p ≠ NULL) (nonzero : sz ≠ 0)
    (sized : lib.oldSize heap p = .ok oldSize) (known : oldSize ≠ -1) (enough : sz ≤ oldSize) :
    lib.xxrealloc heap threadIndex p sz inputs = .ok (p, lib) := by
  rw [LibFreeGuard.xxrealloc, if_neg nonnull, if_neg nonzero, sized]
  change (if oldSize = -1 then _ else if sz ≤ oldSize then _ else _) = _
  rw [if_neg known, if_pos enough]
  rfl

theorem xxrealloc_moved (nonnull : p ≠ NULL) (nonzero : sz ≠ 0)
    (sized : lib.oldSize heap p = .ok oldSize) (known : oldSize ≠ -1) (short : oldSize < sz) :
    lib.xxrealloc heap threadIndex p sz inputs = (do
      let (newObject, mid) ← lib.xxmalloc heap threadIndex sz inputs
      let last ← (mid.memcpy newObject p oldSize.toNat).xxfree heap threadIndex p
      pure (newObject, last)) := by
  rw [LibFreeGuard.xxrealloc, if_neg nonnull, if_neg nonzero, sized]
  change (if oldSize = -1 then _ else if sz ≤ oldSize then _ else _) = _
  simp only [if_neg known, if_neg (BitVec.not_le.mpr short)]

end Realloc

end FreeGuard.Model
