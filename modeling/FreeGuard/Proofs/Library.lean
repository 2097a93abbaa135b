import FreeGuard.Model.LibRun
import FreeGuard.Proofs.BigHeap
import FreeGuard.Proofs.SmallRun

/-! # The library calls as moves of its two heaps

A state of the library is consistent when its small heap represents a pool of slots and its map stands
for a list of large objects, mapped away from the small heap. `xxmalloc` and `xxfree` make one move of
one of the two; `xxrealloc` makes at most one of each. What every move preserves under a discipline on
the calls, every run under that discipline preserves.
-/

namespace FreeGuard.Model

open Machine

/-- The large objects of a state, in the order of their allocation. -/
abbrev Entries := List ((ℕ × size_t) × ℕ)

variable {c : Config} {lib lib' : LibFreeGuard} {pool pool' : Pool c} {entries entries' : Entries}
  {threadIndex ptr p : ℕ} {size : size_t} {inputs : Inputs}

/-- The bytes of the small heap. -/
def Config.Reserved (c : Config) (a : ℕ) : Prop := c.heap._heapBegin ≤ a ∧ a < c.heap._heapEnd

/-- The library after `heapinitialize`. -/
structure Booted (c : Config) (lib : LibFreeGuard) : Prop where
  small : lib.small = c.start
  big : ∃ links count entryAt status, lib.big = .initBigHeap links count entryAt status
  reserved : ∀ a, c.Reserved a → lib.mapped a = true

/-- The small heap represents the pool, the map stands for the large objects. -/
structure Consistent (c : Config) (lib : LibFreeGuard) (pool : Pool c) (entries : Entries) : Prop where
  small : Represents c lib.small pool
  large : Mappings c.Reserved lib.big lib.mapped entries

theorem Booted.consistent (booted : Booted c lib) : Consistent c lib SlotPool.fresh [] := by
  obtain ⟨small, ⟨links, count, entryAt, status, big⟩, reserved⟩ := booted
  constructor
  · rw [small]
    exact represents_start c
  · rw [big]
    exact mappings_initBigHeap links count entryAt status reserved

/-- A library that has just been initialized, over zeroed memory, with nothing mapped but its heap. -/
def Config.boot (c : Config) : LibFreeGuard where
  small := c.start
  big := .initBigHeap ⟨fun _ => .bucket 0, fun _ => .bucket 0⟩ (fun _ => 0) (fun _ => ⟨0, 0, 0⟩)
    fun _ => ⟨0, 0, 0⟩
  mapped a := c.heap._heapBegin ≤ a && a < c.heap._heapEnd

theorem Config.booted (c : Config) : Booted c c.boot where
  small := rfl
  big := ⟨_, _, _, _, rfl⟩
  reserved a inside := by
    simp only [boot, Bool.and_eq_true, decide_eq_true_eq]
    exact inside

/-- Before the first call no block is in use. -/
theorem supplied_boot (c : Config) (size : size_t) (supply : Supply)
    (mmap : ∀ ptr, supply.mmap = some ptr →
      MmapResult c.boot.mapped (BigHeap.pageUpSize size).toNat ptr) :
    Supplied c.boot size supply where
  objStatus := List.not_mem_nil
  entry member := by
    have empty : c.boot.big._xmap.Refines [] := HashMap.refines_initializeMap _ (by decide) _ _ _
    exact absurd ((empty.block _).mp member) List.not_mem_nil
  mmap := mmap

/-- Draws of the first item and of no random guard, and nothing of the system. -/
def plainInputs : Inputs := ⟨⟨0, 0x7fffffff⟩, ⟨0, 0, none⟩⟩

theorem supplied_plain (c : Config) (size : size_t) : Supplied c.boot size plainInputs.supply :=
  supplied_boot c size _ fun _ none => absurd none (Option.some_ne_none _).symm

/-- The inputs of an allocation that is mapped far from the heap. -/
def mappedInputs : Inputs := ⟨⟨0, 0⟩, ⟨0, 0, some 0x300000000000⟩⟩

theorem supplied_mapped (size : size_t) (some : 0 < (BigHeap.pageUpSize size).toNat)
    (fits : 0x300000000000 + (BigHeap.pageUpSize size).toNat ≤ 2 ^ 47) :
    Supplied Config.makefile.boot size mappedInputs.supply := by
  apply supplied_boot
  intro ptr same
  obtain rfl := Option.some.inj same
  refine ⟨some, by decide, by decide, fits, fun a first _ => ?_⟩
  have past : Config.makefile.heap._heapEnd ≤ a := by
    rw [Config.heap_heapEnd]
    exact le_trans (by decide +kernel) first
  simp only [Config.boot, Bool.and_eq_false_iff, decide_eq_false_iff_not]
  exact .inr (Nat.not_lt.mpr past)

/-- The library before the first call. -/
def Config.library (c : Config) : LibSystem := ⟨c.boot, []⟩

/-! ## The moves -/

/-- The library with other bytes in memory. -/
def LibFreeGuard.withMem (lib : LibFreeGuard) (mem : ℕ → UInt8) : LibFreeGuard :=
  { lib with small := { lib.small with mem := mem } }

theorem Represents.withMem {s : HeapState} (rep : Represents c s pool) (mem : ℕ → UInt8) :
    Represents c { s with mem := mem } pool :=
  rep.congr rfl rfl rfl rfl rfl rfl rfl

theorem Consistent.withMem (held : Consistent c lib pool entries) (mem : ℕ → UInt8) :
    Consistent c (lib.withMem mem) pool entries :=
  ⟨held.small.withMem mem, held.large⟩

/-- The moves of `xxmalloc`. -/
inductive Malloced (c : Config) (threadIndex : ℕ) (size : size_t) (inputs : Inputs)
    (lib : LibFreeGuard) (pool : Pool c) (entries : Entries) :
    ℕ → LibFreeGuard → Pool c → Entries → Prop
  | small {p : ℕ} {small : HeapState} {pool' : Pool c} :
      c.build.IF_CANARY_CONDITION size = false →
      c.heap.allocateSmallObject threadIndex size inputs.draws lib.small = (p, small) →
      PoolStep c ⟨lib.small, []⟩ pool (.malloc threadIndex size inputs.draws)
        ⟨small, [⟨p, classSize (c.bagNumOf size)⟩]⟩ pool' →
      Malloced c threadIndex size inputs lib pool entries p { lib with small := small } pool' entries
  | large {ptr p : ℕ} {big : BigHeap} {mapped : Mapped} :
      c.build.IF_CANARY_CONDITION size = true →
      MmapResult lib.mapped (BigHeap.pageUpSize size).toNat ptr →
      Allocated lib.big lib.mapped size inputs.supply ptr p big mapped →
      Malloced c threadIndex size inputs lib pool entries p
        { lib with big := big, mapped := mapped } pool
        (entries ++ [((p, sizeofPointer), inputs.supply.objStatus)])

/-- The moves of `xxfree`. -/
inductive Freed (c : Config) (threadIndex ptr : ℕ) (lib : LibFreeGuard) (pool : Pool c)
    (entries : Entries) : LibFreeGuard → Pool c → Entries → Prop
  | ignored : ptr = NULL ∨ c.heap.isSmallObject ptr = false ∧ lib.big.isLargeObject ptr = false →
      Freed c threadIndex ptr lib pool entries lib pool entries
  | small {small : HeapState} {pool' : Pool c} :
      c.heap.isSmallObject ptr = true →
      c.heap.freeSmallObject threadIndex ptr lib.small = .ok small →
      PoolStep c ⟨lib.small, []⟩ pool (.free threadIndex ptr) ⟨small, []⟩ pool' →
      Freed c threadIndex ptr lib pool entries { lib with small := small } pool' entries
  | large {st : ℕ} {big : BigHeap} {mapped : Mapped} {before after : Entries} :
      c.heap.isSmallObject ptr = false → Deallocated lib.big lib.mapped ptr st big mapped →
      entries = before ++ ((ptr, sizeofPointer), st) :: after →
      Freed c threadIndex ptr lib pool entries { lib with big := big, mapped := mapped } pool
        (before ++ after)

/-- An allocation at the small heap always returns. -/
theorem xxmalloc_small (lib : LibFreeGuard) (threadIndex : ℕ) (inputs : Inputs)
    (routed : c.build.IF_CANARY_CONDITION size = false) :
    lib.xxmalloc c.heap threadIndex size inputs =
      .ok ((c.heap.allocateSmallObject threadIndex size inputs.draws lib.small).1,
        { lib with small := (c.heap.allocateSmallObject threadIndex size inputs.draws lib.small).2 }) := by
  rw [LibFreeGuard.xxmalloc, Config.heap_build, routed]
  rfl

/-- An allocation at the big heap returns when `mmap` does. -/
theorem xxmalloc_large (lib : LibFreeGuard) (threadIndex : ℕ)
    (routed : c.build.IF_CANARY_CONDITION size = true) (result : inputs.supply.mmap = some ptr) :
    ∃ big mapped, lib.xxmalloc c.heap threadIndex size inputs =
      .ok (ptr + (BigHeap.pageUpSize size - size).toNat, { lib with big := big, mapped := mapped }) := by
  rw [LibFreeGuard.xxmalloc, Config.heap_build, routed, if_pos rfl, BigHeap.allocateAtBigHeap, result]
  exact ⟨_, _, rfl⟩

/-- An allocation that returns is one of the moves. -/
theorem Consistent.xxmalloc (held : Consistent c lib pool entries)
    (thread : threadIndex < MAX_ALIVE_THREADS) (supplied : Supplied lib size inputs.supply)
    (ok : lib.xxmalloc c.heap threadIndex size inputs = .ok (p, lib')) :
    ∃ pool' entries', Malloced c threadIndex size inputs lib pool entries p lib' pool' entries' ∧
      Consistent c lib' pool' entries' := by
  rw [LibFreeGuard.xxmalloc, Config.heap_build] at ok
  cases routed : c.build.IF_CANARY_CONDITION size with
  | true =>
    rw [routed, if_pos rfl] at ok
    cases ran : lib.big.allocateAtBigHeap size inputs.supply lib.mapped with
    | error stop =>
      rw [ran] at ok
      cases ok
    | ok result =>
      obtain ⟨q, big, mapped⟩ := result
      rw [ran] at ok
      cases ok
      obtain ⟨ptr, made⟩ := BigHeap.allocated ran
      have promise := supplied.mmap ptr made.result
      refine ⟨pool, _, .large routed promise made, held.small, ?_⟩
      exact held.large.allocate (Build.large_of_condition routed) supplied.objStatus supplied.entry
        promise made
  | false =>
    rw [routed, if_neg Bool.false_ne_true] at ok
    cases ok
    have step : HeapStep c.heap ⟨lib.small, []⟩ (.malloc threadIndex size inputs.draws) _ :=
      .malloc _ thread routed
    obtain ⟨pool', move, rep⟩ := step.simulates held.small
    have number : classSizeOf c.heap.build size = classSize (c.bagNumOf size) :=
      (Config.bagNumOf_spec routed).2.1
    rw [HeapSystem.malloc, number] at move
    exact ⟨pool', entries, .small routed rfl move, rep, held.large⟩

theorem isSmallObject_iff :
    c.heap.isSmallObject p = true ↔ c.heap._heapBegin ≤ p ∧ p ≤ c.heap._heapEnd := by
  simp only [BibopHeap.isSmallObject, Bool.and_eq_true, decide_eq_true_eq]

/-- A deallocation that returns is one of the moves. -/
theorem Consistent.xxfree (held : Consistent c lib pool entries)
    (thread : threadIndex < MAX_ALIVE_THREADS)
    (ok : lib.xxfree c.heap threadIndex ptr = .ok lib') :
    ∃ pool' entries', Freed c threadIndex ptr lib pool entries lib' pool' entries' ∧
      Consistent c lib' pool' entries' := by
  rw [LibFreeGuard.xxfree] at ok
  split at ok
  · rename_i null
    cases ok
    exact ⟨pool, entries, .ignored (.inl null), held⟩
  · split at ok
    · rename_i isSmall
      cases ran : c.heap.freeSmallObject threadIndex ptr lib.small with
      | error stop =>
        rw [ran] at ok
        cases ok
      | ok small =>
        rw [ran] at ok
        cases ok
        have range := isSmallObject_iff.mp isSmall
        have step : HeapStep c.heap ⟨lib.small, []⟩ (.free threadIndex ptr) ⟨small, []⟩ :=
          .free ⟨lib.small, []⟩ thread range.1 ran
        obtain ⟨pool', move, rep⟩ := step.simulates held.small
        exact ⟨pool', entries, .small isSmall ran move, rep, held.large⟩
    · rename_i notSmall
      have notSmall := Bool.eq_false_iff.mpr notSmall
      split at ok
      · cases ran : lib.big.deallocateToBigHeap ptr lib.mapped with
        | error stop =>
          rw [ran] at ok
          cases ok
        | ok result =>
          obtain ⟨big, mapped⟩ := result
          rw [ran] at ok
          cases ok
          obtain ⟨st, freed⟩ := BigHeap.deallocated ran
          obtain ⟨before, after, split, large⟩ := held.large.deallocate freed
          exact ⟨pool, _, .large notSmall freed split, held.small, large⟩
      · rename_i notLarge
        cases ok
        exact ⟨pool, entries, .ignored (.inr ⟨notSmall, Bool.eq_false_iff.mpr notLarge⟩), held⟩

/-- An allocation at the small heap takes a slot of its bag that was not live. -/
theorem Malloced.slot (own : Own pool) (held : Consistent c lib pool entries)
    (routed : c.build.IF_CANARY_CONDITION size = false)
    (move : Malloced c threadIndex size inputs lib pool entries p lib' pool' entries') :
    ∃ x : Slot c, x.addr = p ∧ x ∉ pool.live ∧ pool'.live = insert x pool.live ∧
      x.bagRef = (threadIndex, c.bagNumOf size) := by
  cases move with
  | large large => cases routed.symm.trans large
  | small _ ran step =>
    obtain ⟨x, dead, live, bag, returned⟩ := step.issued_slot own held.small.partition
    exact ⟨x, (congrArg Issue.addr (List.cons.inj returned).1).symm, dead, live, bag⟩

/-- An allocation at the small heap returns a block of its bag. -/
theorem Malloced.block (routed : c.build.IF_CANARY_CONDITION size = false)
    (move : Malloced c threadIndex size inputs lib pool entries p lib' pool' entries') :
    ∃ x ∈ pool'.live, ∃ i, x.BlockOf (threadIndex, c.bagNumOf size) i ∧
      p = c.bagBegin x.heap threadIndex (c.bagNumOf size) + i * classSize (c.bagNumOf size) := by
  cases move with
  | large large => cases routed.symm.trans large
  | small _ ran step =>
    obtain ⟨x, live, i, block, returned⟩ := step.issued
    exact ⟨x, live, i, block, congrArg Issue.addr (List.cons.inj returned).1⟩

/-- A block of a bag starts at a multiple of the smallest class. -/
theorem Config.block_aligned (h t b i : ℕ) :
    BIBOP_MIN_BLOCK_SIZE ∣ c.bagBegin h t b + i * classSize b := by
  have page : BIBOP_MIN_BLOCK_SIZE ∣ PageSize := by decide
  have ofClass : BIBOP_MIN_BLOCK_SIZE ∣ classSize b := Nat.pow_dvd_pow 2 (Nat.le_add_left 4 b)
  exact Nat.dvd_add (page.trans (Lane.bagBegin_aligned h t b)) (ofClass.mul_left i)

/-- A small allocation that uses its bump pointer finds it inside the heap. -/
def BumpsInside (c : Config) (lib : LibFreeGuard) (threadIndex : ℕ) (size : size_t)
    (inputs : Inputs) : Prop :=
  let item : ItemRef := ((threadIndex, c.bagNumOf size), (c.heap.selectList inputs.draws.list).1)
  c.build.IF_CANARY_CONDITION size = false → c.heap.UsesBump item inputs.draws lib.small →
    lib.small.position item < c.heap._heapEnd

/-- A bump pointer of the initialized heap is inside it. -/
theorem bumpsInside_boot (c : Config) (threadIndex : ℕ) (thread : threadIndex < MAX_ALIVE_THREADS)
    (size : size_t) (inputs : Inputs) : BumpsInside c c.boot threadIndex size inputs := by
  intro routed uses
  have place : c.start.position (c.laneOf thread routed inputs.draws).ref =
      ((c.laneOf thread routed inputs.draws).slot 0).addr :=
    ((represents_start c).lanes (c.laneOf thread routed inputs.draws)).position
  have first : (c.laneOf thread routed inputs.draws).heapAt 0 < BIBOP_NUM_HEAPS := by
    rw [Lane.heapAt, Nat.zero_div, Nat.zero_mul, Nat.zero_add]
    exact Nat.lt_of_lt_of_le (Lane.item_lt _) c.bagSet
  have below := (Slot.addr_lt_heapEnd_iff (x := (c.laneOf thread routed inputs.draws).slot 0)).mpr first
  rw [← place] at below
  exact below

/-- The ways through `xxrealloc`. -/
inductive Reallocated (heap : BibopHeap) (threadIndex ptr : ℕ) (sz : size_t) (inputs : Inputs)
    (lib : LibFreeGuard) : ℕ → LibFreeGuard → Prop
  | fresh {q : ℕ} {lib' : LibFreeGuard} : ptr = NULL →
      lib.xxmalloc heap threadIndex sz inputs = .ok (q, lib') →
      Reallocated heap threadIndex ptr sz inputs lib q lib'
  | freed {lib' : LibFreeGuard} : ptr ≠ NULL → sz = 0 → lib.xxfree heap threadIndex ptr = .ok lib' →
      Reallocated heap threadIndex ptr sz inputs lib NULL lib'
  | unknown : ptr ≠ NULL → sz ≠ 0 → lib.oldSize heap ptr = .ok (-1) →
      Reallocated heap threadIndex ptr sz inputs lib NULL lib
  | kept {oldSize : size_t} : ptr ≠ NULL → sz ≠ 0 → lib.oldSize heap ptr = .ok oldSize →
      oldSize ≠ -1 → sz ≤ oldSize → Reallocated heap threadIndex ptr sz inputs lib ptr lib
  | moved {oldSize : size_t} {q : ℕ} {mid lib' : LibFreeGuard} : ptr ≠ NULL → sz ≠ 0 →
      lib.oldSize heap ptr = .ok oldSize → oldSize ≠ -1 → oldSize < sz →
      lib.xxmalloc heap threadIndex sz inputs = .ok (q, mid) →
      (mid.memcpy q ptr oldSize.toNat).xxfree heap threadIndex ptr = .ok lib' →
      Reallocated heap threadIndex ptr sz inputs lib q lib'

theorem xxrealloc_cases {heap : BibopHeap} {sz : size_t} {q : ℕ}
    (ok : lib.xxrealloc heap threadIndex ptr sz inputs = .ok (q, lib')) :
    Reallocated heap threadIndex ptr sz inputs lib q lib' := by
  rw [LibFreeGuard.xxrealloc] at ok
  split at ok
  · rename_i null
    exact .fresh null ok
  rename_i nonnull
  split at ok
  · rename_i zero
    cases ran : lib.xxfree heap threadIndex ptr with
    | error stop =>
      rw [ran] at ok
      cases ok
    | ok next =>
      rw [ran] at ok
      cases ok
      exact .freed nonnull zero ran
  rename_i nonzero
  cases sized : lib.oldSize heap ptr with
  | error stop =>
    rw [sized] at ok
    cases ok
  | ok oldSize =>
    rw [sized] at ok
    change (if oldSize = -1 then _ else _) = _ at ok
    split at ok
    · rename_i unknown
      cases ok
      exact .unknown nonnull nonzero (unknown ▸ sized)
    rename_i known
    split at ok
    · rename_i enough
      cases ok
      exact .kept nonnull nonzero sized known enough
    rename_i short
    cases ran : lib.xxmalloc heap threadIndex sz inputs with
    | error stop =>
      rw [ran] at ok
      cases ok
    | ok result =>
      obtain ⟨newObject, mid⟩ := result
      rw [ran] at ok
      change ((mid.memcpy newObject ptr oldSize.toNat).xxfree heap threadIndex ptr >>= _) = _ at ok
      cases ended : (mid.memcpy newObject ptr oldSize.toNat).xxfree heap threadIndex ptr with
      | error stop =>
        rw [ended] at ok
        cases ok
      | ok last =>
        rw [ended] at ok
        cases ok
        exact .moved nonnull nonzero sized known (BitVec.not_le.mp short) ran ended

end FreeGuard.Model
