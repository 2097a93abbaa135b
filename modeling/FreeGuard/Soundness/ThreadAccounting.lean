import FreeGuard.Proofs.Xthread

/-! # Whole calls of `thread_create` and `thread_join`

Calls that complete one after the other, with a `pthread_t` for each slot and no more than `k` threads
unjoined. The slots that are not available are those of the unjoined threads, and the map binds the
`pthread_t` of every slot used so far to that slot. So `_aliveThreads` meets `_threadIndex` exactly when
every slot in use is taken, the next index is the least free one, and a join gives back its own slot.
-/

namespace FreeGuard.Soundness.ThreadAccounting

open Machine Model
open LinkedPath (Links)

/-- The shared structure between two calls, and the slots of the threads not yet joined. -/
structure Calls where
  threads : xthread
  unjoined : List ℤ

/-- A call; the initial thread is there from the start. -/
inductive CallEvent where
  | create (block : ℕ)
  | join (tid : ℕ) (joinretval : ℤ)
deriving DecidableEq, Repr

/-- A thread can be joined once. A `pthread_join` that fails joins none. -/
inductive CallStep (pthreadOf : ℤ → ℕ) : Calls → CallEvent → Calls → Prop
  | create (calls : Calls) {block : ℕ} {tindex : ℤ} {threads : xthread} :
      block ∉ calls.threads._xmap.blocks →
      calls.threads.thread_create pthreadOf block = (tindex, threads) →
      CallStep pthreadOf calls (.create block) ⟨threads, tindex :: calls.unjoined⟩
  | join (calls : Calls) {slot : ℤ} :
      slot ∈ calls.unjoined →
      CallStep pthreadOf calls (.join (pthreadOf slot) 0)
        ⟨calls.threads.thread_join (pthreadOf slot) 0, calls.unjoined.erase slot⟩
  | fail (calls : Calls) {tid : ℕ} {joinretval : ℤ} :
      joinretval ≠ 0 →
      CallStep pthreadOf calls (.join tid joinretval)
        ⟨calls.threads.thread_join tid joinretval, calls.unjoined⟩

/-- A thread is created while fewer than `k` are unjoined. -/
def WithinLimit (k : ℕ) (calls : Calls) : CallEvent → Prop
  | .create _ => calls.unjoined.length < k
  | .join _ _ => True

/-- The slots of `_threads` that are not available. -/
def unavailable (threads : xthread) : List ℤ :=
  ((List.range MAX_ALIVE_THREADS).map fun i : ℕ => (i : ℤ)).filter fun i =>
    !(threads._threads i).available

/-- The `pthread_t` of each of the first `n` slots, bound to the slot. -/
def slotEntries (pthreadOf : ℤ → ℕ) (n : ℕ) : List ((ℕ × size_t) × ℤ) :=
  (List.range n).map fun i : ℕ => ((pthreadOf i, sizeofPointer), (i : ℤ))

/-- The counters, the flags and the map agree with the unjoined threads. -/
structure Slotted (pthreadOf : ℤ → ℕ) (calls : Calls) : Prop where
  nonneg : 0 ≤ calls.threads._threadIndex
  used : calls.threads._threadIndex ≤ MAX_ALIVE_THREADS
  alive : calls.threads._aliveThreads = calls.unjoined.length
  slots : calls.unjoined.Perm calls.threads.taken
  unused : ∀ i, calls.threads._threadIndex ≤ i → i < MAX_ALIVE_THREADS →
    (calls.threads._threads i).available = true
  bound : calls.threads._xmap.Models (slotEntries pthreadOf calls.threads._threadIndex.toNat)

variable {pthreadOf : ℤ → ℕ} {calls next : Calls} {event : CallEvent} {k n : ℕ} {slot : ℤ}

theorem mem_unavailable {threads : xthread} : slot ∈ unavailable threads ↔
    0 ≤ slot ∧ slot < MAX_ALIVE_THREADS ∧ (threads._threads slot).available = false := by
  rw [unavailable, List.mem_filter, mem_range_cast, Bool.not_eq_true', and_assoc]

/-! ## The entries of the map -/

theorem length_slotEntries : (slotEntries pthreadOf n).length = n := by
  rw [slotEntries, List.length_map, List.length_range]

theorem slotEntries_succ : slotEntries pthreadOf (n + 1) =
    slotEntries pthreadOf n ++ [((pthreadOf n, sizeofPointer), (n : ℤ))] := by
  rw [slotEntries, List.range_succ, List.map_append]
  rfl

/-- A slot's `pthread_t` is a key once the slot has been used. -/
theorem mem_slotEntries (distinct : Set.InjOn pthreadOf {i | 0 ≤ i ∧ i < MAX_ALIVE_THREADS})
    (used : n ≤ MAX_ALIVE_THREADS) (nonneg : 0 ≤ slot) (inside : slot < MAX_ALIVE_THREADS) :
    (pthreadOf slot, sizeofPointer) ∈ (slotEntries pthreadOf n).map Prod.fst ↔ slot < n := by
  simp only [slotEntries, List.map_map, List.mem_map, List.mem_range, Function.comp_apply,
    Prod.mk.injEq, and_true]
  constructor
  · rintro ⟨i, below, same⟩
    have := distinct ⟨Int.natCast_nonneg i, by omega⟩ ⟨nonneg, inside⟩ same
    omega
  · intro below
    exact ⟨slot.toNat, by omega, by rw [Int.toNat_of_nonneg nonneg]⟩

theorem lookup_slotEntries (distinct : Set.InjOn pthreadOf {i | 0 ≤ i ∧ i < MAX_ALIVE_THREADS})
    (used : n ≤ MAX_ALIVE_THREADS) (nonneg : 0 ≤ slot) (below : slot < n) :
    (slotEntries pthreadOf n).lookup (pthreadOf slot, sizeofPointer) = some slot := by
  induction n with
  | zero => omega
  | succ n ih =>
    rw [slotEntries_succ, List.lookup_append]
    obtain old | rfl : slot < n ∨ slot = n := by omega
    · rw [ih (by omega) old, Option.some_or]
    · have absent := (mem_slotEntries distinct (n := n) (by omega) nonneg (by omega)).not.mpr
        (lt_irrefl _)
      rw [← HashMap.lookup_isSome_iff_mem, Option.not_isSome_iff_eq_none] at absent
      rw [absent]
      simp

/-- Binding the first slot not used yet adds it; binding a slot used before changes nothing. -/
theorem models_bind (distinct : Set.InjOn pthreadOf {i | 0 ≤ i ∧ i < MAX_ALIVE_THREADS})
    (used : n ≤ MAX_ALIVE_THREADS) {i block : ℕ} (order : i ≤ n) (inside : i < MAX_ALIVE_THREADS)
    {threads : xthread} (models : threads._xmap.Models (slotEntries pthreadOf n))
    (fresh : block ∉ threads._xmap.blocks) :
    (threads.bind block (pthreadOf i) i)._xmap.Models (slotEntries pthreadOf (max n (i + 1))) := by
  have known := mem_slotEntries distinct used (Int.natCast_nonneg i) (by omega)
  rw [xthread.bind]
  rcases order.lt_or_eq with before | rfl
  · rw [max_eq_left before, models.insertIfAbsent_present (known.mpr (by omega))]
    exact models
  · have few : (slotEntries pthreadOf i).length + 1 < 2 ^ 31 := by
      rw [length_slotEntries]
      simp only [MAX_ALIVE_THREADS] at used
      omega
    have fits : threads._xmap.Fits (pthreadOf i) sizeofPointer := models.fits few (by decide) _
    rw [max_eq_right (Nat.le_succ i), slotEntries_succ,
      models.insertIfAbsent_absent (known.not.mpr (lt_irrefl _))]
    exact models.insert fresh fits

/-! ## One call -/

namespace Slotted

theorem alive_eq (slotted : Slotted pthreadOf calls) :
    calls.threads._aliveThreads = calls.threads.taken.length := by
  rw [slotted.alive, slotted.slots.length_eq]

/-- The slot of an unjoined thread has been used. -/
theorem mem_taken (slotted : Slotted pthreadOf calls) (member : slot ∈ calls.unjoined) :
    0 ≤ slot ∧ slot < calls.threads._threadIndex ∧
      (calls.threads._threads slot).available = false :=
  xthread.mem_taken.mp (slotted.slots.subset member)

/-- The slots that are not available are the taken ones. -/
theorem unavailable_perm (slotted : Slotted pthreadOf calls) :
    (unavailable calls.threads).Perm calls.threads.taken := by
  have used := slotted.used
  have nodup : (unavailable calls.threads).Nodup := (range_cast_nodup _).filter _
  refine (List.perm_ext_iff_of_nodup nodup (xthread.taken_nodup _)).mpr fun index => ?_
  rw [mem_unavailable, xthread.mem_taken]
  constructor
  · rintro ⟨nonneg, below, flag⟩
    refine ⟨nonneg, ?_, flag⟩
    by_contra beyond
    rw [slotted.unused index (by omega) below] at flag
    cases flag
  · rintro ⟨nonneg, below, flag⟩
    exact ⟨nonneg, by omega, flag⟩

/-- The next index is the least slot that no unjoined thread holds. -/
theorem least (slotted : Slotted pthreadOf calls) :
    IsLeast {i | 0 ≤ i ∧ i ∉ calls.unjoined} calls.threads.allocThreadIndex.1 := by
  simp only [slotted.slots.mem_iff]
  exact xthread.allocThreadIndex_least slotted.nonneg slotted.alive_eq

theorem index_le (slotted : Slotted pthreadOf calls) :
    calls.threads.allocThreadIndex.1 ≤ calls.unjoined.length := by
  rw [slotted.slots.length_eq]
  exact xthread.allocThreadIndex_le slotted.nonneg slotted.alive_eq

/-- Joining an unjoined thread gives back its slot. -/
theorem thread_join_threads (slotted : Slotted pthreadOf calls)
    (distinct : Set.InjOn pthreadOf {i | 0 ≤ i ∧ i < MAX_ALIVE_THREADS}) (member : slot ∈ calls.unjoined) :
    (calls.threads.thread_join (pthreadOf slot) 0)._threads =
      Function.update calls.threads._threads slot
        { calls.threads._threads slot with available := true } := by
  obtain ⟨nonneg, below, -⟩ := slotted.mem_taken member
  have used := slotted.used
  have found : calls.threads._xmap.find (pthreadOf slot) sizeofPointer = some slot := by
    rw [slotted.bound.find]
    exact lookup_slotEntries distinct (by omega) nonneg (by omega)
  simp only [xthread.thread_join, if_true, xthread.release, found]

/-- A created thread binds a new slot to its `pthread_t`, or comes back to a slot that is bound. -/
theorem create (slotted : Slotted pthreadOf calls)
    (distinct : Set.InjOn pthreadOf {i | 0 ≤ i ∧ i < MAX_ALIVE_THREADS})
    (room : calls.unjoined.length < MAX_ALIVE_THREADS) {block : ℕ} {tindex : ℤ} {threads : xthread}
    (fresh : block ∉ calls.threads._xmap.blocks)
    (result : calls.threads.thread_create pthreadOf block = (tindex, threads)) :
    Slotted pthreadOf ⟨threads, tindex :: calls.unjoined⟩ := by
  rcases allocated : calls.threads.allocThreadIndex with ⟨index, shared⟩
  have map := calls.threads.allocThreadIndex_xmap
  rw [allocated] at map
  obtain ⟨start, alive, taken, threadIndex⟩ :=
    xthread.allocThreadIndex_spec slotted.nonneg slotted.alive_eq allocated
  rw [xthread.thread_create, allocated] at result
  obtain ⟨rfl, rfl⟩ := Prod.mk.inj result
  have count := slotted.alive
  have used := slotted.used
  have nonneg := slotted.nonneg
  refine ⟨?_, ?_, ?_, ?_, ?_, ?_⟩
  · change 0 ≤ shared._threadIndex
    omega
  · change shared._threadIndex ≤ MAX_ALIVE_THREADS
    omega
  · change shared._aliveThreads = _
    rw [alive, count, List.length_cons]
    rfl
  · change (index :: calls.unjoined).Perm ((shared.setIndex index).setPthread index _).taken
    rw [xthread.taken_setPthread, xthread.taken_setIndex]
    exact (slotted.slots.cons index).trans taken.symm
  · intro i beyond inside
    change shared._threadIndex ≤ i at beyond
    have other : i ≠ index := by omega
    simp only [xthread.bind, xthread.setPthread, xthread.setIndex, Function.update_of_ne other,
      xthread.allocThreadIndex_frame allocated other]
    exact slotted.unused i (by omega) inside
  · have models := slotted.bound
    rw [← map] at models fresh
    obtain ⟨i, rfl⟩ := Int.eq_ofNat_of_zero_le start
    change HashMap.Models _ (slotEntries pthreadOf shared._threadIndex.toNat)
    rw [show shared._threadIndex.toNat = max calls.threads._threadIndex.toNat (i + 1) by omega]
    exact models_bind distinct (by omega) (by omega) (by omega) models fresh

/-- A join takes its own slot out of the unjoined ones. -/
theorem join (slotted : Slotted pthreadOf calls)
    (distinct : Set.InjOn pthreadOf {i | 0 ≤ i ∧ i < MAX_ALIVE_THREADS}) (member : slot ∈ calls.unjoined) :
    Slotted pthreadOf
      ⟨calls.threads.thread_join (pthreadOf slot) 0, calls.unjoined.erase slot⟩ := by
  obtain ⟨nonneg, below, flag⟩ := slotted.mem_taken member
  have released := slotted.thread_join_threads distinct member
  have available (i : ℤ) : ((calls.threads.thread_join (pthreadOf slot) 0)._threads i).available =
      if i = slot then true else (calls.threads._threads i).available := by
    rw [released]
    rcases eq_or_ne i slot with rfl | different
    · simp
    · simp [different]
  have fewer : calls.threads.taken.Perm
      (slot :: (calls.threads.thread_join (pthreadOf slot) 0).taken) :=
    xthread.taken_perm_cons rfl nonneg below (by rw [available, if_pos rfl]) flag
      fun i different => by rw [available, if_neg different]
  refine ⟨slotted.nonneg, slotted.used, ?_, ?_, ?_, slotted.bound⟩
  · have positive := List.length_pos_of_mem member
    change calls.threads._aliveThreads - 1 = _
    rw [slotted.alive, List.length_erase_of_mem member]
    omega
  · exact (((List.perm_cons_erase member).symm.trans slotted.slots).trans fewer).cons_inv
  · intro i beyond inside
    rw [available]
    split
    · rfl
    · exact slotted.unused i beyond inside

/-- What one call preserves. -/
theorem step (slotted : Slotted pthreadOf calls)
    (distinct : Set.InjOn pthreadOf {i | 0 ≤ i ∧ i < MAX_ALIVE_THREADS}) (limit : k ≤ MAX_ALIVE_THREADS)
    (move : Guarded (WithinLimit k) (CallStep pthreadOf) calls event next) :
    Slotted pthreadOf next := by
  obtain ⟨room, move⟩ := move
  cases move with
  | create fresh result => exact slotted.create distinct (room.trans_le limit) fresh result
  | join member => exact slotted.join distinct member
  | fail failed =>
    rw [xthread.thread_join, if_neg failed]
    exact slotted

end Slotted

/-- After `initialize` the initial thread holds slot 0. -/
theorem slotted_start (pthreadOf : ℤ → ℕ) (block : ℕ) (memory : ℤ → thread_t)
    (links : Links ListRef) (count : ℕ → size_t) (entryAt : ListRef → Entry ℕ ℤ) :
    Slotted pthreadOf
      ⟨xthread.initializeThreads (pthreadOf 0) block memory links count entryAt, [0]⟩ := by
  obtain ⟨nonneg, alive, slots⟩ :=
    accounted_start (pthreadOf 0) block memory links count entryAt
  have initialized : ∀ i : ℕ, i < MAX_ALIVE_THREADS →
      (forRange MAX_ALIVE_THREADS xthread.initThread memory i).available = true := by
    refine forRange_invariant
      (fun n (threads : ℤ → thread_t) => ∀ i : ℕ, i < n → (threads i).available = true) ?_ ?_
    · exact fun i impossible => absurd impossible (Nat.not_lt_zero i)
    · intro n _ threads before i inside
      rcases eq_or_ne i n with rfl | earlier
      · simp [xthread.initThread]
      · rw [xthread.initThread, Function.update_of_ne (by exact_mod_cast earlier)]
        exact before i (by omega)
  refine ⟨nonneg, ?_, alive, slots, ?_, ?_⟩
  · change (0 : ℤ) + 1 ≤ 128
    decide
  · intro i beyond inside
    change 0 + 1 ≤ i at beyond
    have later : i ≠ 0 := by omega
    have flag := initialized i.toNat (by omega)
    rw [Int.toNat_of_nonneg (by omega)] at flag
    change ((Function.update (Function.update _ 0 _) 0 _ : ℤ → thread_t) i).available = true
    rw [Function.update_of_ne later, Function.update_of_ne later]
    exact flag
  · exact initializeThreads_models (pthreadOf 0) block memory links count entryAt

/-- The accounting of the slots between two calls. -/
structure SlotsAccounted (pthreadOf : ℤ → ℕ) (k : ℕ) (calls : Calls) : Prop where
  alive : calls.threads._aliveThreads = (unavailable calls.threads).length
  below : ∀ slot ∈ unavailable calls.threads, slot < calls.threads._threadIndex
  least : IsLeast {i | 0 ≤ i ∧ i ∉ calls.unjoined} calls.threads.allocThreadIndex.1
  limit : calls.unjoined.length < k → calls.threads.allocThreadIndex.1 < k
  joins : ∀ slot ∈ calls.unjoined, (calls.threads._threads slot).available = false ∧
    (calls.threads.thread_join (pthreadOf slot) 0)._threads =
      Function.update calls.threads._threads slot
        { calls.threads._threads slot with available := true }

/-- Along every run of whole calls with at most `k` threads unjoined, `_aliveThreads` counts the slots
that are not available, all of them below `_threadIndex`; the next index is the least slot that no
unjoined thread holds, so it is below `k`; and a join makes the slot of its thread available and changes
no other. -/
theorem slots_accounted (block : ℕ) (memory : ℤ → thread_t) (links : Links ListRef)
    (count : ℕ → size_t) (entryAt : ListRef → Entry ℕ ℤ)
    (distinct : Set.InjOn pthreadOf {i | 0 ≤ i ∧ i < MAX_ALIVE_THREADS}) (limit : k ≤ MAX_ALIVE_THREADS)
    {events : List CallEvent}
    (run : Run (Guarded (WithinLimit k) (CallStep pthreadOf))
      ⟨xthread.initializeThreads (pthreadOf 0) block memory links count entryAt, [0]⟩ events calls) :
    SlotsAccounted pthreadOf k calls := by
  have slotted : Slotted pthreadOf calls := run.invariant (Slotted pthreadOf)
    (fun _ _ _ slotted move => slotted.step distinct limit move)
    (slotted_start pthreadOf block memory links count entryAt)
  have perm := slotted.unavailable_perm
  refine ⟨?_, ?_, slotted.least, ?_, ?_⟩
  · rw [slotted.alive_eq, perm.length_eq]
  · intro slot member
    obtain ⟨-, below, -⟩ := xthread.mem_taken.mp (perm.subset member)
    exact below
  · intro room
    have := slotted.index_le
    omega
  · intro slot member
    obtain ⟨-, -, flag⟩ := slotted.mem_taken member
    exact ⟨flag, slotted.thread_join_threads distinct member⟩

/-- A `pthread_t` for every slot. -/
def somePthread (slot : ℤ) : ℕ := 100 + slot.toNat

/-- One thread created beside the initial one, with room for no more. -/
theorem second_thread_accounted : ∃ block calls,
    Set.InjOn somePthread {i | 0 ≤ i ∧ i < MAX_ALIVE_THREADS} ∧ 2 ≤ MAX_ALIVE_THREADS ∧
    Run (Guarded (WithinLimit 2) (CallStep somePthread)) ⟨initialThread, [0]⟩ [.create block] calls ∧
    calls.unjoined = [1, 0] ∧ SlotsAccounted somePthread 2 calls := by
  have distinct : Set.InjOn somePthread {i | 0 ≤ i ∧ i < MAX_ALIVE_THREADS} := by
    rintro a ⟨nonnegA, -⟩ b ⟨nonnegB, -⟩ same
    simp only [somePthread] at same
    omega
  obtain ⟨block, fresh⟩ := initialThread._xmap.exists_fresh
  have run : Run (Guarded (WithinLimit 2) (CallStep somePthread)) ⟨initialThread, [0]⟩
      [.create block] _ :=
    .single ⟨Nat.one_lt_two, .create _ fresh Prod.mk.eta.symm⟩
  exact ⟨block, _, distinct, by decide, run, rfl,
    slots_accounted 0 _ _ _ _ distinct (by decide) run⟩

end FreeGuard.Soundness.ThreadAccounting
