import FreeGuard.Machine.Run
import FreeGuard.Model.Xthread
import FreeGuard.Proofs.HashMap
import FreeGuard.ToMathlib.ListUpdate
import Mathlib.Order.Bounds.Basic

/-! # Accounting for thread slots

The slots below `_threadIndex` that are not available are exactly the indexes of the calls that no
`thread_join` has given back, and `_aliveThreads` is their number. Taking an index keeps this always;
releasing one keeps it when the map binds the thread's `pthread_t` to the thread's own index. Since
the map keeps the first binding of a `pthread_t` for ever, that is a condition on the insertions so
far.
-/

namespace FreeGuard.Model

open Machine
open LinkedPath (Links)

/-- The unavailable slots below `_threadIndex`. -/
def xthread.taken (threads : xthread) : List ℤ :=
  ((List.range threads._threadIndex.toNat).map fun i : ℕ => (i : ℤ)).filter fun i =>
    !(threads._threads i).available

/-- The indexes of the calls that no `thread_join` has given back. -/
def held (creations : List Creation) : List ℤ :=
  creations.filterMap fun c => if c.released then none else some c.index

/-- The counters and the availability flags agree with the calls. -/
structure Accounted (system : ThreadSystem) : Prop where
  nonneg : 0 ≤ system.shared._threadIndex
  alive : system.shared._aliveThreads = (held system.creations).length
  slots : (held system.creations).Perm system.shared.taken

/-- The map holds the first binding of every `pthread_t`. -/
def Remembers (system : ThreadSystem) : Prop :=
  ∃ entries, system.shared._xmap.Models entries ∧
    ∀ tid, entries.lookup (tid, sizeofPointer) = system.bindings.lookup tid

theorem range_cast_nodup (n : ℕ) : ((List.range n).map fun i : ℕ => (i : ℤ)).Nodup :=
  List.nodup_range.map fun _ _ same => Int.ofNat.inj same

theorem mem_range_cast {n : ℕ} {index : ℤ} :
    index ∈ (List.range n).map (fun i : ℕ => (i : ℤ)) ↔ 0 ≤ index ∧ index < n := by
  rw [List.mem_map]
  constructor
  · rintro ⟨i, inside, rfl⟩
    rw [List.mem_range] at inside
    omega
  · rintro ⟨nonneg, below⟩
    exact ⟨index.toNat, List.mem_range.mpr (by omega), by omega⟩

section Slots

variable {threads : xthread} {index : ℤ}

theorem xthread.mem_taken : index ∈ threads.taken ↔
    0 ≤ index ∧ index < threads._threadIndex ∧ (threads._threads index).available = false := by
  rw [xthread.taken, List.mem_filter, mem_range_cast, Bool.not_eq_true', and_assoc]
  refine and_congr_right fun nonneg => and_congr_left fun _ => ?_
  omega

theorem xthread.taken_nodup (threads : xthread) : threads.taken.Nodup :=
  (range_cast_nodup _).filter _

theorem xthread.taken_length_le (threads : xthread) :
    threads.taken.length ≤ threads._threadIndex.toNat := by
  apply (List.length_filter_le ..).trans
  rw [List.length_map, List.length_range]

/-- With fewer taken slots than slots in use, some slot in use is available. -/
theorem xthread.exists_available (few : threads.taken.length < threads._threadIndex.toNat) :
    ∃ i : ℕ, (i : ℤ) < threads._threadIndex ∧ (threads._threads i).available = true := by
  by_contra none
  have all : threads.taken = (List.range threads._threadIndex.toNat).map fun i : ℕ => (i : ℤ) := by
    rw [xthread.taken, List.filter_eq_self]
    rintro index member
    obtain ⟨nonneg, below⟩ := mem_range_cast.mp member
    rw [Bool.not_eq_true', Bool.eq_false_iff]
    intro available
    have same : ((index.toNat : ℕ) : ℤ) = index := Int.toNat_of_nonneg nonneg
    exact none ⟨index.toNat, by omega, same ▸ available⟩
  rw [all, List.length_map, List.length_range] at few
  exact few.false

/-- Two structures that differ in the availability of one taken slot. -/
theorem xthread.taken_perm_cons {other : xthread} (same : other._threadIndex = threads._threadIndex)
    (nonneg : 0 ≤ index) (below : index < threads._threadIndex)
    (before : (threads._threads index).available = true)
    (after : (other._threads index).available = false)
    (rest : ∀ i ≠ index, (other._threads i).available = (threads._threads i).available) :
    other.taken.Perm (index :: threads.taken) := by
  rw [xthread.taken, xthread.taken, same]
  refine List.filter_perm_cons (range_cast_nodup _) ?_ (by simp [before]) (by simp [after])
    fun i different => by rw [rest i different]
  exact mem_range_cast.mpr ⟨nonneg, by omega⟩

theorem xthread.taken_congr {other : xthread} (same : other._threadIndex = threads._threadIndex)
    (rest : ∀ i, (other._threads i).available = (threads._threads i).available) :
    other.taken = threads.taken := by
  simp only [xthread.taken, same, rest]

@[simp] theorem xthread.taken_setIndex : (threads.setIndex index).taken = threads.taken := by
  refine xthread.taken_congr rfl fun i => ?_
  rcases eq_or_ne i index with rfl | same
  · simp [xthread.setIndex]
  · simp [xthread.setIndex, same]

@[simp] theorem xthread.taken_setPthread {tid : ℕ} :
    (threads.setPthread index tid).taken = threads.taken := by
  refine xthread.taken_congr rfl fun i => ?_
  rcases eq_or_ne i index with rfl | same
  · simp [xthread.setPthread]
  · simp [xthread.setPthread, same]

theorem xthread.allocThreadIndex_xmap (threads : xthread) :
    threads.allocThreadIndex.2._xmap = threads._xmap := by
  rw [xthread.allocThreadIndex]
  split
  · rfl
  · split <;> rfl

/-- Every call takes one slot, a new one exactly when no slot in use is available. -/
theorem xthread.allocThreadIndex_spec {shared : xthread} (nonneg : 0 ≤ threads._threadIndex)
    (alive : threads._aliveThreads = threads.taken.length)
    (result : threads.allocThreadIndex = (index, shared)) :
    0 ≤ index ∧ shared._aliveThreads = threads._aliveThreads + 1 ∧
      shared.taken.Perm (index :: threads.taken) ∧
      (threads._aliveThreads = threads._threadIndex ∧ index = threads._threadIndex ∧
          shared._threadIndex = threads._threadIndex + 1 ∨
        threads._aliveThreads < threads._threadIndex ∧ index < threads._threadIndex ∧
          shared._threadIndex = threads._threadIndex) := by
  have bound := threads.taken_length_le
  rw [xthread.allocThreadIndex] at result
  split at result
  · rename_i full
    obtain ⟨rfl, rfl⟩ := Prod.mk.inj result
    refine ⟨nonneg, rfl, ?_, .inl ⟨full, rfl, rfl⟩⟩
    -- the fresh slot is the last one of the longer range
    have longer : (threads._threadIndex + 1).toNat = threads._threadIndex.toNat + 1 := by omega
    have last : ((threads._threadIndex.toNat : ℕ) : ℤ) = threads._threadIndex := by omega
    simp only [xthread.taken, longer, List.range_succ, List.map_append, List.map_cons, List.map_nil,
      List.filter_append, last]
    rw [List.filter_cons_of_pos (by simp), List.filter_nil]
    refine (List.perm_append_comm).trans (List.Perm.cons _ (.of_eq ?_))
    apply List.filter_congr
    intro i member
    obtain ⟨-, below⟩ := mem_range_cast.mp member
    rw [Function.update_of_ne (by omega)]
  · rename_i room
    obtain ⟨slot, below, available⟩ := threads.exists_available (by omega)
    have inside : slot ∈ List.range (threads._threadIndex + 1).toNat :=
      List.mem_range.mpr (by omega)
    split at result
    · rename_i first found
      obtain ⟨rfl, rfl⟩ := Prod.mk.inj result
      obtain ⟨before, -, skipped⟩ := List.find?_range_eq_some.mp found
      -- the search stops at the slot found above at the latest
      have earlier : first ≤ slot := by
        by_contra later
        simpa [available] using skipped slot (by omega)
      refine ⟨by omega, rfl, ?_, .inr ⟨by omega, by omega, rfl⟩⟩
      exact xthread.taken_perm_cons rfl (by omega) (by omega) before (by simp)
        fun i different => by simp [different]
    · rename_i missing
      exact absurd available (by simpa using List.find?_eq_none.mp missing slot inside)

/-- The index is the least one that is not taken. -/
theorem xthread.allocThreadIndex_least (nonneg : 0 ≤ threads._threadIndex)
    (alive : threads._aliveThreads = threads.taken.length) :
    IsLeast {i | 0 ≤ i ∧ i ∉ threads.taken} threads.allocThreadIndex.1 := by
  obtain ⟨start, -, taken, -⟩ := xthread.allocThreadIndex_spec nonneg alive Prod.mk.eta.symm
  have fresh : threads.allocThreadIndex.1 ∉ threads.taken :=
    (List.nodup_cons.mp (taken.nodup_iff.mp (xthread.taken_nodup _))).1
  refine ⟨⟨start, fresh⟩, ?_⟩
  rintro i ⟨nonnegI, free⟩
  have bound := threads.taken_length_le
  rw [xthread.mem_taken, not_and, not_and] at free
  by_contra before
  rw [not_le] at before
  rw [xthread.allocThreadIndex] at before
  split at before
  · -- every slot in use is taken
    rename_i full
    change i < threads._threadIndex at before
    have all := List.length_filter_eq_length_iff.mp
      (show threads.taken.length = _ by rw [List.length_map, List.length_range]; omega)
    have unavailable := all i (mem_range_cast.mpr ⟨nonnegI, by omega⟩)
    rw [Bool.not_eq_true'] at unavailable
    exact free nonnegI before unavailable
  · split at before
    · rename_i first found
      obtain ⟨-, member, skipped⟩ := List.find?_range_eq_some.mp found
      rw [List.mem_range] at member
      have unavailable := skipped i.toNat (by omega)
      rw [Bool.not_eq_true', show ((i.toNat : ℕ) : ℤ) = i by omega] at unavailable
      exact free nonnegI (by omega) unavailable
    · change i < -1 at before
      omega

/-- An index that is not taken is found among the first ones. -/
theorem xthread.allocThreadIndex_le (nonneg : 0 ≤ threads._threadIndex)
    (alive : threads._aliveThreads = threads.taken.length) :
    threads.allocThreadIndex.1 ≤ threads.taken.length := by
  obtain ⟨⟨start, -⟩, least⟩ := xthread.allocThreadIndex_least nonneg alive
  have below : (List.range threads.allocThreadIndex.1.toNat).map (fun i : ℕ => (i : ℤ)) ⊆
      threads.taken := by
    intro index member
    obtain ⟨nonnegI, before⟩ := mem_range_cast.mp member
    by_contra free
    have := least ⟨nonnegI, free⟩
    omega
  have short := (List.subperm_of_subset (range_cast_nodup _) below).length_le
  rw [List.length_map, List.length_range] at short
  omega

/-- Taking an index leaves the other slots alone. -/
theorem xthread.allocThreadIndex_frame {shared : xthread} {other : ℤ}
    (result : threads.allocThreadIndex = (index, shared)) (different : other ≠ index) :
    shared._threads other = threads._threads other := by
  rw [xthread.allocThreadIndex] at result
  split at result
  · obtain ⟨rfl, rfl⟩ := Prod.mk.inj result
    exact Function.update_of_ne different ..
  · split at result
    · obtain ⟨rfl, rfl⟩ := Prod.mk.inj result
      exact Function.update_of_ne different ..
    · obtain ⟨rfl, rfl⟩ := Prod.mk.inj result
      rfl

end Slots

/-! ## The system -/

section System

variable {system next : ThreadSystem} {event : ThreadEvent} {call : ℕ} {creation : Creation}

/-- A release comes when the first insertion for the thread's `pthread_t` has been made, for the
thread's own index; an insertion of a new `pthread_t` leaves its bucket countable by an `int`. -/
def Orderly (system : ThreadSystem) : ThreadEvent → Prop
  | .release call => ∀ creation tid, system.creations[call]? = some creation →
      creation.tid = some tid → system.bindings.lookup tid = some creation.index
  | .bind call _ => ∀ creation tid, system.creations[call]? = some creation →
      creation.tid = some tid →
      system.shared._xmap.Holds tid sizeofPointer ∨ system.shared._xmap.Fits tid sizeofPointer
  | _ => True

theorem held_append (creations : List Creation) (index : ℤ) :
    held (creations ++ [Creation.start index]) = held creations ++ [index] := by
  rw [held, List.filterMap_append]
  rfl

/-- A call that keeps its index and its release flag holds what it held. -/
theorem held_record (found : system.creations[call]? = some creation) {changed : Creation}
    (index : changed.index = creation.index) (released : changed.released = creation.released) :
    held (system.record call changed).creations = held system.creations :=
  List.filterMap_set_of_eq found (by rw [index, released])

/-- A call that is released holds its index no longer. -/
theorem held_release (found : system.creations[call]? = some creation)
    (unreleased : creation.released = false) :
    (held system.creations).Perm
      (creation.index :: held (system.creations.set call { creation with released := true })) := by
  obtain ⟨before, after, split, replaced⟩ := List.exists_split_of_getElem? found
  rw [replaced, split, held, held, List.filterMap_append, List.filterMap_append,
    List.filterMap_cons_some (b := creation.index) (by simp [unreleased]),
    List.filterMap_cons_none (by simp)]
  exact List.perm_middle

theorem held_length (system : ThreadSystem) :
    (held system.creations).length = system.heldCount := by
  rw [held, ThreadSystem.heldCount, List.countP_eq_length_filter]
  induction system.creations with
  | nil => rfl
  | cons c rest ih => cases released : c.released <;> simp [released, ih]

/-- A step that leaves the counters, the flags and the held indexes alone. -/
theorem Accounted.frame (accounted : Accounted system)
    (threadIndex : next.shared._threadIndex = system.shared._threadIndex)
    (alive : next.shared._aliveThreads = system.shared._aliveThreads)
    (taken : next.shared.taken = system.shared.taken)
    (same : held next.creations = held system.creations) : Accounted next :=
  ⟨threadIndex ▸ accounted.nonneg, by rw [alive, same, accounted.alive],
    by rw [taken, same]; exact accounted.slots⟩

theorem Accounted.alive_eq (accounted : Accounted system) :
    system.shared._aliveThreads = system.shared.taken.length := by
  simp only [accounted.alive, accounted.slots.length_eq]

theorem Accounted.alloc (accounted : Accounted system) {tindex : ℤ} {shared : xthread}
    (result : system.shared.allocThreadIndex = (tindex, shared)) :
    Accounted { system with
      shared := shared.setIndex tindex
      creations := system.creations ++ [Creation.start tindex] } := by
  obtain ⟨-, alive, taken, threadIndex⟩ :=
    xthread.allocThreadIndex_spec accounted.nonneg accounted.alive_eq result
  have nonneg := accounted.nonneg
  refine ⟨?_, ?_, ?_⟩
  · change 0 ≤ shared._threadIndex
    omega
  · change shared._aliveThreads = _
    rw [held_append, List.length_append, alive, accounted.alive]
    rfl
  · rw [xthread.taken_setIndex, held_append]
    exact (List.perm_append_comm.trans (accounted.slots.cons tindex)).trans taken.symm

/-- Releasing the slot that the map binds to the thread's own index. -/
theorem Accounted.release (accounted : Accounted system) {tid : ℕ}
    (found : system.creations[call]? = some creation) (unreleased : creation.released = false)
    (own : system.shared._xmap.find tid sizeofPointer = some creation.index) :
    Accounted (ThreadSystem.record { system with shared := system.shared.release tid }
      call { creation with released := true }) := by
  have fewer := held_release found unreleased
  have inside : creation.index ∈ system.shared.taken :=
    accounted.slots.subset (fewer.symm.subset (List.mem_cons_self ..))
  obtain ⟨nonneg, below, unavailable⟩ := xthread.mem_taken.mp inside
  refine ⟨accounted.nonneg, ?_, ?_⟩
  · have length := fewer.length_eq
    rw [List.length_cons] at length
    change system.shared._aliveThreads - 1 = _
    rw [accounted.alive, length]
    change _ = ((held (system.creations.set call _)).length : ℤ)
    omega
  · have taken : system.shared.taken.Perm (creation.index :: (system.shared.release tid).taken) :=
      xthread.taken_perm_cons rfl nonneg below (by simp [xthread.release, own]) unavailable
        fun i different => by simp [xthread.release, own, different]
    exact ((fewer.symm.trans accounted.slots).trans taken).cons_inv

/-- What one step of the system preserves. -/
theorem Accounted.step (accounted : Accounted system) (remembers : Remembers system)
    (orderly : Orderly system event) (move : ThreadStep system event next) : Accounted next := by
  cases move with
  | alloc result => exact accounted.alloc result
  | spawn found => exact accounted.frame rfl rfl xthread.taken_setPthread (held_record found rfl rfl)
  | bind found => exact accounted.frame rfl rfl rfl (held_record found rfl rfl)
  | finish found => exact accounted.frame rfl rfl rfl (held_record found rfl rfl)
  | detach found => exact accounted.frame rfl rfl rfl (held_record found rfl rfl)
  | join found => exact accounted.frame rfl rfl rfl (held_record found rfl rfl)
  | release found named _ unreleased =>
    obtain ⟨entries, models, same⟩ := remembers
    apply accounted.release found unreleased
    rw [models.find, same]
    exact orderly _ _ found named

/-- Binding a `pthread_t` again changes neither the map nor what its first binding was. -/
theorem Remembers.bind (remembers : Remembers system) {tid block : ℕ} (index : ℤ)
    (fresh : block ∉ system.shared._xmap.blocks)
    (fits : system.shared._xmap.Holds tid sizeofPointer ∨
      system.shared._xmap.Fits tid sizeofPointer) {creations : List Creation} :
    Remembers ⟨system.shared.bind block tid index, creations, system.bindings ++ [(tid, index)]⟩ := by
  obtain ⟨entries, models, same⟩ := remembers
  by_cases present : (tid, sizeofPointer) ∈ entries.map Prod.fst
  · refine ⟨entries, ?_, fun other => ?_⟩
    · rw [xthread.bind, models.insertIfAbsent_present present]
      exact models
    · rw [List.lookup_append, same]
      rw [← HashMap.lookup_isSome_iff_mem, same] at present
      rcases eq_or_ne other tid with rfl | named
      · rw [Option.or_of_isSome present]
      · simp [List.lookup_cons, beq_eq_false_iff_ne.mpr named]
  · refine ⟨entries ++ [((tid, sizeofPointer), index)], ?_, fun other => ?_⟩
    · rw [xthread.bind, models.insertIfAbsent_absent present]
      exact models.insert fresh (fits.resolve_left ((models.holds_iff _ _).not.mpr present))
    · rw [List.lookup_append, List.lookup_append, same]
      congr 1
      rcases eq_or_ne other tid with rfl | named
      · simp
      · have pair : ((other, sizeofPointer) == (tid, sizeofPointer)) = false :=
          beq_eq_false_iff_ne.mpr fun same => named (congrArg Prod.fst same)
        simp [List.lookup_cons, beq_eq_false_iff_ne.mpr named, pair]

/-- The map of the initial state binds the initial thread to index 0. -/
theorem initializeThreads_models (self block : ℕ) (memory : ℤ → thread_t) (links : Links ListRef)
    (count : ℕ → size_t) (entryAt : ListRef → Entry ℕ ℤ) :
    (xthread.initializeThreads self block memory links count entryAt)._xmap.Models
      [((self, sizeofPointer), 0)] := by
  have empty := HashMap.models_initializeMap addrFuncs
    (show 0 < (BitVec.ofNat 64 THREAD_MAP_SIZE).toNat by decide) links count entryAt
  have fresh : block ∉ (HashMap.initializeMap addrFuncs
      (BitVec.ofNat 64 THREAD_MAP_SIZE) links count entryAt).blocks := by
    obtain ⟨items, refines, none⟩ := empty
    rw [List.nil_eq, List.map_eq_nil_iff] at none
    rw [refines.block, none]
    exact List.not_mem_nil
  exact empty.insert fresh (empty.fits (by decide) (by decide) self)

theorem remembers_start (self block : ℕ) (memory : ℤ → thread_t) (links : Links ListRef)
    (count : ℕ → size_t) (entryAt : ListRef → Entry ℕ ℤ) :
    Remembers (.start (xthread.initializeThreads self block memory links count entryAt) self) := by
  refine ⟨_, initializeThreads_models self block memory links count entryAt, fun tid => ?_⟩
  rcases eq_or_ne tid self with rfl | named
  · simp [ThreadSystem.start]
  · have pair : ((tid, sizeofPointer) == (self, sizeofPointer)) = false :=
      beq_eq_false_iff_ne.mpr fun same => named (congrArg Prod.fst same)
    simp [ThreadSystem.start, List.lookup_cons, beq_eq_false_iff_ne.mpr named, pair]

theorem accounted_start (self block : ℕ) (memory : ℤ → thread_t) (links : Links ListRef)
    (count : ℕ → size_t) (entryAt : ListRef → Entry ℕ ℤ) :
    Accounted (.start (xthread.initializeThreads self block memory links count entryAt) self) := by
  refine ⟨?_, ?_, ?_⟩
  · change (0 : ℤ) ≤ 0 + 1
    decide
  · change (0 : ℤ) + 1 = 1
    decide
  · change ([0] : List ℤ).Perm ([0].filter fun i => !(_ : thread_t).available)
    rfl

theorem Remembers.step (remembers : Remembers system) (orderly : Orderly system event)
    (move : ThreadStep system event next) : Remembers next := by
  cases move with
  | alloc result =>
    obtain ⟨entries, models, same⟩ := remembers
    have unchanged := xthread.allocThreadIndex_xmap system.shared
    rw [result] at unchanged
    exact ⟨entries, show HashMap.Models _ entries from unchanged ▸ models, same⟩
  | spawn => exact remembers
  | bind found named _ fresh => exact remembers.bind _ fresh (orderly _ _ found named)
  | finish => exact remembers
  | detach => exact remembers
  | join => exact remembers
  | release => exact remembers

/-- What a run of orderly steps preserves. -/
theorem accounted_run {start finish : ThreadSystem} {events : List ThreadEvent}
    (run : Run (Guarded Orderly ThreadStep) start events finish)
    (accounted : Accounted start) (remembers : Remembers start) :
    Accounted finish ∧ Remembers finish :=
  run.invariant (fun system => Accounted system ∧ Remembers system)
    (fun _ _ _ inv move => ⟨inv.1.step inv.2 move.1 move.2, inv.2.step move.1 move.2⟩)
    ⟨accounted, remembers⟩

end System

/-- The initial thread 100 over zeroed memory. -/
def initialThread : xthread :=
  xthread.initializeThreads 100 0 (fun _ => ⟨false, 0, 0⟩)
    ⟨fun _ => .bucket 0, fun _ => .bucket 0⟩ (fun _ => 0) fun _ => ⟨0, 0, 0⟩

end FreeGuard.Model
