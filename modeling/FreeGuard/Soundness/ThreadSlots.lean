import FreeGuard.Proofs.Xthread

/-! # Thread indexes stay in range

Along every orderly run that takes an index only while fewer than `MAX_ALIVE_THREADS` calls hold one,
every index taken is in range, and the next one is in range exactly when that still holds. A detached
thread holds its index for ever: nothing but `thread_join` gives one back.
-/

namespace FreeGuard.Soundness.ThreadSlots

open Machine Model
open LinkedPath (Links)

/-- An orderly step; an index is taken while fewer than `MAX_ALIVE_THREADS` calls hold one. -/
def Roomy (system : ThreadSystem) (event : ThreadEvent) : Prop :=
  Orderly system event ∧ (event = .alloc → system.heldCount < MAX_ALIVE_THREADS)

/-- Every index taken so far is in range. -/
structure InRange (system : ThreadSystem) : Prop where
  used : system.shared._threadIndex ≤ MAX_ALIVE_THREADS
  index : ∀ creation ∈ system.creations, 0 ≤ creation.index ∧ creation.index < MAX_ALIVE_THREADS

theorem InRange.alloc {system : ThreadSystem} {tindex : ℤ} {shared : xthread}
    (range : InRange system) (accounted : Accounted system)
    (room : system.heldCount < MAX_ALIVE_THREADS)
    (result : system.shared.allocThreadIndex = (tindex, shared)) :
    0 ≤ tindex ∧ tindex < MAX_ALIVE_THREADS ∧ shared._threadIndex ≤ MAX_ALIVE_THREADS := by
  obtain ⟨nonneg, -, -, taken⟩ :=
    xthread.allocThreadIndex_spec accounted.nonneg accounted.alive_eq result
  have alive := accounted.alive
  rw [held_length] at alive
  have used := range.used
  rcases taken with ⟨full, rfl, grown⟩ | ⟨spare, below, same⟩
  · refine ⟨nonneg, ?_, ?_⟩ <;> omega
  · refine ⟨nonneg, ?_, ?_⟩ <;> omega

theorem InRange.record {system : ThreadSystem} (range : InRange system) {shared : xthread}
    {bindings : List (ℕ × ℤ)} {call : ℕ} {creation changed : Creation}
    (found : system.creations[call]? = some creation)
    (used : shared._threadIndex = system.shared._threadIndex)
    (index : changed.index = creation.index) :
    InRange (ThreadSystem.record ⟨shared, system.creations, bindings⟩ call changed) := by
  refine ⟨used ▸ range.used, fun other member => ?_⟩
  rcases List.mem_or_eq_of_mem_set member with old | rfl
  · exact range.index other old
  · exact index ▸ range.index creation (List.mem_of_getElem? found)

theorem InRange.step {system next : ThreadSystem} {event : ThreadEvent} (range : InRange system)
    (accounted : Accounted system) (room : event = .alloc → system.heldCount < MAX_ALIVE_THREADS)
    (move : ThreadStep system event next) : InRange next := by
  cases move with
  | alloc result =>
    obtain ⟨nonneg, below, used⟩ := range.alloc accounted (room rfl) result
    refine ⟨used, fun creation member => ?_⟩
    rcases List.mem_append.mp member with old | new
    · exact range.index creation old
    · rw [List.mem_singleton.mp new]
      exact ⟨nonneg, below⟩
  | spawn found => exact range.record found rfl rfl
  | bind found => exact range.record found rfl rfl
  | finish found => exact range.record found rfl rfl
  | detach found => exact range.record found rfl rfl
  | join found => exact range.record found rfl rfl
  | release found => exact range.record found rfl rfl

/-- Along every run of orderly steps that take indexes while fewer than `MAX_ALIVE_THREADS` are held,
every index is in range, and the next call gets one in range exactly when that is still so. -/
theorem thread_index_in_range_iff (self block : ℕ) (memory : ℤ → thread_t) (links : Links ListRef)
    (count : ℕ → size_t) (entryAt : ListRef → Entry ℕ ℤ) {events : List ThreadEvent}
    {system : ThreadSystem}
    (run : Run (Guarded Roomy ThreadStep)
      (.start (xthread.initializeThreads self block memory links count entryAt) self) events system) :
    (∀ creation ∈ system.creations, 0 ≤ creation.index ∧ creation.index < MAX_ALIVE_THREADS) ∧
      (0 ≤ system.shared.allocThreadIndex.1 ∧
          system.shared.allocThreadIndex.1 < MAX_ALIVE_THREADS ↔
        system.heldCount < MAX_ALIVE_THREADS) := by
  obtain ⟨⟨accounted, -⟩, range⟩ := run.invariant
    (fun system => (Accounted system ∧ Remembers system) ∧ InRange system)
    (fun _ _ _ inv move =>
      ⟨⟨inv.1.1.step inv.1.2 move.1.1 move.2, inv.1.2.step move.1.1 move.2⟩,
        inv.2.step inv.1.1 move.1.2 move.2⟩)
    ⟨⟨accounted_start self block memory links count entryAt,
      remembers_start self block memory links count entryAt⟩,
      ⟨by change (1 : ℤ) ≤ 128; decide, by
        intro creation member
        rw [List.mem_singleton.mp member]
        exact ⟨le_refl (0 : ℤ), show (0 : ℤ) < 128 by decide⟩⟩⟩
  refine ⟨range.index, ?_, ?_⟩
  · rintro ⟨-, below⟩
    obtain ⟨nonneg, -, -, taken⟩ := xthread.allocThreadIndex_spec accounted.nonneg
      accounted.alive_eq Prod.mk.eta.symm
    have alive := accounted.alive
    rw [held_length] at alive
    have used := range.used
    rcases taken with ⟨full, same, -⟩ | ⟨spare, -⟩
    · omega
    · omega
  · intro room
    obtain ⟨nonneg, below, -⟩ := range.alloc accounted room Prod.mk.eta.symm
    exact ⟨nonneg, below⟩

/-- One thread created beside the initial one. -/
theorem second_thread_in_range : ∃ system,
    Run (Guarded Roomy ThreadStep) (.start initialThread 100) [.alloc] system ∧
    (∀ creation ∈ system.creations, 0 ≤ creation.index ∧ creation.index < MAX_ALIVE_THREADS) ∧
    (0 ≤ system.shared.allocThreadIndex.1 ∧
        system.shared.allocThreadIndex.1 < MAX_ALIVE_THREADS ↔
      system.heldCount < MAX_ALIVE_THREADS) :=
  have run : Run (Guarded Roomy ThreadStep) (.start initialThread 100) [.alloc] _ :=
    .single ⟨⟨trivial, fun _ => by decide⟩, .alloc _ rfl⟩
  ⟨_, run, thread_index_in_range_iff 100 0 _ _ _ _ run⟩

/-! ## Detached threads -/

/-- No more than `MAX_ALIVE_THREADS` threads are alive. -/
def FewAlive (system : ThreadSystem) (_ : ThreadEvent) : Prop :=
  system.aliveCount ≤ MAX_ALIVE_THREADS

/-- `n` slots are in use and taken, and all threads but one have ended detached. -/
structure Drained (n : ℕ) (system : ThreadSystem) : Prop where
  alive : system.shared._aliveThreads = n
  used : system.shared._threadIndex = n
  few : system.aliveCount = 1
  unused : ∀ other ∈ system.creations, other.tid = some 7 → other.Gone

theorem record_last {shared : xthread} {creations : List Creation} {bindings : List (ℕ × ℤ)}
    {last changed : Creation} :
    ThreadSystem.record ⟨shared, creations ++ [last], bindings⟩ creations.length changed =
      ⟨shared, creations ++ [changed], bindings⟩ := by
  simp [ThreadSystem.record]

theorem aliveCount_append {shared : xthread} {creations : List Creation}
    {bindings : List (ℕ × ℤ)} {last : Creation} :
    (ThreadSystem.mk shared (creations ++ [last]) bindings).aliveCount =
      creations.countP (fun c => c.Alive) + if last.Alive then 1 else 0 := by
  simp [ThreadSystem.aliveCount, List.countP_append, List.countP_cons]

section Last

variable {shared : xthread} {creations : List Creation} {bindings : List (ℕ × ℤ)} {last : Creation}

theorem spawn_last {tid : ℕ} (unnamed : last.tid = none)
    (unused : ∀ other ∈ creations, other.tid = some tid → other.Gone) :
    ThreadStep ⟨shared, creations ++ [last], bindings⟩ (.spawn creations.length tid)
      ⟨shared.setPthread last.index tid, creations ++ [{ last with tid := some tid }], bindings⟩ := by
  have move := ThreadStep.spawn ⟨shared, creations ++ [last], bindings⟩
    List.getElem?_concat_length unnamed (fun other member named => by
      rcases List.mem_append.mp member with old | new
      · exact unused other old named
      · rw [List.mem_singleton.mp new, unnamed] at named
        cases named)
  rwa [record_last] at move

theorem bind_last {tid block : ℕ} (named : last.tid = some tid) (unbound : last.bound = false)
    (fresh : block ∉ shared._xmap.blocks) :
    ThreadStep ⟨shared, creations ++ [last], bindings⟩ (.bind creations.length block)
      ⟨shared.bind block tid last.index, creations ++ [{ last with bound := true }],
        bindings ++ [(tid, last.index)]⟩ := by
  have move := ThreadStep.bind ⟨shared, creations ++ [last], bindings⟩
    List.getElem?_concat_length named unbound fresh
  rwa [record_last] at move

theorem finish_last (created : last.tid.isSome) (running : last.finished = false) :
    ThreadStep ⟨shared, creations ++ [last], bindings⟩ (.finish creations.length)
      ⟨shared, creations ++ [{ last with finished := true }], bindings⟩ := by
  have move := ThreadStep.finish ⟨shared, creations ++ [last], bindings⟩
    List.getElem?_concat_length created running
  rwa [record_last] at move

theorem detach_last (created : last.tid.isSome) (unjoined : last.joined = false)
    (attached : last.detached = false) :
    ThreadStep ⟨shared, creations ++ [last], bindings⟩ (.detach creations.length)
      ⟨shared, creations ++ [{ last with detached := true }], bindings⟩ := by
  have move := ThreadStep.detach ⟨shared, creations ++ [last], bindings⟩
    List.getElem?_concat_length created unjoined attached
  rwa [record_last] at move

end Last

/-- Creating, detaching and ending one thread uses up one slot. -/
theorem Drained.round {n : ℕ} {system : ThreadSystem} (drained : Drained n system) :
    ∃ events next, Run (Guarded FewAlive ThreadStep) system events next ∧ Drained (n + 1) next := by
  obtain ⟨shared, creations, bindings⟩ := system
  obtain ⟨alive, used, few, unused⟩ := drained
  obtain ⟨block, fresh⟩ := shared._xmap.exists_fresh
  have alloc := ThreadStep.alloc ⟨shared, creations, bindings⟩
    (show shared.allocThreadIndex = (shared._threadIndex, _) by
      rw [xthread.allocThreadIndex, if_pos (alive.trans used.symm)])
  have small (shared : xthread) (bindings : List (ℕ × ℤ)) (last : Creation) (event : ThreadEvent) :
      FewAlive ⟨shared, creations ++ [last], bindings⟩ event := by
    rw [FewAlive, aliveCount_append, show creations.countP (fun c => c.Alive) = 1 from few]
    split <;> decide
  refine ⟨_, _, .cons ⟨by rw [FewAlive, few]; decide, alloc⟩
    (.cons ⟨small .., spawn_last rfl unused⟩ (.cons ⟨small .., bind_last rfl rfl fresh⟩
      (.cons ⟨small .., detach_last rfl rfl rfl⟩ (.single ⟨small .., finish_last rfl rfl⟩)))),
    ?_, ?_, ?_, ?_⟩
  · change shared._aliveThreads + 1 = _
    rw [show shared._aliveThreads = n from alive]
    rfl
  · change shared._threadIndex + 1 = _
    rw [show shared._threadIndex = n from used]
    rfl
  · rw [aliveCount_append, show creations.countP (fun c => c.Alive) = 1 from few]
    rfl
  · intro other member named
    rcases List.mem_append.mp member with old | new
    · exact unused other old named
    · rw [List.mem_singleton.mp new]
      exact .inr ⟨rfl, rfl⟩

/-- With one thread alive at a time but for one in creation, index 128 is handed out. -/
theorem detached_threads_use_up_slots : ∃ events system,
    Run (Guarded FewAlive ThreadStep) (.start initialThread 100) events system ∧
    system.aliveCount = 1 ∧ system.shared.allocThreadIndex.1 = MAX_ALIVE_THREADS := by
  have drain (n : ℕ) : ∃ events system,
      Run (Guarded FewAlive ThreadStep) (.start initialThread 100) events system ∧
      Drained (n + 1) system := by
    induction n with
    | zero =>
      refine ⟨[], _, .nil _, rfl, rfl, rfl, fun other member named => ?_⟩
      rw [List.mem_singleton.mp member] at named
      cases named
    | succ n ih =>
      obtain ⟨events, system, run, drained⟩ := ih
      obtain ⟨more, next, round, drained⟩ := drained.round
      exact ⟨events ++ more, next, run.append round, drained⟩
  obtain ⟨events, system, run, drained⟩ := drain 127
  refine ⟨events, system, run, drained.few, ?_⟩
  rw [xthread.allocThreadIndex, if_pos (drained.alive.trans drained.used.symm)]
  exact drained.used

end FreeGuard.Soundness.ThreadSlots
