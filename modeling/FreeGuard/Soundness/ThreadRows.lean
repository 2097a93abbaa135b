import FreeGuard.Proofs.Xthread

/-! # Live threads and their rows

Along every orderly run two threads that are created and not yet joined have different indexes. A
`pthread_t` that comes back for a thread with another index breaks this: the map still binds it to
the first index, so the join of the second thread gives back a slot that is in use.
-/

namespace FreeGuard.Soundness.ThreadRows

open Machine Model
open LinkedPath (Links)

/-- A slot is given back only for a thread that has been joined. -/
def ReleasesJoined (system : ThreadSystem) : Prop :=
  ∀ creation ∈ system.creations, creation.released = true → creation.joined = true

theorem ReleasesJoined.record {system : ThreadSystem} (order : ReleasesJoined system)
    {shared : xthread} {bindings : List (ℕ × ℤ)} {call : ℕ} {changed : Creation}
    (own : changed.released = true → changed.joined = true) :
    ReleasesJoined (ThreadSystem.record ⟨shared, system.creations, bindings⟩ call changed) := by
  intro creation member
  rcases List.mem_or_eq_of_mem_set member with old | rfl
  · exact order creation old
  · exact own

/-- A step of a call that changes neither flag. -/
theorem ReleasesJoined.frame {system : ThreadSystem} (order : ReleasesJoined system)
    {shared : xthread} {bindings : List (ℕ × ℤ)} {call : ℕ} {creation changed : Creation}
    (found : system.creations[call]? = some creation) (released : changed.released = creation.released)
    (joined : changed.joined = creation.joined) :
    ReleasesJoined (ThreadSystem.record ⟨shared, system.creations, bindings⟩ call changed) :=
  order.record (released ▸ joined ▸ order creation (List.mem_of_getElem? found))

theorem ReleasesJoined.step {system next : ThreadSystem} {event : ThreadEvent}
    (order : ReleasesJoined system) (move : ThreadStep system event next) : ReleasesJoined next := by
  cases move with
  | alloc =>
    intro creation member
    rcases List.mem_append.mp member with old | new
    · exact order creation old
    · rw [List.mem_singleton.mp new]
      exact fun released => absurd released Bool.false_ne_true
  | spawn found => exact order.frame found rfl rfl
  | bind found => exact order.frame found rfl rfl
  | finish found => exact order.frame found rfl rfl
  | detach found => exact order.frame found rfl rfl
  | join => exact order.record fun _ => rfl
  | release _ _ joined => exact order.record fun _ => joined

/-- Two calls that hold slots hold different ones. -/
theorem Accounted.apart {system : ThreadSystem} (accounted : Accounted system) {i j : ℕ}
    {a b : Creation} (first : system.creations[i]? = some a) (second : system.creations[j]? = some b)
    (distinct : i < j) (heldA : a.released = false) (heldB : b.released = false) :
    a.index ≠ b.index := by
  have nodup : (held system.creations).Nodup := accounted.slots.nodup_iff.mpr (xthread.taken_nodup _)
  rw [held, List.Nodup, List.pairwise_filterMap] at nodup
  obtain ⟨boundA, rfl⟩ := List.getElem?_eq_some_iff.mp first
  obtain ⟨boundB, rfl⟩ := List.getElem?_eq_some_iff.mp second
  exact List.pairwise_iff_getElem.mp nodup i j boundA boundB distinct _ (by simp [heldA]) _
    (by simp [heldB])

/-- Along every orderly run, threads created and not yet joined never share an index. -/
theorem unjoined_threads_apart (self block : ℕ) (memory : ℤ → thread_t) (links : Links ListRef)
    (count : ℕ → size_t) (entryAt : ListRef → Entry ℕ ℤ) {events : List ThreadEvent}
    {system : ThreadSystem}
    (run : Run (Guarded Orderly ThreadStep)
      (.start (xthread.initializeThreads self block memory links count entryAt) self) events system)
    {i j : ℕ} {a b : Creation} (first : system.creations[i]? = some a)
    (second : system.creations[j]? = some b) (distinct : i ≠ j) (unjoinedA : a.Unjoined)
    (unjoinedB : b.Unjoined) : a.index ≠ b.index := by
  obtain ⟨accounted, -⟩ := accounted_run run
    (accounted_start self block memory links count entryAt)
    (remembers_start self block memory links count entryAt)
  have order : ReleasesJoined system := run.invariant ReleasesJoined
    (fun _ _ _ order move => order.step move.2) (by
      intro creation member
      rw [List.mem_singleton.mp member]
      exact fun released => absurd released Bool.false_ne_true)
  have unreleased : ∀ c ∈ system.creations, c.Unjoined → c.released = false := by
    intro c member unjoined
    rw [Bool.eq_false_iff]
    intro released
    cases (order c member released).symm.trans unjoined.2
  have heldA := unreleased a (List.mem_of_getElem? first) unjoinedA
  have heldB := unreleased b (List.mem_of_getElem? second) unjoinedB
  rcases Nat.lt_or_gt_of_ne distinct with before | after
  · exact Accounted.apart accounted first second before heldA heldB
  · exact (Accounted.apart accounted second first after heldB heldA).symm

/-! ## A `pthread_t` that comes back -/

/-- The initial thread and one created thread. -/
theorem unjoined_pair_apart : ∃ system a b,
    Run (Guarded Orderly ThreadStep) (.start initialThread 100) [.alloc, .spawn 1 7, .bind 1 1] system ∧
    system.creations[0]? = some a ∧ system.creations[1]? = some b ∧ a.index ≠ b.index := by
  have models : initialThread._xmap.Models [((100, sizeofPointer), 0)] := initializeThreads_models ..
  have run : Run (Guarded Orderly ThreadStep) (.start initialThread 100)
      [.alloc, .spawn 1 7, .bind 1 1] _ :=
    .cons ⟨trivial, .alloc _ rfl⟩ (.cons ⟨trivial, .spawn _ rfl rfl (by decide)⟩ (.single
      ⟨fun _ tid _ _ => .inr (models.fits (by decide) (by decide) tid),
        .bind _ rfl rfl rfl (by decide +kernel)⟩))
  exact ⟨_, _, _, run, rfl, rfl, unjoined_threads_apart _ _ _ _ _ _ run (i := 0) (j := 1) rfl rfl
    (by decide) ⟨rfl, rfl⟩ ⟨rfl, rfl⟩⟩

/-- Thread 1 has `pthread_t` 7 and index 1, thread 2 takes index 1 after its join, thread 3 comes with
`pthread_t` 7 and index 2, the join of thread 3 gives back index 1, and thread 4 takes it. -/
def reuse : List ThreadEvent :=
  [.alloc, .spawn 1 7, .bind 1 1, .finish 1, .join 1, .release 1,
   .alloc, .spawn 2 8, .bind 2 2,
   .alloc, .spawn 3 7, .bind 3 3, .finish 3, .join 3, .release 3,
   .alloc, .spawn 4 9, .bind 4 4]

/-- The threads 2 and 4 of a state are unjoined and have one index. -/
def sharesIndex (system : ThreadSystem) : Bool :=
  match system.creations[2]?, system.creations[4]? with
  | some a, some b => a.Unjoined ∧ b.Unjoined ∧ a.index = b.index
  | _, _ => false

theorem reuse_shares_index : ∃ system a b,
    Run ThreadStep (.start initialThread 100) reuse system ∧
    system.creations[2]? = some a ∧ system.creations[4]? = some b ∧ a.Unjoined ∧ b.Unjoined ∧
    a.index = b.index := by
  have computed : (reuse.foldlM ThreadSystem.exec (.start initialThread 100)).any sharesIndex = true := by
    decide +kernel
  obtain ⟨system, reached, shares⟩ := (Option.any_eq_true _ _).mp computed
  rw [sharesIndex] at shares
  split at shares
  · rename_i a b first second
    obtain ⟨unjoinedA, unjoinedB, same⟩ := of_decide_eq_true shares
    exact ⟨system, a, b, .of_foldlM ThreadSystem.exec_sound reached, first, second, unjoinedA,
      unjoinedB, same⟩
  · cases shares

end FreeGuard.Soundness.ThreadRows
