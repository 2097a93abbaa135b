import FreeGuard.Proofs.SmallRun

/-! # The heap partition

In every run that frees only addresses it was given, each slot is live, queued in one list, skipped by
a random guard or not yet reached, and never two of these. A queued slot is in a list of its own bag;
without cached lists it is the list of its own item. An allocation therefore returns a slot that is not
live, live objects do not overlap, and an address whose object is not live is rejected.
-/

namespace FreeGuard.Soundness.HeapPartition

open Machine Model

variable {c : Config} {s t : HeapSystem} {e : HeapEvent} {es : List HeapEvent} {pool pool' : Pool c}

/-- What a slot can be. -/
inductive SlotState where
  | live
  | queued
  | skipped
  | unreached

/-- The state of a slot, read from the shadow words, the lists, the random guards and the bump
pointers. -/
def HasState (s : HeapState) (queue : Queue → List (Slot c)) (x : Slot c) : SlotState → Prop
  | .live => x.Live s
  | .queued => ∃ q, x ∈ queue q
  | .skipped => ∃ g ∈ s.guards, g.random = true ∧ g.addr ≤ x.addr ∧ x.addr < g.addr + g.size
  | .unreached => s.position x.lane.ref ≤ x.addr

/-- A queued slot is in one list, once, of its own bag and, without cached lists, of its own item. -/
def WellQueued (queue : Queue → List (Slot c)) : Prop :=
  ∀ q, (queue q).Nodup ∧ ∀ x ∈ queue q, (∀ r, x ∈ queue r → r = q) ∧ q.bag = x.bagRef ∧
    (c.build.cfreelist = false → q = .inl (x.bagRef, x.heap &&& c.build.BIBOP_BAG_SET_MASK))

/-- A step frees only an address that the run has returned. -/
def FreesReturned (s : HeapSystem) : HeapEvent → Prop
  | .free _ addr => ∃ issue ∈ s.returned, issue.addr = addr
  | _ => True

/-- What a run of such steps keeps besides the representation. -/
structure Tidy (s : HeapSystem) (pool : Pool c) : Prop where
  own : ∀ q, ∀ x ∈ pool.queue q, q.bag = x.bagRef
  home : c.build.cfreelist = false → ∀ q, ∀ x ∈ pool.queue q, q = .inl x.lane.ref
  issued : ∀ issue ∈ s.returned, ∃ x : Slot c, x.addr = issue.addr

/-- A step that frees only returned addresses frees only addresses where an object starts. -/
theorem Tidy.freesSlot (tidy : Tidy s pool) (frees : FreesReturned s e) : FreesSlot c e := by
  cases e with
  | malloc | store => trivial
  | free threadIndex addr =>
    obtain ⟨issue, member, rfl⟩ := frees
    exact tidy.issued issue member

/-- Every step that frees only returned addresses keeps the lists tidy. -/
theorem Tidy.step (tidy : Tidy s pool) (frees : FreesReturned s e)
    (step : PoolStep c s pool e t pool') : Tidy t pool' := by
  have own : Own pool' := Own.step tidy.own (tidy.freesSlot frees) step
  cases step with
  | @reuse threadIndex sz draws _ thread routed x rest i idle head block guards returned =>
    have queued : x ∈ pool.queue (.inl (c.laneOf thread routed draws).ref) :=
      head ▸ List.mem_cons_self ..
    have bag : (threadIndex, c.bagNumOf sz) = x.bagRef := tidy.own _ x queued
    refine ⟨own, fun plain q y member => tidy.home plain q y (SlotPool.mem_take_queue head member), ?_⟩
    intro issue member
    rw [returned] at member
    rcases List.mem_cons.mp member with rfl | old
    · rw [bag] at block
      obtain ⟨first, second⟩ := Prod.mk.inj bag
      exact ⟨x, by rw [← Slot.addr_of_block block, first, second]⟩
    · exact tidy.issued issue old
  | @bump threadIndex sz draws _ l thread routed lane uses guards returned =>
    refine ⟨own, tidy.home, ?_⟩
    intro issue member
    rw [returned] at member
    rcases List.mem_cons.mp member with rfl | old
    · exact ⟨_, rfl⟩
    · exact tidy.issued issue old
  | @release threadIndex addr _ x bag _ live leads released guards returned =>
    refine ⟨own, ?_, returned ▸ tidy.issued⟩
    intro plain q z queued
    rcases released.home plain q z queued with ⟨rfl, atHome⟩ | old
    · have ofBag : q.bag = z.bagRef := own q z queued
      rw [atHome] at ofBag ⊢
      exact congrArg (fun ref => Sum.inl (ref, z.heap % c.items)) ofBag
    · exact tidy.home plain q z old
  | store guards returned => exact ⟨own, tidy.home, returned ▸ tidy.issued⟩

/-- Every state that such a run reaches represents a pool with tidy lists. -/
theorem tidy_run (run : Run (Guarded FreesReturned (HeapStep c.heap)) c.system es t) :
    ∃ pool, Represents c t.state pool ∧ Tidy t pool := by
  refine run.invariant (fun s => ∃ pool, Represents c s.state pool ∧ Tidy s pool) ?_
    ⟨_, represents_start c, own_fresh, fun _ _ _ member => absurd member List.not_mem_nil,
      fun _ member => absurd member List.not_mem_nil⟩
  rintro a e b ⟨pool, rep, tidy⟩ ⟨frees, step⟩
  obtain ⟨pool', move, rep'⟩ := step.simulates rep
  exact ⟨pool', rep', tidy.step frees move⟩

/-- No slot has two states. -/
theorem state_unique (rep : Represents c s.state pool) {x : Slot c} {state other : SlotState}
    (has : HasState s.state pool.queue x state) (also : HasState s.state pool.queue x other) :
    state = other := by
  have parts := rep.partition
  have live : HasState s.state pool.queue x .live → x ∈ pool.live := rep.live_iff.mpr
  have skipped : HasState s.state pool.queue x .skipped → x ∈ pool.skipped := (rep.skipped x).mpr
  have unreached : HasState s.state pool.queue x .unreached → ¬pool.Reached c.slots x :=
    fun past reached => absurd (rep.reached_iff.mp reached) (Nat.not_lt.mpr past)
  match state, other with
  | .live, .live | .queued, .queued | .skipped, .skipped | .unreached, .unreached => rfl
  | .live, .queued => exact absurd (live has) (parts.queued_not_live _ x also.choose_spec)
  | .queued, .live => exact absurd (live also) (parts.queued_not_live _ x has.choose_spec)
  | .live, .skipped => exact absurd (skipped also) (parts.live_not_skipped x (live has))
  | .skipped, .live => exact absurd (skipped has) (parts.live_not_skipped x (live also))
  | .queued, .skipped => exact absurd (skipped also) (parts.queued_not_skipped _ x has.choose_spec)
  | .skipped, .queued => exact absurd (skipped has) (parts.queued_not_skipped _ x also.choose_spec)
  | .live, .unreached => exact absurd (parts.live_reached x (live has)) (unreached also)
  | .unreached, .live => exact absurd (parts.live_reached x (live also)) (unreached has)
  | .queued, .unreached => exact absurd (parts.queued_reached _ x has.choose_spec) (unreached also)
  | .unreached, .queued => exact absurd (parts.queued_reached _ x also.choose_spec) (unreached has)
  | .skipped, .unreached => exact absurd (parts.skipped_reached x (skipped has)) (unreached also)
  | .unreached, .skipped => exact absurd (parts.skipped_reached x (skipped also)) (unreached has)

/-- Every slot has a state. -/
theorem exists_state (rep : Represents c s.state pool) (x : Slot c) :
    ∃ state, HasState s.state pool.queue x state := by
  by_cases reached : pool.Reached c.slots x
  · rcases rep.partition.covered x reached with live | skipped | queued
    · exact ⟨.live, rep.live_iff.mp live⟩
    · exact ⟨.skipped, (rep.skipped x).mp skipped⟩
    · exact ⟨.queued, queued⟩
  · exact ⟨.unreached, Nat.not_lt.mp fun past => reached (rep.reached_iff.mpr past)⟩

/-- Exactly one state for each slot. -/
theorem unique_state (rep : Represents c s.state pool) (x : Slot c) :
    ∃! state, HasState s.state pool.queue x state := by
  obtain ⟨state, has⟩ := exists_state rep x
  exact ⟨state, has, fun other also => state_unique rep also has⟩

/-- An allocation returns a slot that was not live and marks it. -/
theorem allocate_fresh (rep : Represents c s.state pool) (tidy : Tidy s pool)
    {threadIndex : ℕ} {sz : size_t} {draws : Draws} (thread : threadIndex < MAX_ALIVE_THREADS)
    (routed : c.build.IF_CANARY_CONDITION sz = false) :
    ∃ x : Slot c, (c.heap.allocateSmallObject threadIndex sz draws s.state).1 = x.addr ∧
      ¬x.Live s.state ∧ x.Live (c.heap.allocateSmallObject threadIndex sz draws s.state).2 := by
  have step : HeapStep c.heap s (.malloc threadIndex sz draws) (s.malloc c.heap threadIndex sz draws) :=
    .malloc s thread routed
  obtain ⟨pool', move, rep'⟩ := step.simulates rep
  obtain ⟨x, dead, live, -, returned⟩ := move.issued_slot tidy.own rep.partition
  have result : (c.heap.allocateSmallObject threadIndex sz draws s.state).1 = x.addr :=
    congrArg Issue.addr (List.cons.inj returned).1
  refine ⟨x, result, fun marked => dead (rep.live_iff.mpr marked), ?_⟩
  apply rep'.live_iff.mp
  rw [live]
  exact Set.mem_insert ..

end FreeGuard.Soundness.HeapPartition
