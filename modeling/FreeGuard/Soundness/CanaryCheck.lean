import FreeGuard.Proofs.Canary

/-! # The canary check is exact

In a build with canaries, freeing a live object ends in the fatal error exactly when its canary or that
of a live object near it in its lane has been overwritten. No other slot is inspected. A program whose
stores go to usable bytes never gets there: every slot that was ever handed out keeps its canary.
-/

namespace FreeGuard.Soundness.CanaryCheck

open Machine Model

variable {c : Config} {s t : HeapSystem} {pool pool' : Pool c} {e : HeapEvent} {es : List HeapEvent}
  {x : Slot c}

/-- `freeSmallObject` ends in the canary error. -/
def EndsInCanary (c : Config) (threadIndex addr : ℕ) (s : HeapState) : Prop :=
  ∃ object canary value,
    c.heap.freeSmallObject threadIndex addr s = .error (.canary object addr canary value)

/-- The successors that the check visits lie in the heap. -/
def SuccessorsInside (x : Slot c) : Prop :=
  (x.lane.slot (x.seq + NUM_MORE_CANARIES_TO_CHECK)).heap < BIBOP_NUM_HEAPS

/-- A store of the program goes to a usable byte of an address that was returned. -/
def StoresUsable (s : HeapSystem) : HeapEvent → Prop
  | .store addr _ => ∃ issue ∈ s.returned, issue.Usable addr
  | _ => True

theorem endsInCanary_iff (canary : c.build.canary = true) {state : HeapState}
    (rep : Represents c state pool) (live : x.Live state) (threadIndex : ℕ) :
    EndsInCanary c threadIndex x.addr state ↔
      state.mem x.canary ≠ CANARY_SENTINEL ∨ ∃ y, x.Near y ∧ y ≠ x ∧ y.Broken state := by
  have member := rep.live_iff.mpr live
  constructor
  · rintro ⟨object, byte, value, failed⟩
    by_contra intact
    obtain ⟨own, others⟩ := not_or.mp intact
    have none : ∀ y, x.Near y → ¬y.Broken state := by
      intro y near broken
      rcases eq_or_ne y x with same | same
      · exact own (same ▸ broken.2)
      · exact others ⟨y, near, same, broken⟩
    obtain ⟨next, ok⟩ := rep.free_intact member fun _ => none
    cases ok.symm.trans failed
  · rintro (own | ⟨y, near, -, broken⟩)
    · exact rep.free_broken canary member x.near_self ⟨live, own⟩
    · exact rep.free_broken canary member near broken

/-! ## Programs that stay within their blocks -/

/-- Every slot ever handed out keeps its canary, and every address returned is that of a block. -/
structure Sealed (s : HeapSystem) (pool : Pool c) : Prop where
  intact : ∀ x, pool.Held x → s.state.mem x.canary = CANARY_SENTINEL
  blocks : ∀ issue ∈ s.returned, c.IsBlock issue

theorem sealed_start (c : Config) : Sealed c.system (SlotPool.fresh : Pool c) where
  intact _ held := by
    rcases held with live | ⟨_, queued⟩
    · exact absurd live (Set.notMem_empty _)
    · exact absurd queued List.not_mem_nil
  blocks _ returned := absurd returned List.not_mem_nil

theorem Sealed.malloc {threadIndex : ℕ} {sz : size_t} {draws : Draws} (canary : c.build.canary = true)
    (kept : Sealed s pool) (thread : threadIndex < MAX_ALIVE_THREADS)
    (routed : c.build.IF_CANARY_CONDITION sz = false)
    (move : PoolStep c s pool (.malloc threadIndex sz draws) (s.malloc c.heap threadIndex sz draws)
      pool') : Sealed (s.malloc c.heap threadIndex sz draws) pool' := by
  obtain ⟨written, unbroken⟩ := allocateSmallObject_canary canary thread routed
    (Prod.eta (c.heap.allocateSmallObject threadIndex sz draws s.state)).symm
  cases move with
  | @reuse _ _ _ _ _ _ x rest i idle head block guards returned =>
    constructor
    · rintro y ((rfl | live) | ⟨q, queued⟩)
      · exact unbroken _ (kept.intact y (.inr ⟨_, head ▸ List.mem_cons_self ..⟩))
      · exact unbroken _ (kept.intact y (.inl live))
      · exact unbroken _ (kept.intact y (.inr ⟨q, SlotPool.mem_take_queue head queued⟩))
    · rw [returned]
      exact List.forall_mem_cons.mpr ⟨⟨x.heap, threadIndex, c.bagNumOf sz, i, thread,
        Config.bagNumOf_lt routed, block.2.1, rfl⟩, kept.blocks⟩
  | @bump _ _ _ _ l _ _ lane uses guards returned =>
    have issued := (List.cons.inj returned).1
    have addr := congrArg Issue.addr issued
    constructor
    · rintro y ((rfl | live) | queued)
      · subst lane
        rw [Slot.canary, ← show _ = (Lane.slot _ _).addr from addr]
        exact written
      · exact unbroken _ (kept.intact y (.inl live))
      · exact unbroken _ (kept.intact y (.inr queued))
    · rw [returned]
      exact List.forall_mem_cons.mpr
        ⟨(Slot.leadsTo_addr (l.slot (pool.cursor l))).isBlock l.bag_lt, kept.blocks⟩

theorem Sealed.step (canary : c.build.canary = true) (kept : Sealed s pool)
    (usable : StoresUsable s e) (step : HeapStep c.heap s e t)
    (move : PoolStep c s pool e t pool') : Sealed t pool' := by
  cases step with
  | malloc thread routed => exact kept.malloc canary thread routed move
  | @free threadIndex addr state thread inside ok =>
    cases move with
    | @release _ _ _ x bag _ live leads released guards returned =>
      refine ⟨fun y held => ?_, kept.blocks⟩
      rw [Slot.canary_freed canary leads ok y]
      rcases held with still | ⟨q, queued⟩
      · exact kept.intact y (.inl (released.live ▸ still).1)
      · rcases released.queued q y queued with ⟨rfl, -⟩ | ⟨r, -, old⟩
        · exact kept.intact y (.inl live)
        · exact kept.intact y (.inr ⟨r, old⟩)
  | @store addr value =>
    obtain ⟨issue, returned, inside⟩ := usable
    have block := kept.blocks issue returned
    cases move with
    | store _ _ =>
      refine ⟨fun y held => ?_, kept.blocks⟩
      exact (Function.update_of_ne (y.canary_not_usable block inside) ..).trans (kept.intact y held)

theorem exists_sealed (canary : c.build.canary = true)
    (run : Run (Guarded StoresUsable (HeapStep c.heap)) c.system es t) :
    ∃ pool : Pool c, Represents c t.state pool ∧ Sealed t pool := by
  apply run.invariant (fun s => ∃ pool : Pool c, Represents c s.state pool ∧ Sealed s pool)
  · rintro s e t ⟨pool, rep, kept⟩ ⟨usable, step⟩
    obtain ⟨pool', move, rep'⟩ := step.simulates rep
    exact ⟨pool', rep', kept.step canary usable step move⟩
  · exact ⟨_, represents_start c, sealed_start c⟩

end FreeGuard.Soundness.CanaryCheck
