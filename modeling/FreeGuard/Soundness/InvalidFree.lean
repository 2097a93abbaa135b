import FreeGuard.Proofs.SmallRun

/-! # Invalid frees

The checks of `freeSmallObject` see an address only through its class and its shadow entry. An address
that is no live object is rejected exactly when it is misaligned in a usable bag or no live object of
its heap has the entry's rank. The addresses of a guard at the end of a bag, and those of the unusable
bags, have the ranks of objects elsewhere in the heap.
-/

namespace FreeGuard.Soundness.InvalidFree

open Machine Model

variable {c : Config} {s : HeapState} {pool : Pool c} {addr threadIndex : ℕ}

/-- The deallocation stops at the class-alignment check or at the check of the shadow entry. -/
def Rejected (heap : BibopHeap) (threadIndex addr : ℕ) (s : HeapState) : Prop :=
  (∃ classSize classMask offset, heap.freeSmallObject threadIndex addr s =
    .error (.invalidObject addr classSize classMask offset)) ∨
  ∃ shadowinfo, heap.freeSmallObject threadIndex addr s = .error (.doubleFree addr shadowinfo)

/-- The address is misaligned in a usable bag, or no live object of its heap has the rank of the shadow
entry that the decoder computes for it. -/
def Detectable (c : Config) (addr : ℕ) (s : HeapState) : Prop :=
  ((c.heap.bagOf addr).2 < c.heap._numUsableBags ∧
      c.heap.localBagOffset addr % classSize (c.heap.bagOf addr).2 ≠ 0) ∨
    ∀ x : Slot c, x.Live s → x.heap = c.heap.heapIndex addr →
      x.rank ≠ c.rankAt (c.heap.bagOf addr).1 (c.heap.bagOf addr).2 (c.heap.localBagOffset addr)

/-- The reasons of the checks. -/
def IsCheck : Stop → Prop
  | .invalidObject .. | .doubleFree .. => True
  | _ => False

theorem checkNeighbors_stops {bag : BagRef} {move : Direction} {count shadow : ℕ} {stop : Stop}
    (stopped : c.heap.checkNeighbors s addr bag move count shadow = .error stop) : ¬IsCheck stop := by
  induction count generalizing shadow with
  | zero => cases stopped
  | succ count ih =>
    rw [BibopHeap.checkNeighbors] at stopped
    split at stopped
    · cases stopped
    · dsimp only at stopped
      split at stopped
      · cases stopped
        exact id
      · exact ih stopped

theorem checkCanaries_stops {bag : BagRef} {shadow : ℕ} {stop : Stop}
    (stopped : c.heap.checkCanaries s addr bag shadow = .error stop) : ¬IsCheck stop := by
  rw [BibopHeap.checkCanaries] at stopped
  split at stopped
  · cases stopped
    exact id
  · cases left : c.heap.checkNeighbors s addr bag .LEFT NUM_MORE_CANARIES_TO_CHECK shadow with
    | error first =>
      rw [left] at stopped
      cases stopped
      exact checkNeighbors_stops left
    | ok _ =>
      rw [left] at stopped
      exact checkNeighbors_stops stopped

/-- Past the two checks no step gives their reasons. -/
theorem freeMarked_stops (rep : Represents c s pool) {x : Slot c} {bag : BagRef} {item : ℕ}
    (leads : c.LeadsTo addr bag x) (live : x ∈ pool.live) {stop : Stop}
    (stopped : c.heap.freeMarked threadIndex addr bag item x.entry s = .error stop) :
    ¬IsCheck stop := by
  obtain ⟨t, -, ran, -⟩ :=
    (rep.setMem (c.heap.destroyed addr bag s)).insertObject live leads.block threadIndex item
  rw [c.heap.freeMarked_eq, Config.heap_build] at stopped
  cases canary : c.build.canary with
  | false =>
    rw [canary, if_neg Bool.false_ne_true] at stopped
    cases ran.symm.trans stopped
  | true =>
    rw [canary, if_pos rfl] at stopped
    cases checked : c.heap.checkCanaries s addr bag x.entry with
    | error first =>
      rw [checked] at stopped
      cases stopped
      exact checkCanaries_stops checked
    | ok _ =>
      rw [checked] at stopped
      cases ran.symm.trans stopped

/-- The two checks reject an address exactly when it is detectable. -/
theorem rejected_iff (rep : Represents c s pool) (inside : c.heapBegin ≤ addr) :
    Rejected c.heap threadIndex addr s ↔ Detectable c addr s := by
  obtain ⟨h, th, b, off, thread, number, small, rfl⟩ := c.exists_place inside
  rw [Detectable, Config.bagOf_at thread number small, Config.localBagOffset_at small,
    Config.heapIndex_at thread number small, Config.heap_numUsableBags]
  by_cases misaligned : b < c.usable ∧ off % classSize b ≠ 0
  · refine iff_of_true (.inl ⟨classSize b, classSize b - 1, off, ?_⟩) (.inl misaligned)
    rw [BibopHeap.freeSmallObject, Config.getShadowObjectInfo_at thread number small,
      if_pos misaligned]
    rfl
  · have aligned : b < c.usable → off % classSize b = 0 := fun usable =>
      not_not.mp fun off' => misaligned ⟨usable, off'⟩
    rw [or_iff_right misaligned]
    rcases eq_or_ne (s.links (c.entryAt h (c.rankAt th b off))) ALLOC_SENTINEL with mark | mark
    · obtain ⟨x, live, -, heap, leads⟩ := rep.leadsTo_of_marked thread number small aligned mark
      obtain ⟨off', small', same, -, rank⟩ := leads.place
      refine iff_of_false ?_ fun none => none x (rep.live_iff.mp live) heap ?_
      · have checks : ∀ stop, c.heap.freeSmallObject threadIndex (c.bagBegin h th b + off) s =
            .error stop → ¬IsCheck stop := by
          intro stop stopped
          rw [rep.free_of_live leads live] at stopped
          exact freeMarked_stops rep leads live stopped
        rintro (⟨_, _, _, stopped⟩ | ⟨_, stopped⟩)
        · exact checks _ stopped trivial
        · exact checks _ stopped trivial
      · rw [heap] at same
        have offset : off = off' := Nat.add_left_cancel same
        rw [offset]
        exact rank
    · refine iff_of_true (.inr ⟨c.entryAt h (c.rankAt th b off), ?_⟩) fun x live heap rank => mark ?_
      · have free : BibopHeap.isObjectFree s (c.entryAt h (c.rankAt th b off)) = true := by
          simpa [BibopHeap.isObjectFree] using mark
        rw [BibopHeap.freeSmallObject, Config.getShadowObjectInfo_at thread number small,
          if_neg misaligned]
        change (if BibopHeap.isObjectFree _ _ then _ else _) = _
        rw [if_pos free]
      · rw [← rank, ← heap]
        exact live

/-- The default build without canaries. -/
def plainConfig : Config :=
  { Config.makefile with
    build := { Build.makefile with canary := false }
    large := by decide
    bagSet := by decide }

end FreeGuard.Soundness.InvalidFree
