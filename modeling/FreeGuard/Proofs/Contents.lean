import FreeGuard.Proofs.SizeClass
import FreeGuard.Proofs.SmallHeap

/-! # What the small heap writes to memory

An allocation writes one byte, the canary of the object that it returns; a deallocation writes the bytes
that it destroys. The lists live in the shadow memory.
-/

namespace FreeGuard.Model

variable {c : Config} {s t : HeapState} {threadIndex addr : ℕ} {bag : BagRef}

namespace BibopHeap

variable (heap : BibopHeap)

theorem incrementBumpPointer_frame (bag : BagRef) (item : ℕ) (s : HeapState) :
    (heap.incrementBumpPointer bag item s).mem = s.mem ∧
      (heap.incrementBumpPointer bag item s).links = s.links := by
  rw [incrementBumpPointer]
  dsimp only
  split <;> exact ⟨rfl, rfl⟩

theorem tryRandomGuardPage_frame (bag : BagRef) (item : ℕ) (draw : BitVec 32) (s : HeapState) :
    (heap.tryRandomGuardPage bag item draw s).mem = s.mem ∧
      (heap.tryRandomGuardPage bag item draw s).links = s.links := by
  rw [tryRandomGuardPage]
  dsimp only
  split
  · exact heap.incrementBumpPointer_frame ..
  · exact ⟨rfl, rfl⟩

/-- Taking an object changes neither the memory nor a link. -/
theorem takeObject_frame (draws : Draws) (s : HeapState) :
    (heap.takeObject bag draws s).2.mem = s.mem ∧
      (heap.takeObject bag draws s).2.links = s.links := by
  cases selected : heap.selectList draws.list with
  | mk item useBump =>
    obtain ⟨mem, links⟩ := heap.incrementBumpPointer_frame bag item s
    simp only [takeObject, selected]
    split
    · exact ⟨rfl, rfl⟩
    · dsimp only
      split
      · obtain ⟨mem', links'⟩ := heap.tryRandomGuardPage_frame bag item draws.guard
          (heap.incrementBumpPointer bag item s)
        exact ⟨mem'.trans mem, links'.trans links⟩
      · exact ⟨mem, links⟩

theorem realFreeCurrentList_frame {item : ℕ} (ran : realFreeCurrentList bag item s = .ok t) :
    t.mem = s.mem ∧ t.position = s.position := by
  rw [realFreeCurrentList] at ran
  split at ran
  · cases ran
  · cases ran
    exact ⟨rfl, rfl⟩

/-- The lists are no part of the memory, and no bump pointer moves. -/
theorem insertObject_frame {item shadowinfo : ℕ}
    (ran : heap.insertObject threadIndex bag item shadowinfo s = .ok t) :
    t.mem = s.mem ∧ t.position = s.position := by
  rw [insertObject] at ran
  split at ran
  · dsimp only at ran
    split at ran
    · obtain ⟨mem, position⟩ := realFreeCurrentList_frame ran
      exact ⟨mem.trans rfl, position.trans rfl⟩
    · cases ran
      exact ⟨rfl, rfl⟩
  · cases ran
    exact ⟨rfl, rfl⟩

/-- What the decoder yields, in the words of its other overload. -/
theorem getShadowObjectInfo_ok {item shadowinfo : ℕ}
    (decoded : heap.getShadowObjectInfo addr = .ok (bag, item, shadowinfo)) :
    bag = heap.bagOf addr ∧ shadowinfo = heap.getShadowObjectInfoIn addr bag := by
  rw [getShadowObjectInfo] at decoded
  dsimp only at decoded
  split at decoded
  · cases decoded
  · cases decoded
    exact ⟨rfl, rfl⟩

/-- Destroying an object changes at most its bytes short of the canary. -/
theorem destroyed_off {a : ℕ} (outside : ¬(addr ≤ a ∧
    a < addr + ((heap._threadBag bag).classSize - heap.build.canaryBytes))) :
    heap.destroyed addr bag s a = s.mem a := by
  rw [destroyed]
  split
  · exact if_neg outside
  · rfl

/-- A deallocation leaves the memory in which the object is destroyed, and moves no bump pointer. -/
theorem freeMarked_frame {item shadowinfo : ℕ}
    (ran : heap.freeMarked threadIndex addr bag item shadowinfo s = .ok t) :
    t.mem = heap.destroyed addr bag s ∧ t.position = s.position :=
  heap.insertObject_frame (freeMarked_ok ran)

/-! ### Independence of the memory -/

theorem incrementBumpPointer_setMem (bag : BagRef) (item : ℕ) (s : HeapState) (mem : ℕ → UInt8) :
    heap.incrementBumpPointer bag item (s.setMem mem) =
      (heap.incrementBumpPointer bag item s).setMem mem := by
  by_cases inside : s.position (bag, item) < s.lastofCurBag (bag, item)
  · simp only [incrementBumpPointer, HeapState.setMem, if_pos inside]
    exact if_pos inside
  · simp only [incrementBumpPointer, HeapState.setMem, if_neg inside]
    exact if_neg inside

theorem tryRandomGuardPage_setMem (bag : BagRef) (item : ℕ) (draw : BitVec 32) (s : HeapState)
    (mem : ℕ → UInt8) : heap.tryRandomGuardPage bag item draw (s.setMem mem) =
      (heap.tryRandomGuardPage bag item draw s).setMem mem := by
  by_cases fires : heap.build.belowGuardCutoff draw.toInt = true
  · simp only [tryRandomGuardPage, if_pos fires]
    exact heap.incrementBumpPointer_setMem bag item { s with position := _, guards := _ } mem
  · simp only [tryRandomGuardPage, if_neg fires]

theorem takeObject_setMem (draws : Draws) (s : HeapState) (mem : ℕ → UInt8) :
    heap.takeObject bag draws (s.setMem mem) =
      ((heap.takeObject bag draws s).1, (heap.takeObject bag draws s).2.setMem mem) := by
  cases selected : heap.selectList draws.list with
  | mk item useBump =>
    simp only [takeObject, selected, incrementBumpPointer_setMem, tryRandomGuardPage_setMem]
    by_cases reuses : (!IS_FREELIST_EMPTY (s.freelist (bag, item)) && !useBump) = true
    · exact (if_pos reuses).trans (by rw [if_pos reuses]; rfl)
    · apply (if_neg reuses).trans
      rw [if_neg reuses]
      by_cases drawn : (heap.build.randomGuard &&
          (heap.incrementBumpPointer bag item s).position (bag, item) &&& PageMask == 0) = true
      · exact (congrArg _ (if_pos drawn)).trans (by rw [if_pos drawn]; rfl)
      · exact (congrArg _ (if_neg drawn)).trans (by rw [if_neg drawn]; rfl)

/-- An allocation does the same whatever the memory holds. -/
theorem allocateSmallObject_setMem (size : size_t) (draws : Draws) (s : HeapState) (mem : ℕ → UInt8) :
    heap.allocateSmallObject threadIndex size draws (s.setMem mem) =
      ((heap.allocateSmallObject threadIndex size draws s).1,
        (heap.allocateSmallObject threadIndex size draws s).2.setMem
          (heap.allocateSmallObject threadIndex size draws (s.setMem mem)).2.mem) := by
  simp only [allocateSmallObject, takeObject_setMem]
  rfl

theorem realFreeCurrentList_setMem {item : ℕ} (mem : ℕ → UInt8)
    (ran : realFreeCurrentList bag item s = .ok t) :
    realFreeCurrentList bag item (s.setMem mem) = .ok (t.setMem mem) := by
  rw [realFreeCurrentList] at ran ⊢
  simp only [HeapState.setMem]
  split at ran
  · cases ran
  · cases ran
    rfl

/-- So does the last part of a deallocation. -/
theorem insertObject_setMem {item shadowinfo : ℕ} (mem : ℕ → UInt8)
    (ran : heap.insertObject threadIndex bag item shadowinfo s = .ok t) :
    heap.insertObject threadIndex bag item shadowinfo (s.setMem mem) = .ok (t.setMem mem) := by
  rw [insertObject] at ran ⊢
  split at ran
  · rename_i remote
    rw [if_pos remote]
    dsimp only at ran ⊢
    split at ran
    · rename_i more
      exact (if_pos more).trans (realFreeCurrentList_setMem mem ran)
    · rename_i fits
      cases ran
      exact if_neg fits
  · rename_i home
    rw [if_neg home]
    cases ran
    rfl

end BibopHeap

/-- An allocation writes the canary of the object that it returns, and nothing else. -/
theorem allocateSmallObject_mem {size : size_t} {draws : Draws} {p : ℕ}
    (thread : threadIndex < MAX_ALIVE_THREADS) (routed : c.build.IF_CANARY_CONDITION size = false)
    (ran : c.heap.allocateSmallObject threadIndex size draws s = (p, t)) :
    t.mem = if c.build.canary then
      Function.update s.mem (p + classSize (c.bagNumOf size) - 1) CANARY_SENTINEL else s.mem := by
  have same : classSizeOf c.heap.build size = classSize (c.bagNumOf size) :=
    (Config.bagNumOf_spec routed).2.1
  have number := Config.bagNumOf_lt routed
  rw [BibopHeap.allocateSmallObject] at ran
  simp only [same, Config.getBagNum_classSize] at ran
  obtain ⟨rfl, rfl⟩ := Prod.mk.inj ran
  simp only [BibopHeap.markObject, Config.heap_build, Config.heap_threadBag thread number,
    (c.heap.takeObject_frame draws s).1]
  rfl

/-- An allocation marks the entry of the object that it returns, and no other. -/
theorem allocateSmallObject_links {size : size_t} {draws : Draws} {p : ℕ}
    (ran : c.heap.allocateSmallObject threadIndex size draws s = (p, t)) :
    t.links = Function.update s.links (c.heap.getShadowObjectInfoIn p (threadIndex, c.bagNumOf size))
      ALLOC_SENTINEL := by
  obtain ⟨rfl, rfl⟩ := Prod.mk.inj ran
  change Function.update (c.heap.takeObject _ draws s).2.links _ _ = _
  rw [(c.heap.takeObject_frame draws s).2]
  rfl

/-- A deallocation leaves the memory in which the object is destroyed, and moves no bump pointer. -/
theorem freeSmallObject_destroyed (ran : c.heap.freeSmallObject threadIndex addr s = .ok t) :
    t.mem = c.heap.destroyed addr (c.heap.bagOf addr) s ∧ t.position = s.position := by
  rw [BibopHeap.freeSmallObject] at ran
  cases decoded : c.heap.getShadowObjectInfo addr with
  | error stop =>
    rw [decoded] at ran
    cases ran
  | ok entry =>
    obtain ⟨bag, item, shadowinfo⟩ := entry
    rw [decoded] at ran
    change (if BibopHeap.isObjectFree s shadowinfo then _ else _) = _ at ran
    split at ran
    · cases ran
    · rw [← (c.heap.getShadowObjectInfo_ok decoded).1]
      exact c.heap.freeMarked_frame ran

/-- A deallocation writes at most the bytes of the class of its bag short of the canary, and moves no bump
pointer. -/
theorem freeSmallObject_frame (ran : c.heap.freeSmallObject threadIndex addr s = .ok t) :
    (∀ a, ¬(addr ≤ a ∧ a < addr +
      ((c.heap._threadBag (c.heap.bagOf addr)).classSize - c.build.canaryBytes)) →
      t.mem a = s.mem a) ∧ t.position = s.position := by
  obtain ⟨mem, position⟩ := freeSmallObject_destroyed ran
  exact ⟨fun a outside => mem ▸ c.heap.destroyed_off outside, position⟩

end FreeGuard.Model
