import FreeGuard.Proofs.Contents
import FreeGuard.Proofs.SmallRun

/-! # The exact queues after a deallocation

The heads and the links of the lists determine what is queued. A deallocation puts the entry of its slot
on the list of an item, or in front of the cached list of a bag; a cached list that has grown past its
threshold is merged into the list of the item.
-/

namespace FreeGuard.Model

open Machine

variable {c : Config} {s t : HeapState} {pool pool' : Pool c} {x y : Slot c} {bag : BagRef}
  {threadIndex addr item : ℕ} {queue queue' : Queue → List (Slot c)}

/-- The lists of a state hold one family of queues. -/
theorem Lists.unique (lists : Lists c s queue) (also : Lists c s queue') : queue = queue' := by
  have injective : Function.Injective (List.map (Slot.entry : Slot c → ℕ)) :=
    List.map_injective_iff.mpr fun _ _ => Slot.entry_inj
  funext q
  cases q with
  | inl item => exact injective ((lists.freelist item).unique (also.freelist item))
  | inr bag => exact injective ((lists.cached bag).unique (also.cached bag))

/-- The object goes to the cached list of its bag: the deallocation is that of another thread. -/
def BibopHeap.Caches (heap : BibopHeap) (threadIndex : ℕ) (bag : BagRef) : Prop :=
  (heap.build.cfreelist && (heap._threadBag bag).threadIndex != threadIndex) = true

instance (heap : BibopHeap) (threadIndex : ℕ) (bag : BagRef) : Decidable (heap.Caches threadIndex bag) :=
  inferInstanceAs (Decidable (_ = true))

/-- One more entry takes the cached list of a bag past its threshold. -/
def BibopHeap.Overflows (heap : BibopHeap) (bag : BagRef) (s : HeapState) : Prop :=
  (heap._threadBag bag).cflthreshold < s.ncfree bag + 1

instance (heap : BibopHeap) (bag : BagRef) (s : HeapState) : Decidable (heap.Overflows bag s) :=
  inferInstanceAs (Decidable (_ < _))

/-- The queues after a deallocation of a slot through a bag and an item. -/
def requeue (heap : BibopHeap) (s : HeapState) (threadIndex : ℕ) (bag : BagRef) (item : ℕ) (x : Slot c)
    (queue : Queue → List (Slot c)) : Queue → List (Slot c) :=
  if heap.Caches threadIndex bag then
    if heap.Overflows bag s then
      Function.update (Function.update queue (.inr bag) []) (.inl (bag, item))
        ((s.freelist (bag, item)).merged (x :: queue (.inr bag)) (queue (.inl (bag, item))))
    else Function.update queue (.inr bag) (x :: queue (.inr bag))
  else Function.update queue (.inl (bag, item))
    ((s.freelist (bag, item)).inserted x (queue (.inl (bag, item))))

/-- Releasing adds the slot to the lists of the queue's bag. -/
theorem exists_mem_release {q : Queue} {xs : List (Slot c)} (perm : xs.Perm (x :: pool.queue q))
    {b : BagRef} : (∃ r : Queue, r.bag = b ∧ y ∈ (pool.release x q xs).queue r) ↔
      (∃ r : Queue, r.bag = b ∧ y ∈ pool.queue r) ∨ (y = x ∧ b = q.bag) := by
  simp only [SlotPool.mem_release_queue perm]
  constructor
  · rintro ⟨r, rfl, old | ⟨rfl, rfl⟩⟩
    · exact .inl ⟨r, rfl, old⟩
    · exact .inr ⟨rfl, rfl⟩
  · rintro (⟨r, rfl, old⟩ | ⟨rfl, rfl⟩)
    · exact ⟨r, rfl, .inl old⟩
    · exact ⟨q, rfl, .inr ⟨rfl, rfl⟩⟩

/-- Merging two lists of one bag leaves the slots in the lists of the bag. -/
theorem exists_mem_merge {q r : Queue} {xs : List (Slot c)} (distinct : q ≠ r) (same : q.bag = r.bag)
    (perm : xs.Perm (pool.queue q ++ pool.queue r)) {b : BagRef} :
    (∃ k : Queue, k.bag = b ∧ y ∈ (pool.merge q r xs).queue k) ↔
      ∃ k : Queue, k.bag = b ∧ y ∈ pool.queue k := by
  simp only [SlotPool.mem_merge_queue distinct perm]
  constructor
  · rintro ⟨k, rfl, ⟨-, old⟩ | ⟨rfl, old⟩⟩
    · exact ⟨k, rfl, old⟩
    · exact ⟨q, same, old⟩
  · rintro ⟨k, rfl, old⟩
    rcases eq_or_ne k q with rfl | other
    · exact ⟨r, same.symm, .inr ⟨rfl, old⟩⟩
    · exact ⟨k, rfl, .inl ⟨other, old⟩⟩

/-- A deallocation adds its slot to the lists of the bag, and moves slots within the bag only. -/
theorem exists_mem_requeue {heap : BibopHeap} {b : BagRef} :
    (∃ q : Queue, q.bag = b ∧ y ∈ requeue heap s threadIndex bag item x pool.queue q) ↔
      (∃ q : Queue, q.bag = b ∧ y ∈ pool.queue q) ∨ (y = x ∧ b = bag) := by
  rw [requeue]
  split
  · split
    · -- the slot joins the cached list, which is then merged into the list of the item
      let cached : Pool c := pool.release x (.inr bag) (x :: pool.queue (.inr bag))
      have perm : (FreeList.merged (x :: pool.queue (.inr bag)) (pool.queue (.inl (bag, item)))
          (s.freelist (bag, item))).Perm
            (cached.queue (.inr bag) ++ cached.queue (.inl (bag, item))) := by
        simpa only [cached, SlotPool.release, Function.update_self, ne_eq, reduceCtorEq, not_false_eq_true,
          Function.update_of_ne] using FreeList.merged_perm ..
      have merged := exists_mem_merge (q := .inr bag) (r := .inl (bag, item)) (y := y) (b := b)
        Sum.inr_ne_inl rfl perm
      have released : (∃ q : Queue, q.bag = b ∧ y ∈ cached.queue q) ↔ _ := exists_mem_release (.refl _)
      simp only [SlotPool.merge, cached, SlotPool.release, Function.update_idem] at merged
      exact merged.trans released
    · exact exists_mem_release (q := .inr bag) (.refl _)
  · exact exists_mem_release (q := .inl (bag, item)) (FreeList.inserted_perm ..)

/-- The queues after the last part of `freeSmallObject`. -/
theorem Represents.requeued (rep : Represents c s pool) (live : x ∈ pool.live)
    (ran : c.heap.insertObject threadIndex bag item x.entry s = .ok t) :
    Lists c t (requeue c.heap s threadIndex bag item x pool.queue) := by
  have parts := rep.partition
  have unqueued (q : Queue) : x ∉ pool.queue q := fun queued => parts.queued_not_live q x queued live
  rw [requeue]
  change (if c.heap.Caches threadIndex bag then _ else _) = _ at ran
  split at ran
  · rename_i remote
    rw [if_pos remote]
    have cached := rep.lists.insertCached unqueued bag
    have parts' := parts.release live (q := .inr bag) (.refl _)
    have more : (BibopHeap.insertCached bag x.entry s).ncfree bag = s.ncfree bag + 1 := by
      simp only [BibopHeap.insertCached, Function.update_self]
    dsimp only at ran
    rw [more] at ran
    change (if c.heap.Overflows bag s then _ else _) = _ at ran
    split at ran
    · rename_i overflows
      rw [if_pos overflows]
      obtain ⟨t', ran', lists, -⟩ := cached.merge parts'.queue_nodup parts'.queue_disjoint
        (by rw [Function.update_self]; exact List.cons_ne_nil _ _) item
      obtain rfl := Except.ok.inj (ran'.symm.trans ran)
      simpa [BibopHeap.insertCached] using lists
    · rename_i fits
      rw [if_neg fits]
      cases ran
      exact cached
  · rename_i home
    rw [if_neg home]
    cases ran
    exact rep.lists.insert parts.queue_nodup parts.queue_disjoint unqueued (bag, item)

/-- The queues after a deallocation: those of the slot that its address leads to. -/
theorem Represents.queue_freed (rep : Represents c s pool) (after : Represents c t pool')
    (live : x ∈ pool.live) (leads : c.LeadsTo addr bag x)
    (ok : c.heap.freeSmallObject threadIndex addr s = .ok t) :
    pool'.queue = requeue c.heap s threadIndex bag (x.heap % c.items) x pool.queue := by
  rw [rep.free_of_live leads live] at ok
  exact after.lists.unique
    ((rep.setMem (c.heap.destroyed addr bag s)).requeued live (BibopHeap.freeMarked_ok ok))

end FreeGuard.Model
