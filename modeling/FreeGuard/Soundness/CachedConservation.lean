import FreeGuard.Proofs.Blocks
import FreeGuard.Proofs.Requeue
import FreeGuard.Soundness.InvalidFree

/-! # Cached lists lose and duplicate nothing

With cached lists an object that another thread freed first waits in the cached list of its bag. Each free
object is in exactly one place of the lists of its bag, and which objects are free is determined by the
sequence of deallocations and returned addresses, as in the build without cached lists.
-/

namespace FreeGuard.Soundness.CachedConservation

open Machine Model InvalidFree

/-- What the program sees of a call: the address that it got, or that it gave back. -/
inductive Operation where
  | allocated (addr : ℕ)
  | freed (addr : ℕ)
deriving DecidableEq, Repr

/-- The operations so far, the latest first, after an event. -/
def logged (heap : BibopHeap) (system : HeapSystem) : HeapEvent → List Operation → List Operation
  | .malloc threadIndex sz draws, ops =>
    .allocated (heap.allocateSmallObject threadIndex sz draws system.state).1 :: ops
  | .free _ addr, ops => .freed addr :: ops
  | .store _ _, ops => ops

/-- The addresses that have been freed and not returned again. -/
def freeAddrs : List Operation → Finset ℕ
  | [] => ∅
  | .allocated addr :: ops => (freeAddrs ops).erase addr
  | .freed addr :: ops => insert addr (freeAddrs ops)

/-- The entries in the lists of a bag: those of the cached list, then those of each free list. -/
def Gathers (heap : BibopHeap) (s : HeapState) (bag : BagRef) (nodes : List ℕ) : Prop :=
  ∃ cached lists, Chain s.links (s.cfreelist bag).next cached ∧
    (∀ item < heap.build.BIBOP_BAG_SET_SIZE, (s.freelist (bag, item)).Holds s.links (lists item)) ∧
    nodes = cached ++ (List.range heap.build.BIBOP_BAG_SET_SIZE).flatMap lists

/-- The entries of the free objects of a bag. -/
def freeObjects (heap : BibopHeap) (s : HeapState) (bag : BagRef) : Set ℕ :=
  {entry | ∃ nodes, Gathers heap s bag nodes ∧ entry ∈ nodes}

/-- The counter is that of the cached list and within its bound, and every free object of the bag occurs
once in the lists of the bag. -/
structure Conserves (heap : BibopHeap) (s : HeapState) (free : Finset ℕ) (bag : BagRef) : Prop where
  counted : ∃ nodes, Chain s.links (s.cfreelist bag).next nodes ∧ s.ncfree bag = nodes.length
  bounded : s.ncfree bag ≤ (heap._threadBag bag).cflthreshold
  once : ∃ nodes, Gathers heap s bag nodes ∧ ∀ addr ∈ free, heap.bagOf addr = bag →
    nodes.count (heap.getShadowObjectInfoIn addr bag) = 1

variable {c : Config} {s t : HeapSystem} {ops : List Operation} {e : HeapEvent} {es : List HeapEvent}
  {pool pool' : Pool c} {x y : Slot c} {addr : ℕ}

/-- The free addresses are those that lead to the queued slots, each through the bag of its queue. -/
structure Accounts (free : Finset ℕ) (pool : Pool c) : Prop where
  queued : ∀ addr ∈ free, ∃ bag x, c.LeadsTo addr bag x ∧ ∃ q : Queue, q.bag = bag ∧ x ∈ pool.queue q
  freed : ∀ q, ∀ x ∈ pool.queue q, ∃ addr ∈ free, c.LeadsTo addr q.bag x
  items : ∀ bag item, c.items ≤ item → pool.queue (.inl (bag, item)) = []
  bounded : ∀ bag, (pool.queue (.inr bag)).length ≤ (c.heap._threadBag bag).cflthreshold

theorem accounts_start (c : Config) : Accounts ∅ (SlotPool.fresh : Pool c) where
  queued _ member := absurd member (Finset.notMem_empty _)
  freed _ _ member := absurd member List.not_mem_nil
  items _ _ _ := rfl
  bounded _ := Nat.zero_le _

/-- An allocation takes the first slot of a list. -/
theorem Accounts.take {free : Finset ℕ} {l : Lane c} {rest : List (Slot c)} (accounts : Accounts free pool)
    (parts : pool.Partition c.slots) (head : pool.queue (.inl l.ref) = x :: rest)
    (leads : c.LeadsTo addr l.bagRef x) :
    Accounts (free.erase addr) (pool.take (.inl l.ref) x rest) := by
  have parts' := parts.take head
  have queued : x ∈ pool.queue (.inl l.ref) := head ▸ List.mem_cons_self ..
  refine ⟨?_, ?_, ?_, ?_⟩
  · intro a member
    obtain ⟨other, free⟩ := Finset.mem_erase.mp member
    obtain ⟨bag, y, leadsY, q, ofBag, queuedY⟩ := accounts.queued a free
    refine ⟨bag, y, leadsY, q, ofBag, ?_⟩
    have different : y ≠ x := by
      rintro rfl
      obtain rfl := parts.queue_disjoint _ _ _ queuedY queued
      subst ofBag
      exact other (leadsY.addr_unique leads)
    simp only [SlotPool.take]
    rcases eq_or_ne q (.inl l.ref) with rfl | elsewhere
    · rw [Function.update_self]
      exact (List.mem_cons.mp (head ▸ queuedY)).resolve_left different
    · rwa [Function.update_of_ne elsewhere]
  · intro q y member
    obtain ⟨a, free, leadsY⟩ := accounts.freed q y (SlotPool.mem_take_queue head member)
    refine ⟨a, Finset.mem_erase.mpr ⟨?_, free⟩, leadsY⟩
    rintro rfl
    obtain ⟨rfl, -⟩ := leadsY.unique leads
    exact parts'.queued_not_live q _ member (Set.mem_insert ..)
  · intro bag item past
    apply List.eq_nil_iff_forall_not_mem.mpr
    intro y member
    have none := accounts.items bag item past
    rw [List.eq_nil_iff_forall_not_mem] at none
    exact none y (SlotPool.mem_take_queue head member)
  · intro bag
    simp only [SlotPool.take]
    rw [Function.update_of_ne Sum.inr_ne_inl]
    exact accounts.bounded bag

/-- An allocation takes the next slot of a lane. -/
theorem Accounts.bump {free : Finset ℕ} {l : Lane c} {skip : ℕ} (accounts : Accounts free pool)
    (parts : pool.Partition c.slots) :
    Accounts (free.erase (l.slot (pool.cursor l)).addr)
      (pool.bump c.slots (l.slot (pool.cursor l)) skip) := by
  refine ⟨fun a member => ?_, ?_, accounts.items, accounts.bounded⟩
  · exact accounts.queued a (Finset.mem_of_mem_erase member)
  · intro q y member
    obtain ⟨a, free, leads⟩ := accounts.freed q y member
    refine ⟨a, Finset.mem_erase.mpr ⟨?_, free⟩, leads⟩
    rintro rfl
    obtain ⟨rfl, -⟩ := leads.unique (Slot.leadsTo_addr _)
    exact l.next_unreached pool (parts.queued_reached q _ member)

/-- A deallocation puts the slot of its address on a list of the bag. -/
theorem Accounts.release {free : Finset ℕ} {s : HeapState} {bag : BagRef} {threadIndex : ℕ}
    (accounts : Accounts free pool) (rep : Represents c s pool) (leads : c.LeadsTo addr bag x)
    (queue : pool'.queue = requeue c.heap s threadIndex bag (x.heap % c.items) x pool.queue) :
    Accounts (insert addr free) pool' := by
  have queued_iff (b : BagRef) (y : Slot c) : (∃ q : Queue, q.bag = b ∧ y ∈ pool'.queue q) ↔
      (∃ q : Queue, q.bag = b ∧ y ∈ pool.queue q) ∨ (y = x ∧ b = bag) := by
    rw [queue]
    exact exists_mem_requeue
  refine ⟨?_, ?_, ?_, ?_⟩
  · intro a member
    rcases Finset.mem_insert.mp member with rfl | old
    · exact ⟨bag, x, leads, (queued_iff bag x).mpr (.inr ⟨rfl, rfl⟩)⟩
    · obtain ⟨b, y, leadsY, queuedY⟩ := accounts.queued a old
      exact ⟨b, y, leadsY, (queued_iff b y).mpr (.inl queuedY)⟩
  · intro q y member
    rcases (queued_iff q.bag y).mp ⟨q, rfl, member⟩ with ⟨r, ofBag, old⟩ | ⟨rfl, ofBag⟩
    · obtain ⟨a, free, leadsY⟩ := accounts.freed r y old
      exact ⟨a, Finset.mem_insert_of_mem free, ofBag ▸ leadsY⟩
    · exact ⟨addr, Finset.mem_insert_self .., ofBag ▸ leads⟩
  · intro b item past
    have other : item ≠ x.heap % c.items := by
      have below := Nat.mod_lt x.heap c.items_pos
      omega
    have apart : (Sum.inl (b, item) : Queue) ≠ .inl (bag, x.heap % c.items) := by
      simp [other]
    rw [queue, requeue]
    split
    · split
      · rw [Function.update_of_ne apart, Function.update_of_ne Sum.inl_ne_inr]
        exact accounts.items b item past
      · rw [Function.update_of_ne Sum.inl_ne_inr]
        exact accounts.items b item past
    · rw [Function.update_of_ne apart]
      exact accounts.items b item past
  · intro b
    rw [queue, requeue]
    split
    · split
      · rw [Function.update_of_ne Sum.inr_ne_inl]
        rcases eq_or_ne b bag with rfl | same
        · simp
        · simpa [Function.update_of_ne, same] using accounts.bounded b
      · rename_i fits
        rcases eq_or_ne b bag with rfl | same
        · have count := rep.lists.ncfree b
          rw [BibopHeap.Overflows, count] at fits
          simpa using fits
        · simpa [Function.update_of_ne, same] using accounts.bounded b
    · rw [Function.update_of_ne Sum.inr_ne_inl]
      exact accounts.bounded b

theorem Accounts.step (accounts : Accounts (freeAddrs ops) pool) (rep : Represents c s.state pool)
    (step : HeapStep c.heap s e t) : ∃ pool' : Pool c, Represents c t.state pool' ∧
      Accounts (freeAddrs (logged c.heap s e ops)) pool' := by
  obtain ⟨pool', move, after⟩ := step.simulates rep
  refine ⟨pool', after, ?_⟩
  cases move with
  | @reuse threadIndex sz draws _ thread routed x rest i idle head block guards returned =>
    rw [logged, freeAddrs, step.returned_addr returned]
    exact accounts.take rep.partition head (Slot.BlockOf.leadsTo block (Config.bagNumOf_lt routed))
  | @bump threadIndex sz draws _ l thread routed lane uses guards returned =>
    rw [logged, freeAddrs, step.returned_addr returned]
    exact accounts.bump rep.partition
  | @release threadIndex addr _ x bag _ live leads released guards returned =>
    exact accounts.release rep leads (rep.queue_freed after live leads step.freed.2)
  | store guards returned => exact accounts

/-! ## The lists of a bag -/

/-- The slots in the lists of a bag. -/
def gathered (pool : Pool c) (bag : BagRef) : List (Slot c) :=
  pool.queue (.inr bag) ++ (List.range c.items).flatMap fun item => pool.queue (.inl (bag, item))

theorem Accounts.mem_gathered {free : Finset ℕ} (accounts : Accounts free pool) {bag : BagRef} :
    x ∈ gathered pool bag ↔ ∃ q : Queue, q.bag = bag ∧ x ∈ pool.queue q := by
  rw [gathered, List.mem_append, List.mem_flatMap]
  constructor
  · rintro (cached | ⟨item, -, queued⟩)
    · exact ⟨.inr bag, rfl, cached⟩
    · exact ⟨.inl (bag, item), rfl, queued⟩
  · rintro ⟨q, rfl, queued⟩
    cases q with
    | inr bag => exact .inl queued
    | inl item =>
      refine .inr ⟨item.2, List.mem_range.mpr ?_, queued⟩
      by_contra past
      have none := accounts.items item.1 item.2 (Nat.not_lt.mp past)
      rw [show pool.queue (.inl item) = [] from none] at queued
      exact absurd queued List.not_mem_nil

theorem gathered_nodup (parts : pool.Partition c.slots) (bag : BagRef) : (gathered pool bag).Nodup := by
  apply List.nodup_append.mpr
  refine ⟨parts.queue_nodup _, List.nodup_flatMap.mpr ⟨fun _ _ => parts.queue_nodup _, ?_⟩, ?_⟩
  · apply List.nodup_range.imp
    intro i j different x inI inJ
    exact different (Prod.mk.inj (Sum.inl.inj (parts.queue_disjoint _ _ x inI inJ))).2
  · rintro x cached y listed rfl
    obtain ⟨item, -, queued⟩ := List.mem_flatMap.mp listed
    cases parts.queue_disjoint _ _ x cached queued

/-- The lists of a bag hold the entries of its gathered slots. -/
theorem gathers_iff {state : HeapState} (rep : Represents c state pool) {bag : BagRef} {nodes : List ℕ} :
    Gathers c.heap state bag nodes ↔ nodes = (gathered pool bag).map Slot.entry := by
  have flat (lists : ℕ → List ℕ)
      (holds : ∀ item < c.items, lists item = (pool.queue (.inl (bag, item))).map Slot.entry) :
      (List.range c.items).flatMap lists =
        ((List.range c.items).flatMap fun item => pool.queue (.inl (bag, item))).map Slot.entry := by
    rw [List.map_flatMap]
    exact List.flatMap_congr fun item member => holds item (List.mem_range.mp member)
  rw [gathered, List.map_append]
  constructor
  · rintro ⟨cached, lists, chain, holds, rfl⟩
    rw [chain.unique (rep.lists.cached bag)]
    exact congrArg _ (flat lists fun item below => (holds item below).unique (rep.lists.freelist _))
  · rintro rfl
    refine ⟨_, fun item => (pool.queue (.inl (bag, item))).map Slot.entry, rep.lists.cached bag,
      fun item _ => rep.lists.freelist _, ?_⟩
    exact congrArg _ (flat _ fun _ _ => rfl).symm

/-- The free objects of a bag are those of the free addresses. -/
theorem Accounts.mem_freeObjects {free : Finset ℕ} {state : HeapState} (accounts : Accounts free pool)
    (rep : Represents c state pool) {bag : BagRef} {entry : ℕ} :
    entry ∈ freeObjects c.heap state bag ↔
      ∃ addr ∈ free, ∃ item, c.heap.getShadowObjectInfo addr = .ok (bag, item, entry) := by
  simp only [freeObjects, Set.mem_ofPred_eq, gathers_iff rep, exists_eq_left, List.mem_map,
    accounts.mem_gathered]
  constructor
  · rintro ⟨x, ⟨q, rfl, queued⟩, rfl⟩
    obtain ⟨addr, member, leads⟩ := accounts.freed q x queued
    exact ⟨addr, member, _, leads.decode⟩
  · rintro ⟨addr, member, item, decoded⟩
    obtain ⟨b, x, leads, queued⟩ := accounts.queued addr member
    obtain ⟨rfl, both⟩ := Prod.mk.inj (Except.ok.inj (leads.decode.symm.trans decoded))
    exact ⟨x, queued, (Prod.mk.inj both).2⟩

theorem Accounts.conserves {free : Finset ℕ} {state : HeapState} (accounts : Accounts free pool)
    (rep : Represents c state pool) (bag : BagRef) : Conserves c.heap state free bag := by
  refine ⟨⟨_, rep.lists.cached bag, ?_⟩, ?_, _, (gathers_iff rep).mpr rfl, ?_⟩
  · rw [rep.lists.ncfree, List.length_map]
  · rw [rep.lists.ncfree]
    exact accounts.bounded bag
  · rintro addr member rfl
    have nodup : ((gathered pool (c.heap.bagOf addr)).map Slot.entry).Nodup :=
      Slot.map_entry_nodup (gathered_nodup rep.partition _)
    apply List.count_eq_one_of_mem nodup
    obtain ⟨b, x, leads, queued⟩ := accounts.queued addr member
    obtain ⟨rfl, entry⟩ := c.heap.getShadowObjectInfo_ok leads.decode
    rw [← entry, Slot.entry_mem_iff]
    exact accounts.mem_gathered.mpr queued

/-! ## The plain build -/

/-- The build without cached lists. -/
def plain (c : Config) : Config :=
  { c with
    build := { c.build with cfreelist := false }
    large := c.large
    bagSet := c.bagSet }

theorem plain_objectsBefore (b : ℕ) : (plain c).objectsBefore b = c.objectsBefore b := by
  induction b with
  | zero => rfl
  | succ b ih => exact congrArg (· + c.numObjects b) ih

/-- The shadow entry of a place is that of the plain build. -/
theorem plain_entryAt (h t b off : ℕ) :
    (plain c).entryAt h ((plain c).rankAt t b off) = c.entryAt h (c.rankAt t b off) := by
  simp only [Config.entryAt, Config.rankAt, Config.ceilPower, Config.objectsPerThread,
    plain_objectsBefore]
  rfl

/-- The decoder is that of the plain build. -/
theorem plain_decode (inside : c.heapBegin ≤ addr) :
    (plain c).heap.getShadowObjectInfo addr = c.heap.getShadowObjectInfo addr := by
  obtain ⟨h, t, b, off, thread, number, small, rfl⟩ := c.exists_place inside
  apply (Config.getShadowObjectInfo_at (c := plain c) thread number small).trans
  rw [Config.getShadowObjectInfo_at thread number small, plain_entryAt]
  rfl

theorem Accounts.heapBegin_le {free : Finset ℕ} (accounts : Accounts free pool) (member : addr ∈ free) :
    c.heapBegin ≤ addr := by
  obtain ⟨b, x, leads, -⟩ := accounts.queued addr member
  obtain ⟨off, -, rfl, -⟩ := leads.place
  rw [Config.bagBegin]
  omega

theorem exists_accounts
    (run : Run (Recorded (logged c.heap) (HeapStep c.heap)) (c.system, []) es (s, ops)) :
    ∃ pool : Pool c, Represents c s.state pool ∧ Accounts (freeAddrs ops) pool :=
  run.invariant (fun r => ∃ pool : Pool c, Represents c r.1.state pool ∧ Accounts (freeAddrs r.2) pool)
    (fun _ _ _ ⟨_, rep, accounts⟩ ⟨step, same⟩ => same ▸ accounts.step rep step)
    ⟨_, represents_start c, accounts_start c⟩

/-- The default build without canaries and with cached lists. -/
def cachedConfig : Config :=
  { plainConfig with
    build := { plainConfig.build with cfreelist := true }
    large := by decide
    bagSet := by decide }

end FreeGuard.Soundness.CachedConservation
