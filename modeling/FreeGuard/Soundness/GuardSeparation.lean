import FreeGuard.Proofs.Blocks
import FreeGuard.Proofs.Guards
import FreeGuard.Soundness.CanaryCheck

/-! # Guard separation

The objects of a bag end where its guard starts, and the guard ends where the next usable bag starts, in
every heap that a bump pointer has reached. Random guards take whole slots out of the lane. An object is
therefore in a guard only if it is not where a slot is: after a deallocation through an address in a
guard, the list of that bag yields this address.
-/

namespace FreeGuard.Soundness.GuardSeparation

open Machine Model

variable {c : Config} {s t : HeapSystem} {e : HeapEvent} {es : List HeapEvent} {pool pool' : Pool c}

/-- No byte of an object is in a guard. -/
def Accessible (s : HeapState) (addr size : ℕ) : Prop :=
  ∀ a, addr ≤ a → a < addr + size → ∀ g ∈ s.guards, ¬g.Covers a

/-- Every byte between two addresses is in a guard. -/
def Protected (s : HeapState) (first last : ℕ) : Prop :=
  ∀ a, first ≤ a → a < last → ∃ g ∈ s.guards, g.Covers a

/-- An object that an allocation has returned and whose shadow entry is marked. -/
def LiveObject (c : Config) (s : HeapSystem) (issue : Issue) : Prop :=
  issue ∈ s.returned ∧ ∃ bag item entry,
    c.heap.getShadowObjectInfo issue.addr = .ok (bag, item, entry) ∧
      s.state.links entry = ALLOC_SENTINEL

/-- The end of the last slot of a bag. -/
def slotsEnd (c : Config) (h t b : ℕ) : ℕ := c.bagBegin h t b + c.numObjects b * classSize b

/-- The first byte of the next usable bag, which is in the next sub-heap for the last one. -/
def nextUsable (c : Config) (h t b : ℕ) : ℕ :=
  if b + 1 < c.usable then c.bagBegin h t (b + 1) else c.bagBegin h (t + 1) 0

/-- The heap is one where a bump pointer of the bag starts, or one that it has reached. -/
def Entered (c : Config) (s : HeapState) (h t b : ℕ) : Prop :=
  h < c.items ∨ c.bagBegin h t b ≤ s.position ((t, b), h % c.items)

/-- The objects and the guards are apart, and no seam is left between the bags. -/
structure Separated (c : Config) (s : HeapSystem) : Prop where
  live : ∀ issue, LiveObject c s issue → Accessible s.state issue.addr issue.classSize
  queued : ∀ (bag : BagRef) (entry : ℕ), bag.2 < c.usable → Waits s.state bag entry →
    Accessible s.state (c.heap.getAddrFromShadowInfo entry bag) (classSize bag.2)
  seamless : ∀ h t b, t < MAX_ALIVE_THREADS → b < c.usable → Entered c s.state h t b →
    Protected s.state (slotsEnd c h t b) (nextUsable c h t b)
  page : ∀ h t b, t < MAX_ALIVE_THREADS → b < c.usable →
    slotsEnd c h t b + PageSize ≤ nextUsable c h t b
  /-- `mprotect` works on whole pages. -/
  whole : ∀ g ∈ s.state.guards, PageSize ∣ g.addr ∧ PageSize ∣ g.size

/-- A deallocation in a usable bag is of an address where a slot starts. -/
def FreesObject (c : Config) (_ : HeapSystem) : HeapEvent → Prop
  | .free _ addr => (c.heap.bagOf addr).2 < c.usable → ∃ x : Slot c, x.addr = addr
  | _ => True

/-! ## Between the bags -/

/-- The guard at the end of a bag fills the room up to the next usable bag. -/
theorem endGuard_fills {b : ℕ} (h th : ℕ) (guarded : c.build.guardPage = true) (usable : b < c.usable) :
    (c.endGuard h th b).addr = slotsEnd c h th b ∧
      slotsEnd c h th b + c.guardsize b = nextUsable c h th b := by
  have fill := Config.objects_add_guard usable
  have start : (c.endGuard h th b).addr = slotsEnd c h th b := by
    change c.bagBegin h th b + c.bagSize - c.guardoffset b = _ + _
    omega
  refine ⟨start, ?_⟩
  rw [nextUsable, slotsEnd, Config.guardsize, if_pos guarded]
  rcases Nat.lt_or_ge (b + 1) c.usable with before | last
  · rw [if_neg (by omega), if_pos before, Config.bagBegin_add_bags, Nat.one_mul]
    omega
  · have atEnd : b + 1 = c.usable := by omega
    have bags := c.usable_le_numBags
    have rest : c.bagBegin h (th + 1) 0 = c.bagBegin h th b + c.bagSize +
        (c.numBags - c.usable) * c.bagSize := by
      have whole : (b + 1) * c.bagSize + (c.numBags - c.usable) * c.bagSize = c.threadSize := by
        rw [atEnd, ← Nat.add_mul, Nat.add_sub_cancel' bags, Config.threadSize]
      rw [Nat.succ_mul] at whole
      rw [Config.bagBegin, Config.bagBegin, Config.startOffset, Config.startOffset, Nat.zero_mul,
        Nat.succ_mul]
      omega
    rw [if_pos atEnd, if_neg (by omega), rest]
    omega

/-- The guard at the end of a bag has at least a page. -/
theorem page_le_guardsize {b : ℕ} (many : c.build.manyBags = true) (guarded : c.build.guardPage = true)
    (usable : b < c.usable) : PageSize ≤ c.guardsize b := by
  have power := c.usable_le_bagPower
  have offset := c.page_dvd_guardoffset b
  rw [Config.guardsize, if_pos guarded]
  rcases Nat.lt_or_ge (b + 4) c.bagPower with room | full
  · have some : 0 < c.guardoffset b := by
      rw [Config.guardoffset, Config.reserved, if_pos ⟨guarded, room⟩]
      exact Nat.mul_pos (Nat.two_pow_pos _) (classSize_pos b)
    have least := Nat.le_of_dvd some offset
    split <;> omega
  · -- the last bag of the smallest size has no room, but unusable bags follow it
    have spare : 1 ≤ c.numBags - c.usable := by
      rw [Config.numBags_eq, Config.usable, many]
      decide
    have bags := Nat.mul_le_mul_right c.bagSize spare
    have page := Nat.le_of_dvd c.bagSize_pos c.page_dvd_bagSize
    rw [if_pos (by omega)]
    omega

theorem seamless (rep : Represents c s.state pool) (guards : Guarding c s.state)
    (many : c.build.manyBags = true) (guarded : c.build.guardPage = true) {h th b : ℕ}
    (thread : th < MAX_ALIVE_THREADS) (usable : b < c.usable) (entered : Entered c s.state h th b) :
    Protected s.state (slotsEnd c h th b) (nextUsable c h th b) := by
  have item : h % c.items < c.items := Nat.mod_lt _ c.items_pos
  generalize lane : (⟨th, b, h % c.items, thread, usable, item⟩ : Lane c) = l
  generalize place : h / c.items * c.numObjects b = n
  have objects := c.numObjects_pos b
  have bag : l.bag = b := lane ▸ rfl
  have heap : l.heapAt n = h := by
    rw [← lane, Lane.heapAt, ← place, Nat.mul_div_cancel _ objects, Nat.div_add_mod']
  have start : n % c.numObjects l.bag = 0 := by
    rw [bag, ← place, Nat.mul_mod_left]
  have addr : (l.slot n).addr = c.bagBegin h th b := by
    change c.bagBegin (l.heapAt n) l.thread l.bag + n % c.numObjects l.bag * _ = _
    rw [start, Nat.zero_mul, Nat.add_zero, heap, ← lane]
  have reached : (l.slot n).addr ≤ s.state.position l.ref := by
    rcases entered with initial | reached
    · have zero : n = 0 := by rw [← place, Nat.div_eq_of_lt initial, Nat.zero_mul]
      exact rep.place_le_iff.mpr (zero ▸ Nat.zero_le _)
    · rw [addr, ← lane]
      exact reached
  have large := page_le_guardsize many guarded usable
  have page : 0 < PageSize := by decide
  have member := guards.ends guarded l n reached start (by rw [bag]; omega)
  obtain ⟨first, last⟩ := endGuard_fills h th guarded usable
  rw [heap, bag, ← lane] at member
  intro a lower upper
  refine ⟨_, member, first ▸ lower, ?_⟩
  rw [first]
  exact last.symm ▸ upper

/-! ## Runs -/

/-- What a run of such deallocations keeps: lists of usable bags hold slots of their own, and what has
been returned are slots. -/
structure Placed (s : HeapSystem) (pool : Pool c) : Prop where
  own : ∀ q : Queue, q.bag.2 < c.usable → ∀ x ∈ pool.queue q, q.bag = x.bagRef
  issued : ∀ issue ∈ s.returned, ∃ x : Slot c, x.addr = issue.addr ∧ classSize x.bag = issue.classSize

theorem placed_start (c : Config) : Placed c.system (SlotPool.fresh : Pool c) :=
  ⟨fun _ _ _ member => absurd member List.not_mem_nil, fun _ member => absurd member List.not_mem_nil⟩

theorem Placed.step (placed : Placed s pool) (frees : FreesObject c s e)
    (step : PoolStep c s pool e t pool') : Placed t pool' := by
  cases step with
  | @reuse threadIndex sz draws _ thread routed x rest i idle head block guards returned =>
    have queued : x ∈ pool.queue (.inl (c.laneOf thread routed draws).ref) :=
      head ▸ List.mem_cons_self ..
    have bag : (threadIndex, c.bagNumOf sz) = x.bagRef :=
      placed.own (.inl (c.laneOf thread routed draws).ref) (c.bagNumOf_lt routed) x queued
    refine ⟨fun q usable y member => placed.own q usable y (SlotPool.mem_take_queue head member), ?_⟩
    rw [bag] at block
    obtain ⟨first, second⟩ := Prod.mk.inj bag
    have place : x.addr = c.bagBegin x.heap threadIndex (c.bagNumOf sz) +
        i * classSize (c.bagNumOf sz) := by
      rw [← Slot.addr_of_block block, first, second]
    rw [returned]
    exact List.forall_mem_cons.mpr ⟨⟨x, place, by rw [second]⟩, placed.issued⟩
  | bump _ _ _ _ _ returned =>
    refine ⟨placed.own, ?_⟩
    rw [returned]
    exact List.forall_mem_cons.mpr ⟨⟨_, rfl, rfl⟩, placed.issued⟩
  | @release threadIndex addr _ x bag _ live leads released guards returned =>
    refine ⟨fun q usable y member => ?_, returned ▸ placed.issued⟩
    rcases released.queued q y member with ⟨rfl, ofBag⟩ | ⟨r, ofBag, old⟩
    · obtain ⟨off, small, place, -, -⟩ := leads.place
      have found : c.heap.bagOf addr = bag := by
        rw [place]
        exact Config.bagOf_at leads.thread leads.number small
      obtain ⟨z, rfl⟩ := frees (by rw [found, ← ofBag]; exact usable)
      obtain ⟨rfl, rfl⟩ := leads.unique z.leadsTo_addr
      exact ofBag
    · exact ofBag ▸ placed.own r (ofBag ▸ usable) y old
  | store guards returned => exact ⟨placed.own, returned ▸ placed.issued⟩

theorem exists_placed (run : Run (Guarded (FreesObject c) (HeapStep c.heap)) c.system es t) :
    ∃ pool : Pool c, Represents c t.state pool ∧ Guarding c t.state ∧ Placed t pool := by
  apply run.invariant
    (fun s => ∃ pool : Pool c, Represents c s.state pool ∧ Guarding c s.state ∧ Placed s pool)
  · rintro a e b ⟨pool, rep, guards, placed⟩ ⟨frees, step⟩
    obtain ⟨pool', move, rep'⟩ := step.simulates rep
    exact ⟨pool', rep', guards.step rep rep' step move, placed.step frees move⟩
  · exact ⟨_, represents_start c, guarding_start c, placed_start c⟩

/-! ## Through a guard -/

/-- The walk over the neighbors passes when every marked entry has a canary where the bag puts it. -/
theorem checkNeighbors_ok {state : HeapState} {bag : BagRef} {addr count entry : ℕ}
    {move : Direction}
    (intact : ∀ a, state.links a = ALLOC_SENTINEL →
      state.mem (c.heap.getAddrFromShadowInfo a bag + (c.heap._threadBag bag).classSize - 1) =
        CANARY_SENTINEL) :
    c.heap.checkNeighbors state addr bag move count entry = .ok () := by
  induction count generalizing entry with
  | zero => rfl
  | succ count ih =>
    rw [BibopHeap.checkNeighbors]
    split
    · rfl
    · rename_i next _
      have passes : (!BibopHeap.isObjectFree state next &&
          state.mem (c.heap.getAddrFromShadowInfo next bag +
            (c.heap._threadBag bag).classSize - 1) != CANARY_SENTINEL) = false := by
        cases free : BibopHeap.isObjectFree state next with
        | true => rfl
        | false =>
          have mark : state.links next = ALLOC_SENTINEL := by
            simpa [BibopHeap.isObjectFree] using free
          simp [intact next mark]
      dsimp only
      rw [passes]
      exact ih

/-- The check passes at an address that leads to the only live slot, when a canary is there. -/
theorem checkCanaries_alone {state : HeapState} {bag : BagRef} {addr : ℕ} {x : Slot c}
    (rep : Represents c state pool) (only : pool.live = {x}) (leads : c.LeadsTo addr bag x)
    (usable : bag.2 < c.usable)
    (canary : state.mem (addr + classSize bag.2 - 1) = CANARY_SENTINEL) :
    c.heap.checkCanaries state addr bag x.entry = .ok () := by
  have size : (c.heap._threadBag bag).classSize = classSize bag.2 :=
    congrArg PerThreadBag.classSize (Config.heap_threadBag leads.thread usable)
  have intact (a : ℕ) (mark : state.links a = ALLOC_SENTINEL) :
      state.mem (c.heap.getAddrFromShadowInfo a bag + (c.heap._threadBag bag).classSize - 1) =
        CANARY_SENTINEL := by
    obtain ⟨y, member, rfl⟩ := (rep.marked a).mp mark
    rw [only] at member
    obtain rfl : y = x := member
    rw [leads.encode usable, size]
    exact canary
  rw [BibopHeap.checkCanaries, size]
  simp only [canary, bne_self_eq_false, Bool.false_eq_true, if_false, checkNeighbors_ok intact]
  rfl

/-- The cursors are read from the bump pointers. -/
theorem cursor_eq {state next : HeapState} (rep : Represents c state pool)
    (rep' : Represents c next pool') (same : next.position = state.position) :
    pool'.cursor = pool.cursor := by
  funext l
  apply l.addr_strictMono.injective
  exact (rep'.lanes l).position.symm.trans (same ▸ (rep.lanes l).position)

/-- When one slot is live, the program stores a canary where a block ends that leads to it, and frees
that block, the entry of the slot waits in a list of the bag of the block. -/
theorem free_alone {threadIndex addr : ℕ} {bag : BagRef} {x : Slot c}
    (thread : threadIndex < MAX_ALIVE_THREADS) (rep : Represents c s.state pool)
    (only : pool.live = {x}) (leads : c.LeadsTo addr bag x) (usable : bag.2 < c.usable) :
    ∃ t, Run (HeapStep c.heap) s
        [.store (addr + classSize bag.2 - 1) CANARY_SENTINEL, .free threadIndex addr] t ∧
      ∃ pool' : Pool c, Represents c t.state pool' ∧ Waits t.state bag x.entry ∧
        pool'.cursor = pool.cursor := by
  have store : HeapStep c.heap s (.store (addr + classSize bag.2 - 1) CANARY_SENTINEL) _ := .store s
  generalize stored : (HeapSystem.mk _ _) = t at store
  have rep₁ : Represents c t.state pool := by
    subst stored
    exact rep.congr rfl rfl rfl rfl rfl rfl rfl
  have written : t.state.mem (addr + classSize bag.2 - 1) = CANARY_SENTINEL := by
    subst stored
    exact Function.update_self ..
  have live : x ∈ pool.live := only ▸ Set.mem_singleton x
  obtain ⟨next, freed⟩ : ∃ next, c.heap.freeSmallObject threadIndex addr t.state = .ok next := by
    rw [rep₁.free_of_live leads live]
    exact rep₁.freeMarked_checked leads live fun _ =>
      checkCanaries_alone rep₁ only leads usable written
  have above : c.heapBegin ≤ addr := by
    obtain ⟨off, -, place, -⟩ := leads.place
    rw [place, Config.bagBegin]
    omega
  obtain ⟨guards, y, -, bag', leads', pool', rep', released⟩ := rep₁.freeSmallObject above freed
  obtain ⟨rfl, rfl⟩ := leads'.unique leads
  have position := (freeSmallObject_frame freed).2
  have free : HeapStep c.heap t (.free threadIndex addr) _ := .free t thread above freed
  exact ⟨_, .cons store (.single free), pool', rep',
    rep₁.waits_of_released rep' live released position guards, cursor_eq rep₁ rep' position⟩

/-- The bump pointer of thread 0 for the largest class, and the one for the class before it. -/
def largest : Lane Config.makefile := ⟨0, 18, 0, by decide, by decide, by decide⟩

def beforeLargest : Lane Config.makefile := ⟨0, 17, 0, by decide, by decide, by decide⟩

/-- An allocation of the largest class, by thread 0 from the first bump pointer. -/
def mallocLargest : HeapEvent := .malloc 0 0x3fffff ⟨0, 0x7fffffff⟩

/-- An address in the guard that the class before the largest gets in heap 4. -/
def guardAddr : ℕ := Config.makefile.bagBegin 4 0 17 + 0x200000

theorem laneOf_largest (thread : 0 < MAX_ALIVE_THREADS)
    (routed : Config.makefile.build.IF_CANARY_CONDITION 0x3fffff = false) :
    Config.makefile.laneOf thread routed ⟨0, 0x7fffffff⟩ = largest := by
  have number : Config.makefile.bagNumOf 0x3fffff = 18 := Config.bagNumOf_eq (by decide +kernel)
  exact Lane.ext rfl number rfl

theorem laneOf_beforeLargest (thread : 0 < MAX_ALIVE_THREADS)
    (routed : Config.makefile.build.IF_CANARY_CONDITION 0x1fffff = false) :
    Config.makefile.laneOf thread routed ⟨0, 0x7fffffff⟩ = beforeLargest := by
  have number : Config.makefile.bagNumOf 0x1fffff = 17 := Config.bagNumOf_eq (by decide +kernel)
  exact Lane.ext rfl number rfl

/-- After two allocations of the largest class and a deallocation of the first, the second object is the
only live one. -/
theorem second_alone : ∃ (s : HeapSystem) (pool : Pool Config.makefile),
    Run (HeapStep Config.makefile.heap) Config.makefile.system
      [mallocLargest, mallocLargest, .free 0 (largest.slot 0).addr] s ∧
    Represents Config.makefile s.state pool ∧ pool.live = {largest.slot 1} ∧
    ∀ l, pool.cursor l = if l = largest then 2 else 0 := by
  have thread : 0 < MAX_ALIVE_THREADS := by decide
  have routed : Config.makefile.build.IF_CANARY_CONDITION 0x3fffff = false := by decide
  have lane := laneOf_largest thread routed
  have start : Represents Config.makefile Config.makefile.system.state SlotPool.fresh :=
    represents_start Config.makefile
  obtain ⟨s₁, step₁, rep₁, -⟩ := bump_unguarded (.inl rfl) (by decide) thread routed lane start
  obtain ⟨s₂, step₂, rep₂, -⟩ := bump_unguarded (.inl rfl) (by decide) thread routed lane rep₁
  generalize bumped : SlotPool.bump Config.makefile.slots _ (largest.slot _) 0 = pool₂ at rep₂
  have live : pool₂.live = {largest.slot 1, largest.slot 0} := by
    rw [← bumped, cursor_bump, if_pos rfl]
    simp only [SlotPool.bump, SlotPool.fresh, insert_empty_eq]
  have cursor (l : Lane Config.makefile) : pool₂.cursor l = if l = largest then 2 else 0 := by
    rw [← bumped, cursor_bump, cursor_bump, cursor_bump, if_pos rfl]
    split <;> rfl
  have first : largest.slot 0 ∈ pool₂.live := live ▸ .inr rfl
  have run₂ : Run (HeapStep Config.makefile.heap) Config.makefile.system
      [mallocLargest, mallocLargest] s₂ := .cons step₁ (.single step₂)
  -- nothing is broken, as the program has stored nothing
  obtain ⟨sealed, rep, kept⟩ := CanaryCheck.exists_sealed rfl (run₂.guard (by
    intro e member _
    rcases List.mem_cons.mp member with rfl | member
    · trivial
    · rw [List.mem_singleton.mp member]
      trivial))
  obtain ⟨s₃, ok⟩ : ∃ s₃, Config.makefile.heap.freeSmallObject 0 (largest.slot 0).addr s₂.state =
      .ok s₃ := rep₂.free_intact first fun _ y _ broken =>
    broken.2 (kept.intact y (.inl (rep.live_iff.mpr broken.1)))
  obtain ⟨-, pool₃, rep₃, released⟩ := rep₂.free_slot ok
  have step₃ : HeapStep Config.makefile.heap s₂ (.free 0 (largest.slot 0).addr) _ :=
    .free s₂ thread (largest.slot 0).heapBegin_le ok
  refine ⟨_, pool₃, run₂.append (.single step₃), rep₃, ?_, ?_⟩
  · rw [released.live, live]
    apply Set.ext
    intro x
    have apart : largest.slot 1 ≠ largest.slot 0 := fun same =>
      absurd (congrArg Slot.seq same) (by rw [Lane.slot_seq, Lane.slot_seq]; decide)
    constructor
    · rintro ⟨rfl | rfl, other⟩
      · rfl
      · exact absurd rfl other
    · rintro rfl
      exact ⟨.inl rfl, apart⟩
  · rw [cursor_eq rep₂ rep₃ (freeSmallObject_frame ok).2]
    exact cursor

/-- The address in the guard has the entry of the second object of the largest class. -/
theorem guardAddr_leads : Config.makefile.LeadsTo guardAddr (0, 17) (largest.slot 1) := by
  have heap : largest.heapAt 1 = 4 := by decide
  refine ⟨by decide, by decide, 0x200000, by decide, ?_, fun _ => by decide, ?_⟩
  · change _ = Config.makefile.bagBegin (largest.heapAt 1) 0 17 + _
    rw [heap]
    rfl
  · have rank : (largest.slot 1).rank = 0 * Config.makefile.objectsPerThread +
        (Config.makefile.objectsBefore 18 + 1 % Config.makefile.numObjects 18) := rfl
    have target : Config.makefile.rankAt 0 17 0x200000 =
        0 + (Config.makefile.objectsBefore 18 + 1 % Config.makefile.numObjects 18) := by
      decide +kernel
    simp only [rank, Nat.zero_mul, target]

end FreeGuard.Soundness.GuardSeparation
