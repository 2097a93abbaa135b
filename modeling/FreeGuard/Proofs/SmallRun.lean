import FreeGuard.Machine.Run
import FreeGuard.Model.SmallRun
import FreeGuard.Proofs.SizeClass
import FreeGuard.Proofs.SmallHeap

/-! # Runs of the small heap as runs of its pool

Every step of the small heap is a move of the pool that its state represents: an allocation takes the
first slot of a free list or bumps, a deallocation releases the live slot that its address leads to,
and a store of the program moves nothing.
-/

namespace FreeGuard.Model

open Machine

/-- The allocation of a draw uses the bump pointer of an item. -/
def BibopHeap.UsesBump (heap : BibopHeap) (item : ItemRef) (draws : Draws) (s : HeapState) : Prop :=
  IS_FREELIST_EMPTY (s.freelist item) = true ∨ (heap.selectList draws.list).2 = true

instance (heap : BibopHeap) (item : ItemRef) (draws : Draws) (s : HeapState) :
    Decidable (heap.UsesBump item draws s) := inferInstanceAs (Decidable (_ ∨ _))

variable {c : Config} {s t : HeapSystem} {e : HeapEvent} {es : List HeapEvent} {pool pool' : Pool c}
  {l : Lane c}

/-- The item that a draw selects is one of the bag. -/
theorem Config.selectList_lt (c : Config) (draw : BitVec 32) :
    (c.heap.selectList draw).1 < c.items := by
  rw [BibopHeap.selectList, heap_build]
  split
  · exact c.items_pos
  · change _ &&& (2 ^ _ - 1) < 2 ^ _
    rw [Nat.and_two_pow_sub_one_eq_mod]
    exact Nat.mod_lt _ (Nat.two_pow_pos _)

/-- The bump pointer of an allocation. -/
def Config.laneOf (c : Config) {threadIndex : ℕ} {sz : size_t} (thread : threadIndex < MAX_ALIVE_THREADS)
    (routed : c.build.IF_CANARY_CONDITION sz = false) (draws : Draws) : Lane c :=
  ⟨threadIndex, c.bagNumOf sz, (c.heap.selectList draws.list).1, thread, c.bagNumOf_lt routed,
    c.selectList_lt _⟩

/-- The moves of the pool that a step of the system makes. -/
inductive PoolStep (c : Config) (s : HeapSystem) (pool : Pool c) :
    HeapEvent → HeapSystem → Pool c → Prop
  | reuse {threadIndex : ℕ} {sz : size_t} {draws : Draws} {t : HeapSystem}
      (thread : threadIndex < MAX_ALIVE_THREADS) (routed : c.build.IF_CANARY_CONDITION sz = false)
      {x : Slot c} {rest : List (Slot c)} {i : ℕ} :
      ¬c.heap.UsesBump (c.laneOf thread routed draws).ref draws s.state →
      pool.queue (.inl (c.laneOf thread routed draws).ref) = x :: rest →
      x.BlockOf (threadIndex, c.bagNumOf sz) i →
      t.state.guards = s.state.guards →
      t.returned = ⟨c.bagBegin x.heap threadIndex (c.bagNumOf sz) + i * classSize (c.bagNumOf sz),
        classSize (c.bagNumOf sz)⟩ :: s.returned →
      PoolStep c s pool (.malloc threadIndex sz draws) t
        (pool.take (.inl (c.laneOf thread routed draws).ref) x rest)
  | bump {threadIndex : ℕ} {sz : size_t} {draws : Draws} {t : HeapSystem} {l : Lane c}
      (thread : threadIndex < MAX_ALIVE_THREADS) (routed : c.build.IF_CANARY_CONDITION sz = false) :
      l = c.laneOf thread routed draws → c.heap.UsesBump l.ref draws s.state →
      t.state.guards = s.state.guards ++ l.guardsSet (pool.cursor l) draws.guard →
      t.returned = ⟨(l.slot (pool.cursor l)).addr, classSize l.bag⟩ :: s.returned →
      PoolStep c s pool (.malloc threadIndex sz draws) t
        (pool.bump c.slots (l.slot (pool.cursor l)) (l.skips (pool.cursor l) draws.guard))
  | release {threadIndex addr : ℕ} {t : HeapSystem} {x : Slot c} {bag : BagRef} {pool' : Pool c} :
      x ∈ pool.live → c.LeadsTo addr bag x → Released pool pool' x bag (x.heap % c.items) →
      t.state.guards = s.state.guards → t.returned = s.returned →
      PoolStep c s pool (.free threadIndex addr) t pool'
  | store {addr : ℕ} {value : UInt8} {t : HeapSystem} :
      t.state.guards = s.state.guards → t.returned = s.returned →
      PoolStep c s pool (.store addr value) t pool

/-- A step makes no slot live or queued but one that it takes from a bump pointer. -/
theorem PoolStep.held (step : PoolStep c s pool e t pool') {y : Slot c} (held : pool'.Held y) :
    pool.Held y ∨ ∃ threadIndex sz draws, ∃ thread : threadIndex < MAX_ALIVE_THREADS,
      ∃ routed : c.build.IF_CANARY_CONDITION sz = false, e = .malloc threadIndex sz draws ∧
      ∃ l, l = c.laneOf thread routed draws ∧ c.heap.UsesBump l.ref draws s.state ∧
        y = l.slot (pool.cursor l) ∧ (⟨y.addr, classSize y.bag⟩ : Issue) ∈ t.returned := by
  cases step with
  | @reuse threadIndex sz draws _ thread routed x rest i idle head block guards returned =>
    rcases held with (rfl | live) | ⟨q, member⟩
    · exact .inl (.inr ⟨_, head ▸ List.mem_cons_self ..⟩)
    · exact .inl (.inl live)
    · exact .inl (.inr ⟨q, SlotPool.mem_take_queue head member⟩)
  | @bump threadIndex sz draws _ l thread routed lane uses guards returned =>
    rcases held with (rfl | live) | queued
    · exact .inr ⟨_, _, _, thread, routed, rfl, l, lane, uses, rfl, returned ▸ List.mem_cons_self ..⟩
    · exact .inl (.inl live)
    · exact .inl (.inr queued)
  | @release threadIndex addr _ x bag _ live leads released guards returned =>
    rcases held with still | ⟨q, member⟩
    · exact .inl (.inl (released.live ▸ still).1)
    · rcases released.queued q y member with ⟨rfl, -⟩ | ⟨r, -, old⟩
      · exact .inl (.inl live)
      · exact .inl (.inr ⟨r, old⟩)
  | store guards returned => exact .inl held

/-- A deallocation is of an address where a slot starts. -/
def FreesSlot (c : Config) : HeapEvent → Prop
  | .free _ addr => ∃ x : Slot c, x.addr = addr
  | _ => True

/-- Every queued slot is in a list of its own bag. -/
def Own (pool : Pool c) : Prop := ∀ q, ∀ x ∈ pool.queue q, q.bag = x.bagRef

theorem own_fresh : Own (SlotPool.fresh : Pool c) := fun _ _ member => absurd member List.not_mem_nil

theorem Own.step (own : Own pool) (frees : FreesSlot c e) (step : PoolStep c s pool e t pool') :
    Own pool' := by
  cases step with
  | @reuse threadIndex sz draws _ thread routed x rest i idle head block guards returned =>
    exact fun q y member => own q y (SlotPool.mem_take_queue head member)
  | bump => exact own
  | @release threadIndex addr _ x bag _ live leads released guards returned =>
    obtain ⟨y, rfl⟩ := frees
    obtain ⟨rfl, rfl⟩ := leads.unique y.leadsTo_addr
    intro q z queued
    rcases released.queued q z queued with ⟨rfl, ofBag⟩ | ⟨r, ofBag, old⟩
    · exact ofBag
    · exact ofBag ▸ own r z old
  | store => exact own

/-- The cursor of a lane stands at the next slot. -/
theorem Lane.next_seq (pool : Pool c) (l : Lane c) :
    c.slots.seq (l.slot (pool.cursor l)) = pool.cursor (c.slots.lane (l.slot (pool.cursor l))) := by
  change (l.slot (pool.cursor l)).seq = pool.cursor (l.slot (pool.cursor l)).lane
  rw [l.slot_lane, l.slot_seq]

/-- The next slot of a lane has not been reached. -/
theorem Lane.next_unreached (pool : Pool c) (l : Lane c) :
    ¬pool.Reached c.slots (l.slot (pool.cursor l)) :=
  fun before => Nat.lt_irrefl _ (Nat.lt_of_lt_of_eq before (l.next_seq pool).symm)

/-- An allocation returns a slot of its bag that was not live. -/
theorem PoolStep.issued_slot {threadIndex : ℕ} {sz : size_t} {draws : Draws} (own : Own pool)
    (parts : pool.Partition c.slots)
    (step : PoolStep c s pool (.malloc threadIndex sz draws) t pool') :
    ∃ x : Slot c, x ∉ pool.live ∧ pool'.live = insert x pool.live ∧
      x.bagRef = (threadIndex, c.bagNumOf sz) ∧
      t.returned = ⟨x.addr, classSize (c.bagNumOf sz)⟩ :: s.returned := by
  cases step with
  | @reuse _ _ _ _ thread routed x rest i idle head block guards returned =>
    have queued : x ∈ pool.queue (.inl (c.laneOf thread routed draws).ref) :=
      head ▸ List.mem_cons_self ..
    have bag : (threadIndex, c.bagNumOf sz) = x.bagRef := own _ x queued
    refine ⟨x, parts.queued_not_live _ x queued, rfl, bag.symm, ?_⟩
    rw [bag] at block
    obtain ⟨first, second⟩ := Prod.mk.inj bag
    rw [returned, ← Slot.addr_of_block block, first, second]
  | @bump _ _ _ _ l thread routed lane uses guards returned =>
    subst lane
    refine ⟨_, fun live => ?_, rfl, rfl, returned⟩
    exact Lane.next_unreached pool _ (parts.live_reached _ live)

/-- Returned addresses stay returned. -/
theorem PoolStep.returned (step : PoolStep c s pool e t pool') {issue : Issue}
    (old : issue ∈ s.returned) : issue ∈ t.returned := by
  cases step with
  | reuse _ _ _ _ _ _ returned => exact returned ▸ List.mem_cons_of_mem _ old
  | bump _ _ _ _ _ returned => exact returned ▸ List.mem_cons_of_mem _ old
  | release _ _ _ _ returned => exact returned ▸ old
  | store _ returned => exact returned ▸ old

/-- An allocation returns a block of its bag, at the place of a slot that is live afterwards. -/
theorem PoolStep.issued {threadIndex : ℕ} {sz : size_t} {draws : Draws}
    (step : PoolStep c s pool (.malloc threadIndex sz draws) t pool') :
    ∃ x ∈ pool'.live, ∃ i, x.BlockOf (threadIndex, c.bagNumOf sz) i ∧
      t.returned = ⟨c.bagBegin x.heap threadIndex (c.bagNumOf sz) + i * classSize (c.bagNumOf sz),
        classSize (c.bagNumOf sz)⟩ :: s.returned := by
  cases step with
  | @reuse _ _ _ _ thread routed x rest i idle head block guards returned =>
    exact ⟨x, Set.mem_insert .., i, block, returned⟩
  | @bump _ _ _ _ l thread routed lane uses guards returned =>
    subst lane
    exact ⟨_, Set.mem_insert .., _, Slot.blockOf_bagRef _, returned⟩

/-- An allocation marks the object that it takes. -/
theorem malloc_eq {threadIndex ptr : ℕ} {sz : size_t} {draws : Draws} {taken : HeapState}
    (routed : c.build.IF_CANARY_CONDITION sz = false)
    (ran : c.heap.takeObject (threadIndex, c.bagNumOf sz) draws s.state = (ptr, taken)) :
    s.malloc c.heap threadIndex sz draws =
      ⟨c.heap.markObject (threadIndex, c.bagNumOf sz) ptr taken,
        ⟨ptr, classSize (c.bagNumOf sz)⟩ :: s.returned⟩ := by
  have size : classSizeOf c.heap.build sz = classSize (c.bagNumOf sz) :=
    (Config.bagNumOf_spec routed).2.1
  simp only [HeapSystem.malloc, BibopHeap.allocateSmallObject, size, Config.getBagNum_classSize, ran]

/-- Every step of the small heap is a move of its pool. -/
theorem HeapStep.simulates (step : HeapStep c.heap s e t) (rep : Represents c s.state pool) :
    ∃ pool', PoolStep c s pool e t pool' ∧ Represents c t.state pool' := by
  cases step with
  | @malloc threadIndex sz draws thread routed =>
    generalize lane : c.laneOf thread routed draws = l
    have bag : l.bagRef = (threadIndex, c.bagNumOf sz) := lane ▸ rfl
    have item : (c.heap.selectList draws.list).1 = l.item := lane ▸ rfl
    have number : classSize l.bag = classSize (c.bagNumOf sz) := lane ▸ rfl
    by_cases bump : c.heap.UsesBump l.ref draws s.state
    · obtain ⟨taken, ran, guards, represents⟩ := rep.bump item bump
      rw [bag] at ran represents
      rw [malloc_eq routed ran]
      exact ⟨_, .bump thread routed lane.symm bump guards (by rw [number]), represents⟩
    · have idle := not_or.mp bump
      obtain ⟨x, rest, i, taken, head, block, ran, guards, represents⟩ :=
        rep.reuse item (Bool.eq_false_iff.mpr idle.1) (Bool.eq_false_iff.mpr idle.2)
      rw [bag] at ran represents block
      subst lane
      rw [malloc_eq routed ran]
      exact ⟨_, .reuse thread routed bump head block guards rfl, represents⟩
  | @free threadIndex addr state thread inside ok =>
    obtain ⟨guards, x, live, bag, leads, pool', represents, released⟩ :=
      rep.freeSmallObject inside ok
    exact ⟨pool', .release live leads released guards rfl, represents⟩
  | @store addr value =>
    exact ⟨pool, .store rfl rfl, rep.congr rfl rfl rfl rfl rfl rfl rfl⟩

/-- The address that an allocation returns. -/
theorem HeapStep.returned_addr {heap : BibopHeap} {threadIndex : ℕ} {sz : size_t} {draws : Draws}
    (step : HeapStep heap s (.malloc threadIndex sz draws) t) {issue : Issue}
    (returned : t.returned = issue :: s.returned) :
    (heap.allocateSmallObject threadIndex sz draws s.state).1 = issue.addr := by
  cases step with
  | malloc thread routed => exact congrArg Issue.addr (List.cons.inj returned).1

/-- What an allocation step does. -/
theorem HeapStep.allocated {heap : BibopHeap} {threadIndex : ℕ} {sz : size_t} {draws : Draws}
    (step : HeapStep heap s (.malloc threadIndex sz draws) t) :
    threadIndex < MAX_ALIVE_THREADS ∧ heap.build.IF_CANARY_CONDITION sz = false ∧
      t.state = (heap.allocateSmallObject threadIndex sz draws s.state).2 := by
  cases step with
  | malloc thread routed => exact ⟨thread, routed, rfl⟩

/-- What a deallocation step does. -/
theorem HeapStep.freed {heap : BibopHeap} {threadIndex addr : ℕ}
    (step : HeapStep heap s (.free threadIndex addr) t) :
    heap._heapBegin ≤ addr ∧ heap.freeSmallObject threadIndex addr s.state = .ok t.state := by
  cases step with
  | free _ inside ok => exact ⟨inside, ok⟩

/-- What a store does. -/
theorem HeapStep.stored {heap : BibopHeap} {addr : ℕ} {value : UInt8}
    (step : HeapStep heap s (.store addr value) t) :
    t.state = s.state.setMem (Function.update s.state.mem addr value) := by
  cases step with
  | store => rfl

/-- The system before the first call. -/
def Config.system (c : Config) : HeapSystem := ⟨c.start, []⟩

/-- The initialized heap represents the pool in which nothing has been handed out. -/
theorem represents_start (c : Config) : Represents c c.start SlotPool.fresh := by
  have done := c.initialized_loop
  have lists : Lists c c.start fun _ => [] := by
    refine ⟨fun item => ?_, fun item => ?_, fun bag => ?_, fun bag => ?_⟩
    · rw [show c.start.freelist item = FREELIST_INIT c.build from congrFun done.freelist item]
      exact holds_init ..
    · rw [show c.start.freelist item = FREELIST_INIT c.build from congrFun done.freelist item]
      exact built_init _
    · rw [show c.start.cfreelist bag = initSLL from congrFun done.cfreelist bag]
      exact ⟨rfl, List.not_mem_nil⟩
    · exact congrFun done.ncfree bag
  refine ⟨fun l => ?_, lists, fun a => ?_, fun x => ?_, ?_, SlotPool.partition_fresh _⟩
  · have visited := Config.visited_all_iff.mpr ⟨l.thread_lt, l.bag_lt⟩
    have first : l.heapAt 0 = l.item := by
      simp only [Lane.heapAt, Nat.zero_div, Nat.zero_mul, Nat.zero_add]
    constructor
    · apply (done.position _ _ visited l.item l.item_lt).trans
      change _ = c.bagBegin (l.heapAt 0) l.thread l.bag + 0 % _ * _
      simp only [first, Nat.zero_mod, Nat.zero_mul, Nat.add_zero]
    · apply (done.last _ _ visited l.item l.item_lt).trans
      change _ = c.bagBegin (l.heapAt 0) l.thread l.bag + _
      rw [first]
  · rw [show c.start.links a = NULL from congrFun done.links a]
    simp [SlotPool.fresh, NULL, ALLOC_SENTINEL]
  · simp only [SlotPool.fresh, Set.mem_empty_iff_false, false_iff, not_exists, not_and]
    intro g member random
    obtain ⟨-, t, b, -, i, -, rfl⟩ := done.guards g member
    cases random
  · exact fun q x member => absurd member List.not_mem_nil

/-- No object of the initialized heap is live. -/
theorem Slot.not_live_start (x : Slot c) : ¬x.Live c.start := fun live =>
  absurd ((represents_start c).live_iff.mpr live) (Set.notMem_empty x)

/-- A pool for every state that a run reaches. -/
theorem exists_pool (run : Run (HeapStep c.heap) c.system es t) :
    ∃ pool, Represents c t.state pool :=
  run.invariant (fun s => ∃ pool, Represents c s.state pool)
    (fun _ _ _ ⟨_, rep⟩ step => (step.simulates rep).imp fun _ both => both.2)
    ⟨_, represents_start c⟩

theorem cursor_bump (pool : Pool c) (l k : Lane c) (n skip : ℕ) :
    (pool.bump c.slots (l.slot n) skip).cursor k = if k = l then n + 1 + skip else pool.cursor k := by
  have place : c.slots.lane (l.slot n) = l := l.slot_lane _
  have seq : c.slots.seq (l.slot n) = n := l.slot_seq _
  simp only [SlotPool.bump, place, seq, Function.update_apply]

/-- An allocation that draws no guard, and the bump pointer or an empty list, takes one slot of its
lane. -/
theorem bump_unguarded {threadIndex : ℕ} {sz : size_t} {draws : Draws}
    (bumps : (c.heap.selectList draws.list).2 = true ∨ pool.queue (.inl l.ref) = [])
    (unguarded : c.build.belowGuardCutoff draws.guard.toInt = false)
    (thread : threadIndex < MAX_ALIVE_THREADS) (routed : c.build.IF_CANARY_CONDITION sz = false)
    (lane : c.laneOf thread routed draws = l) (rep : Represents c s.state pool) :
    ∃ t, HeapStep c.heap s (.malloc threadIndex sz draws) t ∧
      Represents c t.state (pool.bump c.slots (l.slot (pool.cursor l)) 0) ∧
      t.state.guards = s.state.guards ++ l.guardsSet (pool.cursor l) draws.guard ∧
      t.returned = ⟨(l.slot (pool.cursor l)).addr, classSize l.bag⟩ :: s.returned := by
  have step : HeapStep c.heap s (.malloc threadIndex sz draws) _ := .malloc s thread routed
  obtain ⟨pool', move, rep'⟩ := step.simulates rep
  refine ⟨_, step, ?_⟩
  cases move with
  | reuse _ _ idle head =>
    rw [lane] at head
    rcases bumps with forced | empty
    · exact absurd (.inr forced) idle
    · cases empty.symm.trans head
  | @bump _ _ _ _ k _ _ same uses guards returned =>
    obtain rfl : k = l := same.trans lane
    have noSkip : k.skips (pool.cursor k) draws.guard = 0 := by
      rw [Lane.skips, if_neg fun fires => Bool.eq_false_iff.mp unguarded fires.2.2]
    exact ⟨noSkip ▸ rep', guards, returned⟩

/-- Allocations of one thread and class that draw the same item and no guard, with nothing freed,
take the slots of one lane in order. -/
theorem allocations_exhaust {threadIndex : ℕ} {sz : size_t} {draws : Draws}
    (thread : threadIndex < MAX_ALIVE_THREADS) (routed : c.build.IF_CANARY_CONDITION sz = false)
    (unguarded : c.build.belowGuardCutoff draws.guard.toInt = false)
    (lane : l = c.laneOf thread routed draws) (n : ℕ) :
    ∃ t, Run (HeapStep c.heap) c.system (List.replicate n (.malloc threadIndex sz draws)) t ∧
      ∃ pool, Represents c t.state pool ∧ (∀ q, pool.queue q = []) ∧ pool.cursor l = n ∧
        ∀ k < n, l.slot k ∈ pool.live ∧ (⟨(l.slot k).addr, classSize l.bag⟩ : Issue) ∈ t.returned := by
  induction n with
  | zero =>
    exact ⟨_, .nil _, _, represents_start c, fun _ => rfl, rfl, fun k below => absurd below k.not_lt_zero⟩
  | succ n ih =>
    obtain ⟨t, run, pool, rep, empty, cursor, taken⟩ := ih
    obtain ⟨t', step, rep', -, returned⟩ :=
      bump_unguarded (.inr (empty _)) unguarded thread routed lane.symm rep
    refine ⟨t', List.replicate_succ' ▸ run.append (.single step), _, rep', empty, ?_, ?_⟩
    · rw [cursor_bump, if_pos rfl, cursor]
    · intro j below
      rw [returned, cursor]
      rcases Nat.lt_succ_iff_lt_or_eq.mp below with before | rfl
      · exact ⟨.inr (taken j before).1, List.mem_cons_of_mem _ (taken j before).2⟩
      · exact ⟨Set.mem_insert .., List.mem_cons_self ..⟩

end FreeGuard.Model
