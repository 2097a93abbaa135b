import FreeGuard.Machine.AddressSpace
import FreeGuard.Machine.Run
import FreeGuard.Proofs.HeapRace

/-! # The small heap under concurrent calls

In a build without `CFREELIST`, whatever the order of the steps of the threads, the calls take effect one
after the other: an allocation where it holds the lock of its list, a deallocation where it inserts.
-/

namespace FreeGuard.Soundness.ConcurrentHeap

open Machine Model

variable {c : Config} {s t : HeapRace} {e : HeapRaceEvent} {system : HeapSystem}
  {holdings : Holdings} {pool pool' : Pool c} {slot : ℕ → Option (Slot c)} {thread : ℕ}
  {call : ObjectCall} {x y : Slot c} {l : Lane c} {n : ℕ} {sz : size_t} {draws : Draws}
  {after taken state : HeapState}

/-! ## The step of an allocation under the lock -/

/-- An allocation that has held the lock is done in the calls one after the other. -/
theorem malloc_takes_effect (settled : Settled s system holdings pool slot) (idle : s.calls thread = .idle)
    (inRange : thread < MAX_ALIVE_THREADS) (routed : c.build.IF_CANARY_CONDITION sz = false)
    (bag : x.bagRef = (thread, c.bagNumOf sz))
    (ran : c.heap.takeObject x.bagRef draws system.state = (x.addr, taken))
    (new : x ∉ pool.live) (live : pool'.live = insert x pool.live)
    (represents : Represents c (c.heap.markObject x.bagRef x.addr taken) pool') (own : Own pool')
    (pending : call.Pending) (behind : c.build.canary = true → call.Behind x x.canary)
    (handles : Handles { s.state with freelist := taken.freelist } pool' thread call x)
    (cursor : ∀ l : Lane c, l.thread ≠ thread → pool'.cursor l = pool.cursor l)
    (cfreelist : taken.cfreelist = system.state.cfreelist) (ncfree : taken.ncfree = system.state.ncfree)
    (position : ∀ item : ItemRef, (item.1.1 = thread → ∀ draw, call ≠ .bumping item draw) →
      SamePosition system.state taken item)
    (guards : ∀ g, g ∈ taken.guards ↔ g ∈ system.state.guards ∨ call.Guards x g) :
    ∃ system' holdings', ∃ slot' : ℕ → Option (Slot c),
      Run (HolderStep c.heap) (system, holdings) [.malloc thread sz draws] (system', holdings') ∧
      Settled { s with
          state := { s.state with freelist := taken.freelist }
          calls := Function.update s.calls thread call } system' holdings' pool' slot' := by
  obtain ⟨first, number⟩ := Prod.mk.inj bag
  have free := settled.roster.slot_idle idle
  have unmarked : s.state.links x.entry ≠ ALLOC_SENTINEL := fun mark => new (settled.live_of_marked mark)
  obtain ⟨mem, links⟩ : (c.heap.takeObject x.bagRef draws system.state).2.mem = _ ∧ _ = _ :=
    c.heap.takeObject_frame draws system.state
  rw [ran] at mem links
  have done : c.heap.allocateSmallObject thread sz draws system.state =
      (x.addr, c.heap.markObject x.bagRef x.addr taken) := by
    have size : classSizeOf c.heap.build sz = classSize (c.bagNumOf sz) :=
      (Config.bagNumOf_spec routed).2.1
    simp only [BibopHeap.allocateSmallObject, size, Config.getBagNum_classSize, ← bag, ran]
  have step : HeapStep c.heap system (.malloc thread sz draws)
      ⟨c.heap.markObject x.bagRef x.addr taken, ⟨x.addr, classSize x.bag⟩ :: system.returned⟩ := by
    have step : HeapStep c.heap system (.malloc thread sz draws) _ := .malloc system inRange routed
    rwa [HeapSystem.malloc, done, Config.heap_build, (Config.bagNumOf_spec routed).2.1, ← number] at step
  have record : Holdings.next c.heap system (.malloc thread sz draws) holdings =
      Function.update holdings x.addr (some (classSize x.bag)) := by
    rw [Holdings.next, done, Config.heap_build, (Config.bagNumOf_spec routed).2.1, ← number]
  refine ⟨_, Function.update holdings x.addr (some (classSize x.bag)),
    Function.update slot thread (some x), .single ⟨trivial, step, record.symm⟩, ?_, ?_, ?_⟩
  · exact settled.linear.malloc inRange routed new live number done represents own
  · exact settled.roster.begin inRange new live free handles fun q apart y old =>
      old.frame (fun _ _ => ⟨rfl, rfl⟩) (fun l ofThread => cursor l (ofThread ▸ apart)) (fun _ _ => id)
        fun _ _ _ => rfl
  · exact settled.agree.begin idle pending behind unmarked cfreelist ncfree links mem position guards

/-- The call of an allocation when it has held the lock. -/
theorem beginMalloc_eq (routed : c.build.IF_CANARY_CONDITION sz = false) (state : HeapState) :
    c.heap.beginMalloc thread sz draws state =
      match c.heap.removeObject (thread, c.bagNumOf sz) draws state with
      | some (ptr, state) => (.taken (thread, c.bagNumOf sz) ptr, state)
      | none => (.bumping ((thread, c.bagNumOf sz), (c.heap.selectList draws.list).1) draws.guard, state) := by
  have number : c.heap.getBagNum (classSizeOf c.heap.build sz) = c.bagNumOf sz := by
    rw [show classSizeOf c.heap.build sz = classSize (c.bagNumOf sz) from (Config.bagNumOf_spec routed).2.1,
      Config.getBagNum_classSize]
  rw [← number]
  rfl

/-- The lists are the same, so the same objects are taken from them. -/
theorem usesBump_iff (settled : Settled s system holdings pool slot) (item : ItemRef) :
    c.heap.UsesBump item draws s.state ↔ c.heap.UsesBump item draws system.state := by
  rw [BibopHeap.UsesBump, BibopHeap.UsesBump, settled.agree.freelist]

/-- An allocation takes the first object of a list. -/
theorem malloc_reuse (settled : Settled s system holdings pool slot) (idle : s.calls thread = .idle)
    (inRange : thread < MAX_ALIVE_THREADS) (routed : c.build.IF_CANARY_CONDITION sz = false)
    (lane : c.laneOf inRange routed draws = l) (reuses : ¬c.heap.UsesBump l.ref draws system.state) :
    ∃ system' holdings', ∃ pool' : Pool c, ∃ slot',
      Run (HolderStep c.heap) (system, holdings) [.malloc thread sz draws] (system', holdings') ∧
      Settled { s with
        state := (c.heap.beginMalloc thread sz draws s.state).2
        calls := Function.update s.calls thread (c.heap.beginMalloc thread sz draws s.state).1 }
        system' holdings' pool' slot' := by
  have rep := settled.linear.represents
  have ref : l.ref = ((thread, c.bagNumOf sz), (c.heap.selectList draws.list).1) := lane ▸ rfl
  have item : (c.heap.selectList draws.list).1 = l.item := lane ▸ rfl
  obtain ⟨full, unforced⟩ := not_or.mp reuses
  obtain ⟨x, rest, i, taken, head, block, ran, guards, represents⟩ :=
    rep.reuse item (Bool.eq_false_iff.mpr full) (Bool.eq_false_iff.mpr unforced)
  have queued : x ∈ pool.queue (.inl l.ref) := head ▸ List.mem_cons_self ..
  have ofBag : l.bagRef = x.bagRef := settled.linear.own _ x queued
  have bag : x.bagRef = (thread, c.bagNumOf sz) := ofBag ▸ lane ▸ rfl
  have addr : c.bagBegin x.heap l.thread l.bag + i * classSize l.bag = x.addr := by
    obtain ⟨first, second⟩ := Prod.mk.inj ofBag
    rw [ofBag] at block
    rw [first, second]
    exact Slot.addr_of_block block
  rw [addr, ofBag] at ran represents
  have place : (x.bagRef, (c.heap.selectList draws.list).1) = l.ref := by
    rw [← ofBag, item]
    rfl
  -- the list and the link of its first node are the same in both states
  have removed : FREELIST_REMOVE s.state.links (s.state.freelist l.ref) =
      FREELIST_REMOVE system.state.links (system.state.freelist l.ref) := by
    have holds := rep.lists.freelist l.ref
    rw [head, List.map_cons] at holds
    rw [settled.agree.freelist]
    refine remove_congr holds ?_
    have others := settled.lists.freelist l.ref
    rcases settled.agree.links x.entry with same | ⟨q, y, mine, -, entry⟩
    · exact same
    · obtain rfl := Slot.entry_inj entry
      exact absurd (settled.roster.handles mine).2.1 (rep.partition.queued_not_live _ _ queued)
  have started := ran
  rw [c.heap.takeObject_eq, c.heap.removeObject_eq, place, if_neg reuses] at started
  obtain ⟨ptr, rfl⟩ := Prod.mk.inj started
  have begun : c.heap.beginMalloc thread sz draws s.state = (.taken x.bagRef x.addr, { s.state with
      freelist := Function.update system.state.freelist l.ref
        (FREELIST_REMOVE system.state.links (system.state.freelist l.ref)).2 }) := by
    rw [beginMalloc_eq routed, ← bag, c.heap.removeObject_eq, place,
      if_neg (mt (usesBump_iff settled _).mp reuses), removed, settled.agree.freelist]
    dsimp only
    rw [ptr]
  rw [begun]
  have pending : (ObjectCall.taken x.bagRef x.addr).Pending := trivial
  have steady : (ObjectCall.taken x.bagRef x.addr).Steady := trivial
  obtain ⟨system', holdings', slot', run, done⟩ := malloc_takes_effect settled idle inRange routed bag ran
    (rep.partition.queued_not_live _ x queued) rfl represents
    (fun q y member => settled.linear.own q y (SlotPool.mem_take_queue head member)) pending
    (fun canary => ⟨canary, rfl⟩) .taken (fun _ _ => rfl) rfl rfl (fun _ _ => ⟨rfl, rfl⟩)
    (fun g => (or_iff_left steady.not_guards).symm)
  exact ⟨system', holdings', _, slot', run, done⟩

/-- An allocation is to use its bump pointer. -/
theorem malloc_bump (settled : Settled s system holdings pool slot) (idle : s.calls thread = .idle)
    (inRange : thread < MAX_ALIVE_THREADS) (routed : c.build.IF_CANARY_CONDITION sz = false)
    (lane : c.laneOf inRange routed draws = l) (bumps : c.heap.UsesBump l.ref draws system.state) :
    ∃ system' holdings', ∃ pool' : Pool c, ∃ slot',
      Run (HolderStep c.heap) (system, holdings) [.malloc thread sz draws] (system', holdings') ∧
      Settled { s with
        state := (c.heap.beginMalloc thread sz draws s.state).2
        calls := Function.update s.calls thread (c.heap.beginMalloc thread sz draws s.state).1 }
        system' holdings' pool' slot' := by
  have rep := settled.linear.represents
  have item : (c.heap.selectList draws.list).1 = l.item := lane ▸ rfl
  have bag : l.bagRef = (thread, c.bagNumOf sz) := lane ▸ rfl
  have place : (l.bagRef, (c.heap.selectList draws.list).1) = l.ref := by
    rw [item]
    rfl
  obtain ⟨taken, ran, guards, represents⟩ := rep.bump item bumps
  have moved := Lane.takeObject_bump (rep.lanes l) item bumps
  obtain rfl := (Prod.mk.inj (ran.symm.trans moved)).2
  generalize cursor : pool.cursor l = n at *
  have begun : c.heap.beginMalloc thread sz draws s.state =
      (.bumping l.ref draws.guard, { s.state with freelist := system.state.freelist }) := by
    rw [beginMalloc_eq routed, ← bag, c.heap.removeObject_eq, place,
      if_pos ((usesBump_iff settled _).mpr bumps), ← settled.agree.freelist]
  have start : l.At n { s.state with freelist := system.state.freelist } := by
    have there := rep.lanes l
    obtain ⟨first, last⟩ := settled.agree.position l.ref fun draw => by
      rw [show l.ref.1.1 = thread from congrArg Prod.fst bag, idle]
      exact ObjectCall.noConfusion
    exact ⟨first.trans (cursor ▸ there.position), last.trans (cursor ▸ there.last)⟩
  have pending : (ObjectCall.bumping l.ref draws.guard).Pending := trivial
  have new : l.slot n ∉ pool.live :=
    fun live => Lane.next_unreached pool l (cursor ▸ rep.partition.live_reached _ live)
  have cursors (k : Lane c) (apart : k.thread ≠ thread) :
      (pool.bump c.slots (l.slot n) (l.skips n draws.guard)).cursor k = pool.cursor k := by
    rw [cursor_bump, if_neg]
    rintro rfl
    exact apart (congrArg Prod.fst bag)
  have handles : Handles { s.state with freelist := system.state.freelist }
      (pool.bump c.slots (l.slot n) (l.skips n draws.guard)) thread (.bumping l.ref draws.guard)
      (l.slot n) :=
    .bumping (congrArg Prod.fst bag) start (by rw [cursor_bump, if_pos rfl])
  have positions (item : ItemRef)
      (free : item.1.1 = thread → ∀ draw, ObjectCall.bumping l.ref draws.guard ≠ .bumping item draw) :
      SamePosition system.state (l.move (n + 1 + l.skips n draws.guard) (l.guardsSet n draws.guard)
        system.state) item := by
    have other : item ≠ l.ref := fun same =>
      free (same ▸ congrArg Prod.fst bag) draws.guard (same ▸ rfl)
    exact ⟨(Function.update_of_ne other ..).symm, (Function.update_of_ne other ..).symm⟩
  rw [begun]
  obtain ⟨system', holdings', slot', run, done⟩ := malloc_takes_effect settled idle inRange routed (x := l.slot n) bag
    ran new rfl represents settled.linear.own pending (fun canary => ⟨canary, rfl⟩) handles cursors rfl
    rfl positions (fun g => by rw [guards_bumping]; exact List.mem_append)
  exact ⟨system', holdings', _, slot', run, done⟩

/-! ## The steps of a call in progress -/

/-- The next step of a thread is possible, and is matched. -/
def Advances (s : HeapRace) (system : HeapSystem) (holdings : Holdings) (c : Config) (thread : ℕ) : Prop :=
  ∃ call state, c.heap.advance s.state (s.calls thread) = .ok (call, state) ∧
    ∃ system' holdings', ∃ pool' : Pool c, ∃ slot',
      Run (HolderStep c.heap) (system, holdings) (s.linear (.advance thread)) (system', holdings') ∧
      Settled ⟨state, Function.update s.calls thread call,
        match (s.calls thread).returns c.heap with
        | some issue => Function.update s.held issue.addr (some issue.classSize)
        | none => s.held⟩ system' holdings' pool' slot'

section Advance

variable (settled : Settled s system holdings pool slot) (mine : slot thread = some x)
include settled mine

/-- The bump pointer of an allocation moves. -/
theorem advance_bumping {draw : BitVec 32} (at_place : x = l.slot n)
    (working : s.calls thread = .bumping l.ref draw) (ofThread : l.thread = thread)
    (start : l.At n s.state) (cursor : pool.cursor l = n + 1 + l.skips n draw) :
    Advances s system holdings c thread := by
  subst at_place
  have there := settled.linear.represents.lanes l
  rw [cursor] at there
  have moved : c.heap.bumpObject l.ref draw s.state =
      ((l.slot n).addr, l.move (n + 1 + l.skips n draw) (l.guardsSet n draw) s.state) := by
    rw [BibopHeap.bumpObject, start.position]
    exact congrArg _ (Lane.bump_at start)
  have goes : Handles (l.move (n + 1 + l.skips n draw) (l.guardsSet n draw) s.state) pool thread
      (.taken l.bagRef (l.slot n).addr) (l.slot n) := .taken (x := l.slot n)
  rw [Advances, working]
  refine ⟨.taken l.bagRef (l.slot n).addr, _, ?_, system, holdings, pool, slot, ?_,
    settled.linear, ?_, settled.agree.bump working mine there⟩
  · rw [BibopHeap.advance, moved]
    rfl
  · rw [HeapRace.linear, working]
    exact .nil _
  · refine settled.roster.go mine goes fun q apart y _ old => old.frame ?_ (fun _ _ => rfl) (fun _ _ => id)
      fun _ _ _ => rfl
    intro item theirs
    have other : item ≠ l.ref := fun same => apart (theirs ▸ same ▸ ofThread)
    exact ⟨Function.update_of_ne other .., Function.update_of_ne other ..⟩

/-- An allocation writes the canary. -/
theorem advance_taken (working : s.calls thread = .taken x.bagRef x.addr) :
    Advances s system holdings c thread := by
  have live := (settled.roster.handles mine).2.1
  have written (a : ℕ) : (c.heap.sealObject x.bagRef x.addr s.state).mem a =
      if c.build.canary = true ∧ a = x.canary then CANARY_SENTINEL else s.state.mem a := by
    change (if c.build.canary then Function.update s.state.mem (x.addr + _ - 1) _ else s.state.mem) a = _
    rw [x.threadBag_classSize]
    by_cases canary : c.build.canary = true
    · simp only [canary, if_true, true_and]
      exact Function.update_apply ..
    · simp [canary]
  rw [Advances, working]
  refine ⟨.sealed x.bagRef x.addr, _, rfl, system, holdings, pool, slot, ?_,
    settled.linear, ?_, settled.agree.writeCanary working mine fun canary =>
      settled.linear.intact canary x live⟩
  · rw [HeapRace.linear, working]
    exact .nil _
  · refine settled.roster.go mine .sealed fun q _ y other old => ?_
    refine old.frame (fun _ _ => ⟨rfl, rfl⟩) (fun _ _ => rfl) (fun _ z intact => ?_) ?_
    · rw [written]
      split
      · rfl
      · exact intact
    · intro a first last
      rw [written, if_neg]
      rintro ⟨-, rfl⟩
      exact Slot.outside other first last x.canary_inside

/-- An allocation marks the entry and returns the object. -/
theorem advance_sealed (working : s.calls thread = .sealed x.bagRef x.addr) :
    Advances s system holdings c thread := by
  have live := (settled.roster.handles mine).2.1
  rw [Advances, working]
  refine ⟨.idle, _, rfl, system, holdings, pool, Function.update slot thread none, ?_,
    settled.linear, ?_, settled.agree.mark settled.roster.exclusive working mine
      (settled.linear.represents.live_iff.mp live)⟩
  · rw [HeapRace.linear, working]
    exact .nil _
  · change Roster ⟨_, _, Function.update s.held x.addr (some (c.heap._threadBag x.bagRef).classSize)⟩ _ _
    rw [x.threadBag_classSize]
    exact settled.roster.finish mine fun q _ y _ old =>
      old.frame (fun _ _ => ⟨rfl, rfl⟩) (fun _ _ => rfl) (fun _ _ => id) fun _ _ _ => rfl

/-- A check of a deallocation, which writes nothing. -/
theorem advance_quiet (handles : Handles s.state pool thread call x) (was : (s.calls thread).Quiet)
    (goes : call.Quiet) (advanced : c.heap.advance s.state (s.calls thread) = .ok (call, s.state)) :
    Advances s system holdings c thread := by
  refine ⟨call, s.state, advanced, system, holdings, pool, slot, ?_, settled.linear, ?_, ?_⟩
  · rw [HeapRace.linear_quiet was]
    exact .nil _
  · rw [was.returns]
    exact settled.roster.go mine handles fun q _ y _ => id
  · have agree := settled.agree.quiet was goes (slot thread)
    rwa [Function.update_eq_self] at agree

/-- The object's own canary is in place. -/
theorem advance_found (working : s.calls thread = .found x.freeing) :
    Advances s system holdings c thread := by
  have live := (settled.roster.handles mine).2.1
  have marked := settled.marked_of_live live fun q theirs pending => by
    obtain rfl := settled.roster.exclusive _ _ _ theirs mine
    rw [working] at pending
    exact pending
  by_cases canary : c.build.canary = true
  · have intact : s.state.mem (x.addr + (c.heap._threadBag x.bagRef).classSize - 1) = CANARY_SENTINEL := by
      rw [x.threadBag_classSize]
      exact settled.intact_of_marked canary marked
    have handles : Handles s.state pool thread
        (.walking x.freeing .LEFT NUM_MORE_CANARIES_TO_CHECK x.entry) x := .walking canary rfl
    refine advance_quiet settled mine handles (working ▸ trivial) trivial ?_
    rw [working, BibopHeap.advance, Config.heap_build, if_pos canary]
    simp only [Slot.freeing, intact, bne_self_eq_false, Bool.false_eq_true, if_false]
  · have handles : Handles s.state pool thread (.checked x.freeing) x := .checked
    refine advance_quiet settled mine handles (working ▸ trivial) trivial ?_
    rw [working, BibopHeap.advance, Config.heap_build, if_neg canary]

/-- After one direction the check goes on with the other, or ends. -/
theorem advance_turn {move : Direction} {count : ℕ} (canary : c.build.canary = true)
    (working : s.calls thread = .walking x.freeing move count y.entry)
    (turns : c.heap.advance s.state (s.calls thread) = .ok (BibopHeap.turn x.freeing move, s.state)) :
    Advances s system holdings c thread := by
  have was : (s.calls thread).Quiet := working ▸ trivial
  cases move with
  | LEFT =>
    have handles : Handles s.state pool thread (BibopHeap.turn x.freeing .LEFT) x :=
      .walking canary rfl
    exact advance_quiet settled mine handles was trivial turns
  | RIGHT =>
    have handles : Handles s.state pool thread (BibopHeap.turn x.freeing .RIGHT) x := .checked
    exact advance_quiet settled mine handles was trivial turns

/-- The entry next to one of the lane, and whether it is marked. -/
theorem advance_walking {move : Direction} {count : ℕ} (canary : c.build.canary = true)
    (lane : y.lane = x.lane)
    (working : s.calls thread = .walking x.freeing move count y.entry) :
    Advances s system holdings c thread := by
  have was : (s.calls thread).Quiet := working ▸ trivial
  cases count with
  | zero =>
    refine advance_turn settled mine canary working ?_
    rw [working, BibopHeap.advance]
  | succ count =>
    rcases neighbor_cases lane move with none | ⟨z, laneZ, next⟩
    · refine advance_turn settled mine canary working ?_
      rw [working, BibopHeap.advance]
      simp only [Slot.freeing, none]
    · by_cases free : BibopHeap.isObjectFree s.state z.entry = true
      · have handles : Handles s.state pool thread (.walking x.freeing move count z.entry) x :=
          .walking canary laneZ
        refine advance_quiet settled mine handles was trivial ?_
        rw [working, BibopHeap.advance]
        simp only [Slot.freeing, next, free, if_true]
      · have mark : s.state.links z.entry = ALLOC_SENTINEL := by
          simpa [BibopHeap.isObjectFree] using free
        have handles : Handles s.state pool thread (.peeked x.freeing move count z.entry) x :=
          .peeked canary laneZ (settled.intact_of_marked canary mark)
        refine advance_quiet settled mine handles was trivial ?_
        rw [working, BibopHeap.advance]
        simp only [Slot.freeing, next, free]
        rfl

/-- The canary of a neighbor in use is in place, whatever has become of the neighbor since. -/
theorem advance_peeked {move : Direction} {count : ℕ} (canary : c.build.canary = true)
    (lane : y.lane = x.lane) (intact : s.state.mem y.canary = CANARY_SENTINEL)
    (working : s.calls thread = .peeked x.freeing move count y.entry) :
    Advances s system holdings c thread := by
  have handles : Handles s.state pool thread (.walking x.freeing move count y.entry) x :=
    .walking canary lane
  have bag : x.bagRef = y.bagRef := congrArg Lane.bagRef lane.symm
  have byte : s.state.mem (c.heap.getAddrFromShadowInfo y.entry x.bagRef +
      (c.heap._threadBag x.bagRef).classSize - 1) = CANARY_SENTINEL := by
    rw [bag, y.threadBag_classSize,
      show c.heap.getAddrFromShadowInfo y.entry y.bagRef = y.addr from y.getAddrFromShadowInfo_entry]
    exact intact
  refine advance_quiet settled mine handles (working ▸ trivial) trivial ?_
  rw [working, BibopHeap.advance]
  simp only [Slot.freeing, byte, bne_self_eq_false, Bool.false_eq_true, if_false]

/-- A deallocation clears the object. -/
theorem advance_checked (working : s.calls thread = .checked x.freeing) :
    Advances s system holdings c thread := by
  have written (a : ℕ) := x.destroyed_apply s.state a
  have handles : Handles (s.state.setMem (c.heap.destroyed x.addr x.bagRef s.state)) pool thread
      (.destroyed x.freeing) x :=
    .destroyed fun a cleared => (written a).trans (if_pos cleared)
  rw [Advances, working]
  refine ⟨.destroyed x.freeing, _, c.heap.advance_checked .., system, holdings, pool,
    slot, ?_, settled.linear, ?_, settled.agree.destroy working mine⟩
  · rw [HeapRace.linear, working]
    exact .nil _
  · refine settled.roster.go mine handles fun q _ y other old => ?_
    refine old.frame (fun _ _ => ⟨rfl, rfl⟩) (fun _ _ => rfl) (fun canary z intact => ?_)
      fun a first last => ?_
    · exact (written _).trans ((if_neg fun cleared => x.canary_not_usableByte canary z cleared.2).trans
        intact)
    · refine (written a).trans (if_neg fun cleared => Slot.outside other first last ?_)
      obtain ⟨-, first', last'⟩ := cleared
      exact ⟨first', by omega⟩

/-- A deallocation inserts the entry. -/
theorem advance_destroyed (plain : c.build.cfreelist = false) (zero : ∀ a, x.Cleared a → s.state.mem a = 0)
    (working : s.calls thread = .destroyed x.freeing) : Advances s system holdings c thread := by
  have live := (settled.roster.handles mine).2.1
  obtain ⟨ok, pool', lives, cursor, linear⟩ := settled.linear.free thread plain live
  have step : HeapStep c.heap system (.free thread x.addr) _ := .free system
    (settled.roster.inRange _ _ mine) x.heapBegin_le ok
  have agree := settled.agree.release (x.bagRef, x.heap % c.items) settled.roster.exclusive
    settled.lists (fun q y theirs r queued => settled.linear.represents.partition.queued_not_live r y queued
      (settled.roster.handles theirs).2.1) working mine zero
  rw [Advances, working]
  refine ⟨.idle, _, rfl, _, _, pool', Function.update slot thread none, ?_, linear, ?_,
    agree⟩
  · rw [HeapRace.linear, working]
    exact .single ⟨trivial, step, rfl⟩
  · exact settled.roster.release mine lives fun q _ y _ old => old.frame (fun _ _ => ⟨rfl, rfl⟩)
      (fun l _ => congrFun cursor l) (fun _ _ => id) fun _ _ _ => rfl

end Advance

/-- Every call in progress can go on. -/
theorem advances (plain : c.build.cfreelist = false) (settled : Settled s system holdings pool slot)
    (working : s.calls thread ≠ .idle) : Advances s system holdings c thread := by
  obtain ⟨x, mine⟩ := settled.roster.exists_slot working
  have handles := (settled.roster.handles mine).1
  generalize call_eq : s.calls thread = call at handles
  cases handles with
  | bumping ofThread start cursor => exact advance_bumping settled mine rfl call_eq ofThread start cursor
  | taken => exact advance_taken settled mine call_eq
  | sealed => exact advance_sealed settled mine call_eq
  | found => exact advance_found settled mine call_eq
  | walking canary lane => exact advance_walking settled mine canary lane call_eq
  | peeked canary lane intact => exact advance_peeked settled mine canary lane intact call_eq
  | checked => exact advance_checked settled mine call_eq
  | destroyed zero => exact advance_destroyed settled mine plain zero call_eq

/-! ## The other steps -/

/-- A deallocation of a block that the program holds finds the entry marked. -/
theorem free_begins (settled : Settled s system holdings pool slot) (idle : s.calls thread = .idle)
    (inRange : thread < MAX_ALIVE_THREADS) {addr : ℕ} (held : s.held addr = some n) :
    ∃ call, c.heap.beginFree addr s.state = .ok call ∧ ∃ slot',
      Settled { s with
        calls := Function.update s.calls thread call
        held := Function.update s.held addr none } system holdings pool slot' := by
  obtain ⟨x, live, rfl, -⟩ := settled.roster.held addr n held
  have free := settled.roster.slot_idle idle
  have mark := settled.marked_of_live live fun q theirs => absurd theirs (settled.roster.not_busy held q)
  have busy : BibopHeap.isObjectFree s.state x.entry = false := by
    simp [BibopHeap.isObjectFree, mark]
  have quiet : (ObjectCall.found x.freeing).Quiet := trivial
  refine ⟨.found x.freeing, ?_, _, settled.linear, settled.roster.start inRange held free .found,
    settled.agree.quiet (idle ▸ trivial) quiet _⟩
  rw [BibopHeap.beginFree, x.getShadowObjectInfo_addr]
  change (if BibopHeap.isObjectFree s.state x.entry then _ else _) = _
  rw [busy]
  rfl

/-- An allocation that begins. -/
theorem malloc_begins (settled : Settled s system holdings pool slot) (idle : s.calls thread = .idle)
    (inRange : thread < MAX_ALIVE_THREADS) (routed : c.build.IF_CANARY_CONDITION sz = false) :
    ∃ system' holdings', ∃ pool' : Pool c, ∃ slot',
      Run (HolderStep c.heap) (system, holdings) [.malloc thread sz draws] (system', holdings') ∧
      Settled { s with
        state := (c.heap.beginMalloc thread sz draws s.state).2
        calls := Function.update s.calls thread (c.heap.beginMalloc thread sz draws s.state).1 }
        system' holdings' pool' slot' := by
  by_cases bumps : c.heap.UsesBump (c.laneOf inRange routed draws).ref draws system.state
  · exact malloc_bump settled idle inRange routed rfl bumps
  · exact malloc_reuse settled idle inRange routed rfl bumps

/-- A store of the program to a block that it holds. -/
theorem store_matches (settled : Settled s system holdings pool slot) {a addr : ℕ} {value : UInt8}
    (held : s.held addr = some n) (usable : UsableByte c.build addr n a) :
    ∃ system', Run (HolderStep c.heap) (system, holdings) [.store a value] (system', holdings) ∧
      Settled { s with state := { s.state with mem := Function.update s.state.mem a value } }
        system' holdings pool slot := by
  obtain ⟨x, live, rfl, rfl⟩ := settled.roster.held addr n held
  have step : HeapStep c.heap system (.store a value) _ := .store system
  have stores : StoresHeld c.heap.build (system, holdings) (.store a value) :=
    ⟨x.addr, classSize x.bag, (settled.linear.holdings ..).mpr ⟨x, live, rfl, rfl⟩, usable⟩
  refine ⟨_, .single ⟨stores, step, rfl⟩, settled.linear.store usable, ?_, settled.agree.store a value⟩
  refine settled.roster.store fun q y theirs old => ?_
  have other : y ≠ x := by
    rintro rfl
    exact settled.roster.not_busy held q theirs
  refine old.frame (fun _ _ => ⟨rfl, rfl⟩) (fun _ _ => rfl) (fun canary z intact => ?_) fun b first last => ?_
  · refine (Function.update_of_ne ?_ ..).trans intact
    rintro rfl
    exact x.canary_not_usableByte canary z usable
  · refine Function.update_of_ne ?_ ..
    rintro rfl
    obtain ⟨first', last'⟩ := usable
    exact Slot.outside other first last ⟨first', by omega⟩

/-- A program that frees what it holds and stores to what it holds, in threads. -/
abbrev ProgramStep (heap : BibopHeap) : HeapRace → HeapRaceEvent → HeapRace → Prop :=
  Guarded (HeapRace.Disciplined heap.build) (HeapRaceStep heap)

/-- Every step is matched by the calls one after the other. -/
theorem step_matches (plain : c.build.cfreelist = false) (settled : Settled s system holdings pool slot)
    (step : ProgramStep c.heap s e t) :
    ∃ system' holdings', ∃ pool' : Pool c, ∃ slot',
      Run (HolderStep c.heap) (system, holdings) (s.linear e) (system', holdings') ∧
      Settled t system' holdings' pool' slot' := by
  obtain ⟨disciplined, step⟩ := step
  cases step with
  | @malloc _ _ draws _ _ inRange routed idle begun =>
    have done := @malloc_begins _ _ _ _ _ _ _ _ draws settled idle inRange routed
    rw [begun] at done
    exact done
  | free inRange inside idle begun =>
    obtain ⟨n, held⟩ := disciplined
    obtain ⟨call, found, slot', after⟩ := free_begins settled idle inRange held
    obtain rfl := Except.ok.inj (found.symm.trans begun)
    exact ⟨system, holdings, pool, slot', .nil _, after⟩
  | advance working advanced =>
    obtain ⟨call, state, goes, after⟩ := advances plain settled working
    obtain ⟨rfl, rfl⟩ := Prod.mk.inj (Except.ok.inj (goes.symm.trans advanced))
    exact after
  | store =>
    obtain ⟨addr, n, held, usable⟩ := disciplined
    obtain ⟨system', run, after⟩ := store_matches settled held usable
    exact ⟨system', holdings, pool, slot, run, after⟩

/-! ## Runs -/

/-- The initialized heap, with no thread in a call. -/
def race (c : Config) : HeapRace := ⟨c.start, fun _ => .idle, fun _ => none⟩

theorem settled_start (c : Config) :
    Settled (race c) c.system (fun _ => none) (SlotPool.fresh : Pool c) fun _ => none where
  linear :=
    { represents := represents_start c
      own := own_fresh
      intact := fun _ _ live => absurd live (Set.notMem_empty _)
      holdings := fun p n => by simp [SlotPool.fresh]
      returned := fun _ live => absurd live (Set.notMem_empty _) }
  roster :=
    { exclusive := fun _ _ _ mine => by cases mine
      inRange := fun _ _ mine => by cases mine
      tracks := fun _ => rfl
      held := fun _ _ held => by cases held
      live := fun _ live => absurd live (Set.notMem_empty _) }
  agree :=
    { freelist := rfl
      cfreelist := rfl
      ncfree := rfl
      position := fun _ _ => ⟨rfl, rfl⟩
      links := fun _ => .inl rfl
      unmarked := fun _ _ mine => by cases mine
      mem := fun _ => .inl rfl
      guards := fun _ => by simp [Busy, race, Config.system] }

/-- What the program can tell of the heap that threads use is that of the calls one after the other. -/
structure Matches (c : Config) (t : HeapRace) (system : HeapSystem) (holdings : Holdings) : Prop where
  /-- The blocks of the program were returned there, and are held there. -/
  held : ∀ p n, t.held p = some n → holdings p = some n ∧ (⟨p, n⟩ : Issue) ∈ system.returned
  /-- So are the bytes that it may use. -/
  bytes : ∀ p n a, t.held p = some n → UsableByte c.build p n a → t.state.mem a = system.state.mem a
  /-- With no call in progress nothing differs but the order in which guards were set. -/
  quiescent : (∀ thread, t.calls thread = .idle) → t.held = holdings ∧
    { t.state with guards := system.state.guards } = system.state ∧
    ∀ g, g ∈ t.state.guards ↔ g ∈ system.state.guards

theorem matches_of_settled (settled : Settled t system holdings pool slot) :
    Matches c t system holdings where
  held p n held := by
    obtain ⟨x, live, rfl, rfl⟩ := settled.roster.held p n held
    exact ⟨(settled.linear.holdings ..).mpr ⟨x, live, rfl, rfl⟩, settled.linear.returned x live⟩
  bytes p n a held usable := by
    obtain ⟨x, live, rfl, rfl⟩ := settled.roster.held p n held
    rcases settled.agree.mem a with same | ⟨thread, y, mine, behind⟩
    · exact same
    · obtain rfl := behind.not_usable usable
      exact absurd mine (settled.roster.not_busy held thread)
  quiescent idle := by
    have none (thread : ℕ) : slot thread = .none := settled.roster.slot_idle (idle thread)
    have calm (doing : ObjectCall → Slot c → Prop) : ¬Busy slot t.calls doing := by
      rintro ⟨thread, x, mine, -⟩
      rw [none] at mine
      cases mine
    have agree := settled.agree
    have position (item : ItemRef) := agree.position item fun draw => by
      rw [idle]
      exact ObjectCall.noConfusion
    refine ⟨funext fun p => Option.ext fun n => ?_, ?_, fun g => ?_⟩
    · rw [settled.linear.holdings]
      constructor
      · exact settled.roster.held p n
      · rintro ⟨x, live, rfl, rfl⟩
        rcases settled.roster.live x live with held | ⟨thread, mine⟩
        · exact held
        · rw [none] at mine
          cases mine
    · have links : t.state.links = system.state.links :=
        funext fun a => (agree.links a).resolve_right (calm _)
      have mem : t.state.mem = system.state.mem := funext fun a => (agree.mem a).resolve_right (calm _)
      have places : t.state.position = system.state.position := funext fun item => (position item).1
      have lasts : t.state.lastofCurBag = system.state.lastofCurBag := funext fun item => (position item).2
      simp only [agree.freelist, agree.cfreelist, agree.ncfree, links, mem, places, lasts]
    · rw [agree.guards, or_iff_left (calm _)]

theorem exists_settled (plain : c.build.cfreelist = false) {events : List HeapRaceEvent}
    (run : Run (ProgramStep c.heap) (race c) events t) :
    ∃ system holdings, ∃ (pool : Pool c) (slot : ℕ → Option (Slot c)), Settled t system holdings pool slot :=
  run.invariant
    (fun s => ∃ system holdings, ∃ (pool : Pool c) (slot : ℕ → Option (Slot c)),
      Settled s system holdings pool slot)
    (fun _ _ _ ⟨_, _, _, _, settled⟩ step =>
      let ⟨system, holdings, pool, slot, _, after⟩ := step_matches plain settled step
      ⟨system, holdings, pool, slot, after⟩)
    ⟨_, _, _, _, settled_start c⟩

/-- Steps of threads, with the calls in the order in which they take effect. -/
abbrev LoggedStep (heap : BibopHeap) : HeapRace × List HeapEvent → HeapRaceEvent →
    HeapRace × List HeapEvent → Prop :=
  Recorded (fun s e log => log ++ s.linear e) (ProgramStep heap)

/-- A thread whose steps no other comes between ends its call. -/
theorem exists_idle (plain : c.build.cfreelist = false) (settled : Settled s system holdings pool slot) :
    ∃ k t, Run (ProgramStep c.heap) s (List.replicate k (.advance thread)) t ∧
      t.calls = Function.update s.calls thread .idle := by
  induction left : (s.calls thread).remaining using Nat.strong_induction_on
    generalizing s system holdings pool slot with
  | h left ih =>
    by_cases idle : s.calls thread = .idle
    · exact ⟨0, s, .nil s, by rw [← idle, Function.update_eq_self]⟩
    · obtain ⟨call, state, goes, _, _, _, _, -, after⟩ := advances plain settled idle
      have nearer := (BibopHeap.advance_ok idle goes).1
      obtain ⟨k, t, run, calls⟩ := ih call.remaining (left ▸ nearer) after
        (congrArg _ (Function.update_self ..))
      refine ⟨k + 1, t, .cons ⟨trivial, .advance s idle goes⟩ run, calls.trans ?_⟩
      exact Function.update_idem ..

/-! ## Separation -/

/-- The block that a call in progress handles. -/
def block (heap : BibopHeap) : ObjectCall → Option Region
  | .idle | .bumping .. => none
  | .taken bag ptr | .sealed bag ptr => some ⟨ptr, (heap._threadBag bag).classSize⟩
  | .found object | .walking object _ _ _ | .peeked object _ _ _ | .checked object
  | .destroyed object => some ⟨object.addr, (heap._threadBag object.bag).classSize⟩

theorem block_eq {region : Region} (handles : Handles state pool thread call x)
    (handled : block c.heap call = some region) : region = ⟨x.addr, classSize x.bag⟩ := by
  cases handles <;> simp_all [block, Slot.freeing, Slot.threadBag_classSize]

theorem slots_apart (other : x ≠ y) :
    Region.Apart ⟨x.addr, classSize x.bag⟩ ⟨y.addr, classSize y.bag⟩ :=
  fun _ inside inside' => Slot.outside other inside.1 inside.2 inside'

/-- No byte is in two blocks of the program, or in one of these and one that a call handles, or in
blocks that two calls handle. -/
structure Separate (heap : BibopHeap) (t : HeapRace) : Prop where
  held : ∀ p n q m, t.held p = some n → t.held q = some m → p ≠ q → Region.Apart ⟨p, n⟩ ⟨q, m⟩
  handled : ∀ thread region p n, block heap (t.calls thread) = some region → t.held p = some n →
    region.Apart ⟨p, n⟩
  calls : ∀ thread other region region', thread ≠ other → block heap (t.calls thread) = some region →
    block heap (t.calls other) = some region' → region.Apart region'

/-! ## Progress -/

/-- No step that a thread may take ends the process. -/
structure NeverStops (heap : BibopHeap) (t : HeapRace) : Prop where
  malloc : ∀ thread sz draws, thread < MAX_ALIVE_THREADS → heap.build.IF_CANARY_CONDITION sz = false →
    t.calls thread = .idle → ∃ next, ProgramStep heap t (.malloc thread sz draws) next
  free : ∀ thread addr n, thread < MAX_ALIVE_THREADS → t.held addr = some n →
    t.calls thread = .idle → ∃ next, ProgramStep heap t (.free thread addr) next
  advance : ∀ thread, t.calls thread ≠ .idle → ∃ next, ProgramStep heap t (.advance thread) next

theorem neverStops (plain : c.build.cfreelist = false) (settled : Settled t system holdings pool slot) :
    NeverStops c.heap t where
  malloc thread sz draws inRange routed idle := ⟨_, trivial, .malloc t inRange routed idle rfl⟩
  free thread addr n inRange held idle := by
    obtain ⟨call, found, -⟩ := free_begins settled idle inRange held
    obtain ⟨x, -, rfl, -⟩ := settled.roster.held addr n held
    exact ⟨_, ⟨n, held⟩, .free t inRange x.heapBegin_le idle found⟩
  advance thread working := by
    obtain ⟨call, state, goes, -⟩ := advances plain settled working
    exact ⟨_, trivial, .advance t working goes⟩

/-- The event begins a call of the thread. -/
def Begins (thread : ℕ) : HeapRaceEvent → Prop
  | .malloc other _ _ | .free other _ => other = thread
  | _ => False

/-- The steps that a call takes at most after its first. -/
def steps : HeapRaceEvent → ℕ
  | .malloc .. => 3
  | .free .. => 5 + 4 * NUM_MORE_CANARIES_TO_CHECK
  | _ => 0

/-- What a thread has left to do after the first step of a call. -/
theorem remaining_begins (step : HeapRaceStep c.heap s e t) (begins : Begins thread e) :
    (t.calls thread).remaining ≤ steps e := by
  cases step with
  | @malloc other sz draws call state inRange routed idle begun =>
    obtain rfl : other = thread := begins
    rw [beginMalloc_eq routed] at begun
    simp only [Function.update_self]
    split at begun <;> cases begun <;> simp [ObjectCall.remaining, steps]
  | @free other addr call inRange inside idle begun =>
    obtain rfl : other = thread := begins
    obtain ⟨object, rfl⟩ := BibopHeap.beginFree_ok begun
    simp [ObjectCall.remaining, steps]
  | advance => exact begins.elim
  | store => exact begins.elim

/-- A call comes nearer to its end by its own steps, and by no other. -/
theorem remaining_step (step : HeapRaceStep c.heap s e t) (quiet : ¬Begins thread e) :
    (t.calls thread).remaining + (if e = .advance thread then 1 else 0) ≤ (s.calls thread).remaining := by
  cases step with
  | @malloc other _ _ _ _ inRange routed idle begun =>
    have apart : thread ≠ other := fun same => quiet same.symm
    simp [Function.update_of_ne apart]
  | @free other _ _ inRange inside idle begun =>
    have apart : thread ≠ other := fun same => quiet same.symm
    simp [Function.update_of_ne apart]
  | @advance other call state working advanced =>
    have nearer := (BibopHeap.advance_ok working advanced).1
    rcases eq_or_ne other thread with rfl | apart
    · simpa [Nat.succ_le_iff] using nearer
    · simp [Function.update_of_ne (Ne.symm apart), apart]
  | store => simp

/-- So it does along a run. -/
theorem remaining_run {events : List HeapRaceEvent} (run : Run (ProgramStep c.heap) s events t)
    (quiet : ∀ e ∈ events, ¬Begins thread e) :
    events.count (.advance thread) + (t.calls thread).remaining ≤ (s.calls thread).remaining := by
  induction run with
  | nil s => simp
  | cons head _ ih =>
    obtain ⟨now, later⟩ := List.forall_mem_cons.mp quiet
    have first := remaining_step head.2 now
    have rest := ih later
    rw [List.count_cons]
    simp only [beq_iff_eq]
    omega

end FreeGuard.Soundness.ConcurrentHeap
