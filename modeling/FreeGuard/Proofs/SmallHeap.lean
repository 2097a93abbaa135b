import FreeGuard.Proofs.BumpPointer
import FreeGuard.Proofs.FreeList
import FreeGuard.Proofs.SizeClass

/-! # The small heap as a slot pool

`Represents` relates a state of the small heap to a pool of slots: the bump pointers are the cursors,
the free lists and cached lists hold the entries of the queued slots, and an entry is marked exactly
when its slot is live. An allocation takes or bumps, and a deallocation that reaches a marked entry
releases, whatever address led to that entry.
-/

namespace FreeGuard.Model

open Machine

/-- The lists of the small heap: the free list of an item, and the cached list of a bag. -/
abbrev Queue := ItemRef ⊕ BagRef

/-- The bag that a list belongs to. -/
def Queue.bag : Queue → BagRef
  | .inl item => item.1
  | .inr bag => bag

/-- A pool of the slots of a heap. -/
abbrev Pool (c : Config) := SlotPool (Slot c) (Lane c) Queue

variable {c : Config} {s t : HeapState} {x y : Slot c}

/-- The entry of `x` is the one that the decoder yields for the `i`-th block of a bag. -/
def Slot.BlockOf (x : Slot c) (bag : BagRef) (i : ℕ) : Prop :=
  bag.1 < MAX_ALIVE_THREADS ∧ i * classSize bag.2 < c.bagSize ∧
    x.rank = c.rankAt bag.1 bag.2 (i * classSize bag.2)

theorem Slot.blockOf_bagRef (x : Slot c) : x.BlockOf x.bagRef x.index :=
  ⟨x.thread_lt, x.offset_lt, x.rankAt_offset.symm⟩

/-- A slot's own bag leads back to its address. -/
theorem Slot.addr_of_block {i : ℕ} (block : x.BlockOf x.bagRef i) :
    c.bagBegin x.heap x.thread x.bag + i * classSize x.bag = x.addr := by
  obtain ⟨-, -, rank⟩ := block
  have index : x.rank = c.rankAt x.thread x.bag (i * classSize x.bag) := rank
  rw [Config.rankAt, if_pos x.bag_lt, Nat.mul_div_cancel _ (classSize_pos _), Slot.rank] at index
  have same : i = x.index := by omega
  simp only [same, Slot.addr]

/-- A slot is live when its shadow entry is marked. -/
def Slot.Live (s : HeapState) (x : Slot c) : Prop := s.links x.entry = ALLOC_SENTINEL

/-- The heads and link words of the lists hold the entries of the queued slots. -/
structure Lists (c : Config) (s : HeapState) (queue : Queue → List (Slot c)) : Prop where
  freelist : ∀ item, (s.freelist item).Holds s.links ((queue (.inl item)).map Slot.entry)
  built : ∀ item, (s.freelist item).Built c.build
  cached : ∀ bag, Chain s.links (s.cfreelist bag).next ((queue (.inr bag)).map Slot.entry)
  ncfree : ∀ bag, s.ncfree bag = (queue (.inr bag)).length

/-- A state of the small heap and the pool that it stores. -/
structure Represents (c : Config) (s : HeapState) (pool : Pool c) : Prop where
  lanes : ∀ l : Lane c, l.At (pool.cursor l) s
  lists : Lists c s pool.queue
  marked : ∀ a, s.links a = ALLOC_SENTINEL ↔ ∃ x ∈ pool.live, x.entry = a
  skipped : ∀ x, x ∈ pool.skipped ↔
    ∃ g ∈ s.guards, g.random = true ∧ g.addr ≤ x.addr ∧ x.addr < g.addr + g.size
  /-- A slot is queued in a bag from which the encoder returns to the address that was freed. -/
  blocks : ∀ q, ∀ x ∈ pool.queue q, q.bag.2 < c.usable → ∃ i, x.BlockOf q.bag i
  partition : pool.Partition c.slots

/-! ## Lists -/

section Lists

variable {queue : Queue → List (Slot c)}

theorem Slot.entry_mem_iff {xs : List (Slot c)} : x.entry ∈ xs.map Slot.entry ↔ x ∈ xs := by
  simp only [List.mem_map]
  exact ⟨fun ⟨_, member, same⟩ => entry_inj same ▸ member, fun member => ⟨x, member, rfl⟩⟩

theorem Slot.map_entry_nodup {xs : List (Slot c)} (nodup : xs.Nodup) : (xs.map Slot.entry).Nodup :=
  nodup.map fun _ _ => entry_inj

theorem Slot.null_notMem (xs : List (Slot c)) : NULL ∉ xs.map Slot.entry := by
  simp only [List.mem_map, not_exists, not_and]
  exact fun x _ => x.entry_ne_null

/-- Only the heads and the links of queued entries matter. -/
theorem Lists.congr (lists : Lists c s queue) (freelist : t.freelist = s.freelist)
    (cfreelist : t.cfreelist = s.cfreelist) (ncfree : t.ncfree = s.ncfree)
    (links : ∀ q, ∀ x ∈ queue q, t.links x.entry = s.links x.entry) : Lists c t queue := by
  have same (q : Queue) : ∀ a ∈ (queue q).map Slot.entry, t.links a = s.links a := by
    intro a member
    obtain ⟨x, queued, rfl⟩ := List.mem_map.mp member
    exact links q x queued
  refine ⟨?_, ?_, ?_, ?_⟩
  · exact fun item => freelist ▸ (lists.freelist item).frame (same (.inl item))
  · exact fun item => freelist ▸ lists.built item
  · exact fun bag => cfreelist ▸ (lists.cached bag).frame (same (.inr bag))
  · exact fun bag => ncfree ▸ lists.ncfree bag

theorem Lists.isEmpty_iff (lists : Lists c s queue) (item : ItemRef) :
    IS_FREELIST_EMPTY (s.freelist item) = true ↔ queue (.inl item) = [] :=
  (Model.isEmpty_iff (lists.freelist item)).trans List.map_eq_nil_iff

/-- Taking the first entry of a free list. -/
theorem Lists.remove (lists : Lists c s queue) {item : ItemRef} {rest : List (Slot c)}
    (head : queue (.inl item) = x :: rest) :
    (FREELIST_REMOVE s.links (s.freelist item)).1 = x.entry ∧
      Lists c { s with
          freelist := Function.update s.freelist item (FREELIST_REMOVE s.links (s.freelist item)).2 }
        (Function.update queue (.inl item) rest) := by
  have holds := lists.freelist item
  rw [head, List.map_cons] at holds
  obtain ⟨first, remaining⟩ := remove_holds holds
  refine ⟨first, ⟨?_, ?_, ?_, ?_⟩⟩
  · intro other
    rcases eq_or_ne other item with rfl | same
    · simpa using remaining
    · simpa [Function.update_of_ne, same] using lists.freelist other
  · intro other
    rcases eq_or_ne other item with rfl | same
    · simpa using remove_built (lists.built other)
    · simpa [Function.update_of_ne, same] using lists.built other
  · intro bag
    simpa using lists.cached bag
  · intro bag
    simpa using lists.ncfree bag

/-- Inserting the entry of an unqueued slot into a free list. -/
theorem Lists.insert (lists : Lists c s queue) (nodup : ∀ q, (queue q).Nodup)
    (disjoint : ∀ q r y, y ∈ queue q → y ∈ queue r → q = r) (unqueued : ∀ q, x ∉ queue q)
    (item : ItemRef) :
    Lists c (BibopHeap.insertFreelist item x.entry s)
      (Function.update queue (.inl item) ((s.freelist item).inserted x (queue (.inl item)))) := by
  have holds := lists.freelist item
  have fresh : x.entry ∉ (queue (.inl item)).map Slot.entry :=
    fun member => unqueued _ (Slot.entry_mem_iff.mp member)
  have off (q : Queue) (other : q ≠ .inl item) : ∀ a ∈ (queue q).map Slot.entry,
      (FREELIST_INSERT s.links x.entry (s.freelist item)).1 a = s.links a := by
    intro a member
    obtain ⟨y, queued, rfl⟩ := List.mem_map.mp member
    apply insert_frame holds
    rw [List.mem_cons, Slot.entry_mem_iff]
    rintro (same | elsewhere)
    · obtain rfl := Slot.entry_inj same
      exact unqueued q queued
    · exact other (disjoint _ _ y queued elsewhere)
  have inserted := insert_holds holds (Slot.map_entry_nodup (nodup _)) fresh x.entry_ne_null
  rw [← FreeList.map_inserted] at inserted
  refine ⟨?_, ?_, ?_, ?_⟩
  · intro other
    rcases eq_or_ne other item with rfl | same
    · simpa [BibopHeap.insertFreelist] using inserted
    · simpa [BibopHeap.insertFreelist, Function.update_of_ne, same] using
        (lists.freelist other).frame (off (.inl other) (by simpa using same))
  · intro other
    rcases eq_or_ne other item with rfl | same
    · simpa [BibopHeap.insertFreelist] using insert_built (lists.built other)
    · simpa [BibopHeap.insertFreelist, Function.update_of_ne, same] using lists.built other
  · intro bag
    simpa [BibopHeap.insertFreelist] using (lists.cached bag).frame (off (.inr bag) (by simp))
  · intro bag
    simpa [BibopHeap.insertFreelist] using lists.ncfree bag

/-- Inserting the entry of an unqueued slot into the cached list of a bag. -/
theorem Lists.insertCached (lists : Lists c s queue) (unqueued : ∀ q, x ∉ queue q) (bag : BagRef) :
    Lists c (BibopHeap.insertCached bag x.entry s)
      (Function.update queue (.inr bag) (x :: queue (.inr bag))) := by
  have off (q : Queue) : ∀ a ∈ (queue q).map Slot.entry,
      Function.update s.links x.entry (s.cfreelist bag).next a = s.links a := by
    intro a member
    obtain ⟨y, queued, rfl⟩ := List.mem_map.mp member
    refine Function.update_of_ne (fun same => ?_) _ _
    obtain rfl := Slot.entry_inj same
    exact unqueued q queued
  refine ⟨?_, ?_, ?_, ?_⟩
  · intro item
    simpa [BibopHeap.insertCached, insertSLLHead] using
      (lists.freelist item).frame (off (.inl item))
  · intro item
    simpa [BibopHeap.insertCached] using lists.built item
  · intro other
    have kept := (lists.cached other).frame (off (.inr other))
    rcases eq_or_ne other bag with rfl | same
    · have chain := lists.cached other
      have fresh : x.entry ∉ (queue (.inr other)).map Slot.entry :=
        fun member => unqueued _ (Slot.entry_mem_iff.mp member)
      simp only [BibopHeap.insertCached, insertSLLHead, Function.update_self]
      exact ⟨chain.1.push_front fresh, Slot.null_notMem (x :: queue (.inr other))⟩
    · simpa [BibopHeap.insertCached, insertSLLHead, Function.update_of_ne, same] using kept
  · intro other
    rcases eq_or_ne other bag with rfl | same
    · simp [BibopHeap.insertCached, lists.ncfree]
    · simpa [BibopHeap.insertCached, Function.update_of_ne, same] using lists.ncfree other

/-- Merging the cached list of a bag into the free list of one of its items. -/
theorem Lists.merge (lists : Lists c s queue) (nodup : ∀ q, (queue q).Nodup)
    (disjoint : ∀ q r y, y ∈ queue q → y ∈ queue r → q = r) {bag : BagRef}
    (nonempty : queue (.inr bag) ≠ []) (item : ℕ) :
    ∃ t, BibopHeap.realFreeCurrentList bag item s = .ok t ∧
      Lists c t (Function.update (Function.update queue (.inr bag) []) (.inl (bag, item))
        ((s.freelist (bag, item)).merged (queue (.inr bag)) (queue (.inl (bag, item))))) ∧
      t.position = s.position ∧ t.lastofCurBag = s.lastofCurBag ∧ t.guards = s.guards ∧
      ∀ a, (∀ q, a ∉ (queue q).map Slot.entry) → t.links a = s.links a := by
  have nodup' : (queue (.inr bag) ++ queue (.inl (bag, item))).Nodup := by
    refine List.nodup_append.mpr ⟨nodup _, nodup _, ?_⟩
    rintro y inCached z inFree rfl
    cases disjoint _ _ y inCached inFree
  have enough : ((queue (.inr bag)).map Slot.entry).length ≤ s.ncfree bag := by
    rw [lists.ncfree, List.length_map]
  obtain ⟨links, list, ran, holds, built, frame⟩ := merge_holds
    (lists.freelist (bag, item)) (lists.built _) (lists.cached bag)
    (by simpa using nonempty) (by rw [← List.map_append]; exact Slot.map_entry_nodup nodup') enough
  rw [← FreeList.map_merged] at holds
  have off (q : Queue) (notCached : q ≠ .inr bag) (notFree : q ≠ .inl (bag, item)) :
      ∀ a ∈ (queue q).map Slot.entry, links a = s.links a := by
    intro a member
    obtain ⟨y, queued, rfl⟩ := List.mem_map.mp member
    apply frame _
    rw [← List.map_append, Slot.entry_mem_iff, List.mem_append]
    rintro (inCached | inFree)
    · exact notCached (disjoint _ _ y queued inCached)
    · exact notFree (disjoint _ _ y queued inFree)
  let merged : HeapState := { s with
    links := links
    freelist := Function.update s.freelist (bag, item) list
    ncfree := Function.update s.ncfree bag 0
    cfreelist := Function.update s.cfreelist bag initSLL }
  refine ⟨merged, by simp only [BibopHeap.realFreeCurrentList, ran, merged], ⟨?_, ?_, ?_, ?_⟩, rfl, rfl,
    rfl, ?_⟩ <;> simp only [merged]
  · intro other
    rcases eq_or_ne other (bag, item) with rfl | same
    · simpa using holds
    · simpa [Function.update_of_ne, same] using
        (lists.freelist other).frame (off (.inl other) (by simp) (by simpa using same))
  · intro other
    rcases eq_or_ne other (bag, item) with rfl | same
    · simpa using built
    · simpa [Function.update_of_ne, same] using lists.built other
  · intro other
    rcases eq_or_ne other bag with rfl | same
    · simp [initSLL, Chain]
    · simpa [Function.update_of_ne, same] using
        (lists.cached other).frame (off (.inr other) (by simpa using same) (by simp))
  · intro other
    rcases eq_or_ne other bag with rfl | same
    · simp
    · simpa [Function.update_of_ne, same] using lists.ncfree other
  · intro a outside
    apply frame a
    rw [List.mem_append]
    exact not_or.mpr ⟨outside _, outside _⟩

end Lists

/-! ## Allocation -/

section Allocation

variable {pool pool' : Pool c} {l : Lane c} {draws : Draws}

/-- Only the lists, link words, bump pointers and guards matter. -/
theorem Represents.congr (rep : Represents c s pool) (freelist : t.freelist = s.freelist)
    (cfreelist : t.cfreelist = s.cfreelist) (ncfree : t.ncfree = s.ncfree)
    (links : t.links = s.links) (position : t.position = s.position)
    (last : t.lastofCurBag = s.lastofCurBag) (guards : t.guards = s.guards) :
    Represents c t pool where
  lanes l := ⟨position ▸ (rep.lanes l).position, last ▸ (rep.lanes l).last⟩
  lists := rep.lists.congr freelist cfreelist ncfree fun _ _ _ => links ▸ rfl
  marked := links ▸ rep.marked
  skipped := guards ▸ rep.skipped
  blocks := rep.blocks
  partition := rep.partition

theorem Represents.live_iff (rep : Represents c s pool) : x ∈ pool.live ↔ x.Live s := by
  rw [Slot.Live, rep.marked]
  exact ⟨fun live => ⟨x, live, rfl⟩, fun ⟨_, live, same⟩ => Slot.entry_inj same ▸ live⟩

theorem Represents.reached_iff (rep : Represents c s pool) :
    pool.Reached c.slots x ↔ x.addr < s.position x.lane.ref := by
  rw [(rep.lanes x.lane).position, Lane.addr_lt_iff]
  rfl

/-- A bump pointer moves exactly when its cursor does. -/
theorem Represents.position_eq_iff (rep : Represents c s pool) (after : Represents c t pool') :
    t.position l.ref = s.position l.ref ↔ pool'.cursor l = pool.cursor l := by
  rw [(after.lanes l).position, (rep.lanes l).position]
  exact l.addr_strictMono.injective.eq_iff

theorem Slot.isObjectFree_iff : BibopHeap.isObjectFree s x.entry = true ↔ ¬x.Live s := by
  simp [BibopHeap.isObjectFree, Slot.Live]

/-- The entry that the decoder yields for a block of the bag is the slot's own. -/
theorem Slot.BlockOf.decode {bag : BagRef} {i : ℕ} (block : x.BlockOf bag i)
    (usable : bag.2 < c.usable) :
    c.heap.getShadowObjectInfoIn (c.bagBegin x.heap bag.1 bag.2 + i * classSize bag.2) bag =
      x.entry := by
  obtain ⟨thread, inside, rank⟩ := block
  rw [Slot.entry, rank]
  exact Config.getShadowObjectInfoIn_at thread usable inside

theorem Slot.BlockOf.encode {bag : BagRef} {i : ℕ} (block : x.BlockOf bag i)
    (usable : bag.2 < c.usable) :
    c.heap.getAddrFromShadowInfo x.entry bag =
      c.bagBegin x.heap bag.1 bag.2 + i * classSize bag.2 := by
  obtain ⟨thread, inside, rank⟩ := block
  rw [Slot.entry, rank]
  exact Config.getAddrFromShadowInfo_at thread usable inside

/-- Marking the entry of a slot that an allocation has made live in the pool. -/
theorem Represents.mark (rep : Represents c s pool) {bag : BagRef} {ptr : ℕ}
    (decoded : c.heap.getShadowObjectInfoIn ptr bag = x.entry) (links : t.links = s.links)
    (lanes : ∀ l : Lane c, l.At (pool'.cursor l) t) (lists : Lists c t pool'.queue)
    (live : pool'.live = insert x pool.live)
    (skipped : ∀ x, x ∈ pool'.skipped ↔
      ∃ g ∈ t.guards, g.random = true ∧ g.addr ≤ x.addr ∧ x.addr < g.addr + g.size)
    (blocks : ∀ q, ∀ x ∈ pool'.queue q, q.bag.2 < c.usable → ∃ i, x.BlockOf q.bag i)
    (partition : pool'.Partition c.slots) : Represents c (c.heap.markObject bag ptr t) pool' := by
  refine ⟨fun l => ⟨(lanes l).position, (lanes l).last⟩, ?_, ?_, skipped, blocks, partition⟩
  · refine lists.congr rfl rfl rfl fun q y queued => ?_
    change Function.update t.links (c.heap.getShadowObjectInfoIn ptr bag) _ _ = _
    rw [decoded]
    refine Function.update_of_ne (fun same => ?_) _ _
    obtain rfl := Slot.entry_inj same
    exact partition.queued_not_live q y queued (live ▸ Set.mem_insert ..)
  · intro a
    change Function.update t.links (c.heap.getShadowObjectInfoIn ptr bag) _ a = _ ↔ _
    rw [decoded, links, live]
    rcases eq_or_ne a x.entry with rfl | same
    · simp
    · rw [Function.update_of_ne same, rep.marked]
      constructor
      · exact fun ⟨y, member, at'⟩ => ⟨y, .inr member, at'⟩
      · rintro ⟨y, rfl | member, at'⟩
        · exact absurd at'.symm same
        · exact ⟨y, member, at'⟩

/-- An allocation that uses the free list takes its first slot. -/
theorem Represents.reuse (rep : Represents c s pool)
    (item : (c.heap.selectList draws.list).1 = l.item)
    (nonempty : IS_FREELIST_EMPTY (s.freelist l.ref) = false)
    (unforced : (c.heap.selectList draws.list).2 = false) :
    ∃ x rest i t, pool.queue (.inl l.ref) = x :: rest ∧ x.BlockOf l.bagRef i ∧
      c.heap.takeObject l.bagRef draws s =
        (c.bagBegin x.heap l.thread l.bag + i * classSize l.bag, t) ∧ t.guards = s.guards ∧
      Represents c (c.heap.markObject l.bagRef
        (c.bagBegin x.heap l.thread l.bag + i * classSize l.bag) t) (pool.take (.inl l.ref) x rest) := by
  obtain ⟨x, rest, head⟩ : ∃ x rest, pool.queue (.inl l.ref) = x :: rest := by
    apply List.exists_cons_of_ne_nil
    intro empty
    rw [(rep.lists.isEmpty_iff l.ref).mpr empty] at nonempty
    cases nonempty
  have queued : x ∈ pool.queue (.inl l.ref) := head ▸ List.mem_cons_self ..
  obtain ⟨i, block⟩ := rep.blocks _ x queued l.bag_lt
  obtain ⟨first, lists⟩ := rep.lists.remove head
  refine ⟨x, rest, i, _, head, block, ?_, ?_, rep.mark (block.decode l.bag_lt) ?_ ?_ lists rfl ?_ ?_
    (rep.partition.take head)⟩
  · have same : (l.bagRef, l.item) = l.ref := rfl
    simp only [BibopHeap.takeObject, item, same, nonempty, unforced, Bool.not_false, Bool.and_true,
      if_true, first]
    rw [show c.heap.getAddrFromShadowInfo x.entry l.bagRef = _ from block.encode l.bag_lt]
    rfl
  · rfl
  · rfl
  · exact fun l => ⟨(rep.lanes l).position, (rep.lanes l).last⟩
  · exact rep.skipped
  · intro q y member
    exact rep.blocks q y (SlotPool.mem_take_queue head member)

/-- The page at the end of a bag is no random guard. -/
theorem Lane.random_entered {n : ℕ} {g : Guard} (member : g ∈ l.entered n) : g.random = false := by
  rw [Lane.entered] at member
  split at member
  · rw [List.mem_singleton.mp member]
    rfl
  · cases member

/-- The random guards that an allocation at a place sets. -/
theorem Lane.random_guardsSet {n : ℕ} {draw : BitVec 32} {g : Guard} :
    (g ∈ l.guardsSet n draw ∧ g.random = true) ↔
      l.Guards (n + 1) draw ∧ g = l.randomGuard (n + 1) := by
  rw [Lane.guardsSet, List.mem_append]
  constructor
  · rintro ⟨first | second, random⟩
    · rw [Lane.random_entered first] at random
      cases random
    · split at second
      · rename_i fires
        rcases List.mem_cons.mp second with rfl | after
        · exact ⟨fires, rfl⟩
        · rw [Lane.random_entered after] at random
          cases random
      · cases second
  · rintro ⟨fires, rfl⟩
    rw [if_pos fires]
    exact ⟨.inr (List.mem_cons_self ..), rfl⟩

/-- An allocation that uses the bump pointer hands out the next slot of the lane. -/
theorem Represents.bump (rep : Represents c s pool)
    (item : (c.heap.selectList draws.list).1 = l.item)
    (bump : IS_FREELIST_EMPTY (s.freelist l.ref) = true ∨
      (c.heap.selectList draws.list).2 = true) :
    ∃ t, c.heap.takeObject l.bagRef draws s = ((l.slot (pool.cursor l)).addr, t) ∧
      t.guards = s.guards ++ l.guardsSet (pool.cursor l) draws.guard ∧
      Represents c (c.heap.markObject l.bagRef (l.slot (pool.cursor l)).addr t)
        (pool.bump c.slots (l.slot (pool.cursor l)) (l.skips (pool.cursor l) draws.guard)) := by
  generalize cursor : pool.cursor l = n
  have start := rep.lanes l
  rw [cursor] at start
  have lane : c.slots.lane (l.slot n) = l := l.slot_lane n
  have seq : c.slots.seq (l.slot n) = n := l.slot_seq n
  refine ⟨_, Lane.takeObject_bump start item bump, rfl, rep.mark (x := l.slot n)
    (l.slot n).getShadowObjectInfoIn_addr rfl ?_ ?_ rfl ?_ rep.blocks
    (rep.partition.bump (by rw [lane, seq, cursor]))⟩
  · intro k
    simp only [SlotPool.bump, lane, seq]
    rcases eq_or_ne k l with rfl | same
    · rw [Function.update_self]
      exact k.at_move ..
    · rw [Function.update_of_ne same]
      have apart : k.ref ≠ l.ref := fun equal => same (Lane.ref_inj equal)
      exact ⟨(Function.update_of_ne apart ..).trans (rep.lanes k).position,
        (Function.update_of_ne apart ..).trans (rep.lanes k).last⟩
  · exact rep.lists.congr rfl rfl rfl fun _ _ _ => rfl
  · intro y
    simp only [SlotPool.bump, lane, seq, Set.mem_union, Set.mem_ofPred_eq, rep.skipped, Lane.move,
      List.mem_append]
    have new : (c.slots.lane y = l ∧ n < c.slots.seq y ∧
          c.slots.seq y ≤ n + l.skips n draws.guard) ↔
        ∃ g ∈ l.guardsSet n draws.guard, g.random = true ∧ g.addr ≤ y.addr ∧
          y.addr < g.addr + g.size := by
      constructor
      · rintro ⟨lane, after, before⟩
        rw [Lane.skips] at before
        split at before
        · rename_i fires
          obtain ⟨member, random⟩ := Lane.random_guardsSet.mpr ⟨fires, rfl⟩
          have covered := (Lane.covered_iff fires.2.1).mpr ⟨lane, after, by
            change y.seq ≤ _ at before
            omega⟩
          exact ⟨_, member, random, covered⟩
        · omega
      · rintro ⟨g, member, random, covered⟩
        obtain ⟨fires, rfl⟩ := Lane.random_guardsSet.mp ⟨member, random⟩
        obtain ⟨lane, after, before⟩ := (Lane.covered_iff fires.2.1).mp covered
        refine ⟨lane, after, ?_⟩
        rw [Lane.skips, if_pos fires]
        change y.seq ≤ _
        omega
    rw [new]
    constructor
    · rintro (⟨g, member, rest⟩ | ⟨g, member, rest⟩)
      · exact ⟨g, .inl member, rest⟩
      · exact ⟨g, .inr member, rest⟩
    · rintro ⟨g, member | member, rest⟩
      · exact .inl ⟨g, member, rest⟩
      · exact .inr ⟨g, member, rest⟩

end Allocation

/-! ## Deallocation -/

section Deallocation

variable {pool pool' : Pool c} {bag : BagRef} {item threadIndex addr : ℕ}

/-- The link of a node in a chain of entries is no mark. -/
theorem Chain.link_ne_sentinel {links : LinkWords} {head : ℕ} {xs : List (Slot c)}
    (chain : Chain links head (xs.map Slot.entry)) (member : x ∈ xs) :
    links x.entry ≠ ALLOC_SENTINEL := by
  rcases chain.1.next_mem (Slot.entry_mem_iff.mpr member) with inside | null
  · obtain ⟨y, -, same⟩ := List.mem_map.mp inside
    rw [← same]
    exact y.entry_ne_sentinel
  · rw [null]
    decide

/-- A queued entry is not marked. -/
theorem Lists.link_ne_sentinel {queue : Queue → List (Slot c)} (lists : Lists c s queue) {q : Queue}
    (queued : x ∈ queue q) : s.links x.entry ≠ ALLOC_SENTINEL := by
  cases q with
  | inl item =>
    have holds := lists.freelist item
    generalize s.freelist item = list at holds
    cases list with
    | sll slist => exact Chain.link_ne_sentinel holds queued
    | dll dlist => exact holds.1.link_ne_sentinel queued
  | inr bag => exact (lists.cached bag).link_ne_sentinel queued

/-- Moving slots between lists, or from the live slots to a list. -/
theorem Represents.relist (rep : Represents c s pool) (lists : Lists c t pool'.queue)
    (frame : ∀ a, (∀ q, a ∉ (pool'.queue q).map Slot.entry) → t.links a = s.links a)
    (position : t.position = s.position) (last : t.lastofCurBag = s.lastofCurBag)
    (guards : t.guards = s.guards) (cursor : pool'.cursor = pool.cursor)
    (skipped : pool'.skipped = pool.skipped)
    (live : ∀ y, y ∈ pool'.live ↔ y ∈ pool.live ∧ ∀ q, y ∉ pool'.queue q)
    (blocks : ∀ q, ∀ x ∈ pool'.queue q, q.bag.2 < c.usable → ∃ i, x.BlockOf q.bag i)
    (partition : pool'.Partition c.slots) : Represents c t pool' := by
  refine ⟨fun l => ?_, lists, fun a => ?_, ?_, blocks, partition⟩
  · rw [cursor]
    exact ⟨position ▸ (rep.lanes l).position, last ▸ (rep.lanes l).last⟩
  · constructor
    · intro mark
      have outside : ∀ q, a ∉ (pool'.queue q).map Slot.entry := by
        intro q member
        obtain ⟨y, queued, rfl⟩ := List.mem_map.mp member
        exact lists.link_ne_sentinel queued mark
      obtain ⟨y, wasLive, rfl⟩ := (rep.marked a).mp (frame a outside ▸ mark)
      exact ⟨y, (live y).mpr ⟨wasLive, fun q queued => outside q (Slot.entry_mem_iff.mpr queued)⟩, rfl⟩
    · rintro ⟨y, isLive, rfl⟩
      obtain ⟨wasLive, unqueued⟩ := (live y).mp isLive
      rw [frame _ fun q member => unqueued q (Slot.entry_mem_iff.mp member)]
      exact rep.live_iff.mp wasLive
  · rw [skipped, guards]
    exact rep.skipped

/-- What a deallocation of the slot `x` through a bag and an item does to the pool. -/
structure Released (pool pool' : Pool c) (x : Slot c) (bag : BagRef) (item : ℕ) : Prop where
  live : pool'.live = pool.live \ {x}
  queued : ∀ q, ∀ y ∈ pool'.queue q, y = x ∧ q.bag = bag ∨ ∃ r, r.bag = q.bag ∧ y ∈ pool.queue r
  home : c.build.cfreelist = false →
    ∀ q, ∀ y ∈ pool'.queue q, y = x ∧ q = .inl (bag, item) ∨ y ∈ pool.queue q

/-- Releasing into a list of a bag. -/
theorem Represents.release (rep : Represents c s pool) (live : x ∈ pool.live)
    (block : bag.2 < c.usable → ∃ i, x.BlockOf bag i) {q : Queue} (ofBag : q.bag = bag)
    {xs : List (Slot c)} (perm : xs.Perm (x :: pool.queue q))
    (lists : Lists c t (Function.update pool.queue q xs))
    (frame : ∀ a, a ∉ x.entry :: (pool.queue q).map Slot.entry → t.links a = s.links a)
    (position : t.position = s.position) (last : t.lastofCurBag = s.lastofCurBag)
    (guards : t.guards = s.guards) : Represents c t (pool.release x q xs) := by
  have member (r : Queue) (y : Slot c) : y ∈ (pool.release x q xs).queue r ↔
      y ∈ pool.queue r ∨ (r = q ∧ y = x) := SlotPool.mem_release_queue perm
  refine rep.relist lists ?_ position last guards rfl rfl ?_ ?_ (rep.partition.release live perm)
  · intro a outside
    apply frame a
    have here := outside q
    rw [← List.map_cons]
    intro inside
    obtain ⟨y, among, rfl⟩ := List.mem_map.mp inside
    refine here (Slot.entry_mem_iff.mpr ((member q y).mpr ?_))
    rcases List.mem_cons.mp among with rfl | queued
    · exact .inr ⟨rfl, rfl⟩
    · exact .inl queued
  · intro y
    constructor
    · rintro ⟨wasLive, other⟩
      refine ⟨wasLive, fun r queued => ?_⟩
      rcases (member r y).mp queued with old | ⟨-, same⟩
      · exact rep.partition.queued_not_live r y old wasLive
      · exact other same
    · rintro ⟨wasLive, unqueued⟩
      refine ⟨wasLive, ?_⟩
      rintro rfl
      exact unqueued q ((member q y).mpr (.inr ⟨rfl, rfl⟩))
  · intro r y queued usable
    rcases (member r y).mp queued with old | ⟨rfl, rfl⟩
    · exact rep.blocks r y old usable
    · rw [ofBag] at usable ⊢
      exact block usable

/-- Inserting the entry of a live slot into a free list. -/
theorem Represents.insertFreelist (rep : Represents c s pool) (live : x ∈ pool.live)
    (block : bag.2 < c.usable → ∃ i, x.BlockOf bag i) (item : ℕ) :
    ∃ pool', Represents c (BibopHeap.insertFreelist (bag, item) x.entry s) pool' ∧
      Released pool pool' x bag item := by
  have parts := rep.partition
  have perm := FreeList.inserted_perm x (pool.queue (.inl (bag, item))) (s.freelist (bag, item))
  refine ⟨_, rep.release live block (q := .inl (bag, item)) rfl perm
    (rep.lists.insert parts.queue_nodup parts.queue_disjoint
      (fun q queued => parts.queued_not_live q x queued live) (bag, item)) ?_ rfl rfl rfl, rfl, ?_, ?_⟩
  · exact fun a off => insert_frame (rep.lists.freelist (bag, item)) off
  · intro q y queued
    rcases (SlotPool.mem_release_queue perm).mp queued with old | ⟨rfl, rfl⟩
    · exact .inr ⟨q, rfl, old⟩
    · exact .inl ⟨rfl, rfl⟩
  · intro _ q y queued
    rcases (SlotPool.mem_release_queue perm).mp queued with old | ⟨rfl, rfl⟩
    · exact .inr old
    · exact .inl ⟨rfl, rfl⟩

/-- Inserting the entry of a live slot into the cached list of a bag. -/
theorem Represents.insertCached (rep : Represents c s pool) (live : x ∈ pool.live)
    (block : bag.2 < c.usable → ∃ i, x.BlockOf bag i) :
    Represents c (BibopHeap.insertCached bag x.entry s)
      (pool.release x (.inr bag) (x :: pool.queue (.inr bag))) := by
  refine rep.release live block (q := .inr bag) rfl (.refl _)
    (rep.lists.insertCached (fun q queued => rep.partition.queued_not_live q x queued live) bag) ?_
    rfl rfl rfl
  intro a off
  exact Function.update_of_ne (fun same => off (List.mem_cons.mpr (.inl same))) _ _

/-- Merging a cached list into a free list of its bag. -/
theorem Represents.realFreeCurrentList (rep : Represents c s pool)
    (nonempty : pool.queue (.inr bag) ≠ []) (item : ℕ) :
    ∃ t, BibopHeap.realFreeCurrentList bag item s = .ok t ∧ t.guards = s.guards ∧
      ∃ xs : List (Slot c), xs.Perm (pool.queue (.inr bag) ++ pool.queue (.inl (bag, item))) ∧
        Represents c t (pool.merge (.inr bag) (.inl (bag, item)) xs) := by
  have parts := rep.partition
  obtain ⟨t, ran, lists, position, last, guards, frame⟩ :=
    rep.lists.merge parts.queue_nodup parts.queue_disjoint nonempty item
  have perm := FreeList.merged_perm (pool.queue (.inr bag)) (pool.queue (.inl (bag, item)))
    (s.freelist (bag, item))
  have distinct : (.inr bag : Queue) ≠ .inl (bag, item) := Sum.inr_ne_inl
  have parts' := parts.merge distinct perm
  have member (q : Queue) (y : Slot c) : y ∈ (pool.merge (.inr bag) (.inl (bag, item)) _).queue q ↔
      (q ≠ .inr bag ∧ y ∈ pool.queue q) ∨ (q = .inl (bag, item) ∧ y ∈ pool.queue (.inr bag)) :=
    SlotPool.mem_merge_queue distinct perm
  refine ⟨t, ran, guards, _, perm, rep.relist lists ?_ position last guards rfl rfl ?_ ?_ parts'⟩
  · intro a outside
    apply frame a
    intro q inside
    obtain ⟨y, queued, rfl⟩ := List.mem_map.mp inside
    rcases eq_or_ne q (.inr bag) with rfl | atCached
    · exact outside _ (Slot.entry_mem_iff.mpr ((member _ y).mpr (.inr ⟨rfl, queued⟩)))
    · exact outside q (Slot.entry_mem_iff.mpr ((member q y).mpr (.inl ⟨atCached, queued⟩)))
  · exact fun y => ⟨fun live => ⟨live, fun q queued => parts'.queued_not_live q y queued live⟩,
      fun both => both.1⟩
  · intro q y queued usable
    rcases (member q y).mp queued with ⟨-, old⟩ | ⟨rfl, old⟩
    · exact rep.blocks q y old usable
    · exact rep.blocks (.inr bag) y old usable

/-- The last part of `freeSmallObject` on the entry of a live slot. -/
theorem Represents.insertObject (rep : Represents c s pool) (live : x ∈ pool.live)
    (block : bag.2 < c.usable → ∃ i, x.BlockOf bag i) (threadIndex item : ℕ) :
    ∃ t pool', c.heap.insertObject threadIndex bag item x.entry s = .ok t ∧ t.guards = s.guards ∧
      Represents c t pool' ∧ Released pool pool' x bag item := by
  rw [BibopHeap.insertObject]
  split
  · rename_i remote
    have cfreelist : c.build.cfreelist = true := (Bool.and_eq_true_iff.mp remote).1
    have cached := rep.insertCached live block
    have queued (q : Queue) (y : Slot c)
        (member : y ∈ (pool.release x (.inr bag) (x :: pool.queue (.inr bag))).queue q) :
        y = x ∧ q.bag = bag ∨ ∃ r, r.bag = q.bag ∧ y ∈ pool.queue r := by
      rcases (SlotPool.mem_release_queue (.refl _)).mp member with old | ⟨rfl, rfl⟩
      · exact .inr ⟨q, rfl, old⟩
      · exact .inl ⟨rfl, rfl⟩
    have notHome {P : Prop} (off : c.build.cfreelist = false) : P := by
      rw [cfreelist] at off
      cases off
    dsimp only
    split
    · have nonempty : (pool.release x (.inr bag) (x :: pool.queue (.inr bag))).queue (.inr bag) ≠ [] := by
        simp [SlotPool.release]
      obtain ⟨t, ran, guards, xs, perm, merged⟩ := cached.realFreeCurrentList nonempty item
      refine ⟨t, _, ran, guards, merged, rfl, ?_, notHome⟩
      intro q y member
      rcases (SlotPool.mem_merge_queue Sum.inr_ne_inl perm).mp member with ⟨-, old⟩ | ⟨rfl, old⟩
      · exact queued q y old
      · exact queued (.inr bag) y old
    · exact ⟨_, _, rfl, rfl, cached, rfl, queued, notHome⟩
  · obtain ⟨pool', inserted, released⟩ := rep.insertFreelist live block item
    exact ⟨_, pool', rfl, rfl, inserted, released⟩

/-- The decoder on an address of the heap: the class check fails, or it yields a shadow entry. -/
theorem Config.getShadowObjectInfo_at {h t b off : ℕ} (thread : t < MAX_ALIVE_THREADS)
    (bag : b < c.numBags) (small : off < c.bagSize) :
    c.heap.getShadowObjectInfo (c.bagBegin h t b + off) =
      if b < c.usable ∧ off % classSize b ≠ 0 then
        .error (.invalidObject (c.bagBegin h t b + off) (classSize b) (classSize b - 1) off)
      else .ok ((t, b), h % c.items, c.entryAt h (c.rankAt t b off)) := by
  by_cases usable : b < c.usable
  · rw [getShadowObjectInfo_usable thread usable small]
    simp only [usable, true_and]
  · rw [getShadowObjectInfo_unusable thread bag (by omega) small,
      if_neg fun both => usable both.1]

/-- An address leads to the entry of a slot of the same heap. -/
structure Config.LeadsTo (c : Config) (addr : ℕ) (bag : BagRef) (x : Slot c) : Prop where
  thread : bag.1 < MAX_ALIVE_THREADS
  number : bag.2 < c.numBags
  place : ∃ off < c.bagSize, addr = c.bagBegin x.heap bag.1 bag.2 + off ∧
    (bag.2 < c.usable → off % classSize bag.2 = 0) ∧ x.rank = c.rankAt bag.1 bag.2 off

theorem Config.LeadsTo.block (leads : c.LeadsTo addr bag x) (usable : bag.2 < c.usable) :
    ∃ i, x.BlockOf bag i := by
  obtain ⟨off, small, -, aligned, rank⟩ := leads.place
  have whole := Nat.div_mul_cancel (Nat.dvd_of_mod_eq_zero (aligned usable))
  exact ⟨off / classSize bag.2, leads.thread, whole.symm ▸ small, whole.symm ▸ rank⟩

theorem Slot.BlockOf.leadsTo {i : ℕ} (block : x.BlockOf bag i) (usable : bag.2 < c.usable) :
    c.LeadsTo (c.bagBegin x.heap bag.1 bag.2 + i * classSize bag.2) bag x := by
  obtain ⟨thread, inside, rank⟩ := block
  exact ⟨thread, Nat.lt_of_lt_of_le usable c.usable_le_numBags, _, inside, rfl,
    fun _ => Nat.mul_mod_left .., rank⟩

theorem Slot.leadsTo_addr (x : Slot c) : c.LeadsTo x.addr x.bagRef x :=
  ⟨x.thread_lt, x.bag_lt_numBags, x.index * classSize x.bag, x.offset_lt, rfl,
    fun _ => Nat.mul_mod_left _ _, x.rankAt_offset.symm⟩

/-- An address leads to one slot, through one bag. -/
theorem Config.LeadsTo.unique {bag' : BagRef} (leads : c.LeadsTo addr bag x)
    (also : c.LeadsTo addr bag' y) : x = y ∧ bag = bag' := by
  obtain ⟨off, small, rfl, -, rank⟩ := leads.place
  obtain ⟨off', small', same, -, rank'⟩ := also.place
  obtain ⟨heap, thread, number, offset⟩ := Config.bagBegin_inj leads.thread also.thread
    leads.number also.number small small' same
  refine ⟨Slot.eq_of_rank heap ?_, Prod.ext thread number⟩
  simp only [rank, rank', thread, number, offset]

/-- One address leads to a slot through a bag. -/
theorem Config.LeadsTo.addr_unique {addr' : ℕ} (leads : c.LeadsTo addr bag x)
    (also : c.LeadsTo addr' bag x) : addr = addr' := by
  obtain ⟨off, small, rfl, aligned, rank⟩ := leads.place
  obtain ⟨off', small', rfl, aligned', rank'⟩ := also.place
  have same := rank.symm.trans rank'
  rw [Config.rankAt, Config.rankAt] at same
  split at same
  · rename_i usable
    have quotient : off / classSize bag.2 = off' / classSize bag.2 := Nat.add_left_cancel same
    have whole := Nat.div_add_mod off (classSize bag.2)
    have whole' := Nat.div_add_mod off' (classSize bag.2)
    rw [aligned usable] at whole
    rw [aligned' usable, ← quotient, whole] at whole'
    rw [whole']
  · rw [same]

/-- A marked entry that an address leads to is that of a live slot. -/
theorem Represents.leadsTo_of_marked (rep : Represents c s pool) {h t b off : ℕ}
    (thread : t < MAX_ALIVE_THREADS) (number : b < c.numBags) (small : off < c.bagSize)
    (aligned : b < c.usable → off % classSize b = 0)
    (mark : s.links (c.entryAt h (c.rankAt t b off)) = ALLOC_SENTINEL) :
    ∃ x ∈ pool.live, x.entry = c.entryAt h (c.rankAt t b off) ∧ x.heap = h ∧
      c.LeadsTo (c.bagBegin h t b + off) (t, b) x := by
  obtain ⟨x, live, same⟩ := (rep.marked _).mp mark
  obtain ⟨rfl, rank⟩ := c.entryAt_inj x.rank_small (Config.rankAt_fits thread small) same
  exact ⟨x, live, same, rfl, thread, number, off, small, rfl, aligned, rank⟩

/-- The state with another memory. -/
def HeapState.setMem (s : HeapState) (mem : ℕ → UInt8) : HeapState := { s with mem := mem }

@[simp] theorem HeapState.setMem_mem (s : HeapState) (mem : ℕ → UInt8) : (s.setMem mem).mem = mem := rfl

@[simp] theorem HeapState.setMem_setMem (s : HeapState) (mem mem' : ℕ → UInt8) :
    (s.setMem mem).setMem mem' = s.setMem mem' := rfl

/-- The memory after the object at an address has been destroyed, in the builds and for the classes in which
it is. -/
def BibopHeap.destroyed (heap : BibopHeap) (addr : ℕ) (bag : BagRef) (s : HeapState) : ℕ → UInt8 :=
  let size := (heap._threadBag bag).classSize - heap.build.canaryBytes
  if heap.build.destroyOnFree = true ∧ size ≤ TWO_KILOBYTES then
    fun a => if addr ≤ a ∧ a < addr + size then 0 else s.mem a
  else s.mem

/-- Destroying an object, in the builds in which it is done. -/
theorem BibopHeap.destroyObject_eq (heap : BibopHeap) (addr : ℕ) (bag : BagRef) (s : HeapState) :
    (if heap.build.destroyOnFree then destroyObject addr
      (if heap.build.canary then (heap._threadBag bag).classSize - 1
        else (heap._threadBag bag).classSize) s else s) = s.setMem (heap.destroyed addr bag s) := by
  have size : (if heap.build.canary then (heap._threadBag bag).classSize - 1
      else (heap._threadBag bag).classSize) =
        (heap._threadBag bag).classSize - heap.build.canaryBytes := by
    rw [Build.canaryBytes]
    split <;> rfl
  rw [size, destroyed, destroyObject]
  cases heap.build.destroyOnFree with
  | false =>
    simp only [Bool.false_eq_true, if_false, false_and]
    rfl
  | true =>
    simp only [if_true, true_and]
    split <;> rfl

/-- What is left of `freeSmallObject` once the entry is found marked: the check, and the object with its
bytes destroyed goes to a list. -/
theorem BibopHeap.freeMarked_eq (heap : BibopHeap) (threadIndex addr : ℕ) (bag : BagRef)
    (item shadowinfo : ℕ) (s : HeapState) :
    heap.freeMarked threadIndex addr bag item shadowinfo s =
      ((if heap.build.canary then heap.checkCanaries s addr bag shadowinfo else .ok ()) >>= fun _ =>
        heap.insertObject threadIndex bag item shadowinfo (s.setMem (heap.destroyed addr bag s))) := by
  rw [freeMarked, ← heap.destroyObject_eq]
  split <;> rfl

/-- Past its checks a deallocation inserts the object, its bytes destroyed. -/
theorem BibopHeap.freeMarked_ok {heap : BibopHeap} {shadowinfo : ℕ}
    (ok : heap.freeMarked threadIndex addr bag item shadowinfo s = .ok t) :
    heap.insertObject threadIndex bag item shadowinfo (s.setMem (heap.destroyed addr bag s)) = .ok t := by
  rw [heap.freeMarked_eq] at ok
  cases checked : (if heap.build.canary then heap.checkCanaries s addr bag shadowinfo else .ok ()) with
  | error stop =>
    rw [checked] at ok
    cases ok
  | ok _ =>
    rw [checked] at ok
    exact ok

/-- The bytes of an object are no metadata. -/
theorem Represents.setMem (rep : Represents c s pool) (mem : ℕ → UInt8) :
    Represents c (s.setMem mem) pool := rep.congr rfl rfl rfl rfl rfl rfl rfl

/-- What is left of `freeSmallObject` once the entry is found marked. -/
theorem Represents.freeMarked (rep : Represents c s pool) (live : x ∈ pool.live)
    (block : bag.2 < c.usable → ∃ i, x.BlockOf bag i)
    (ok : c.heap.freeMarked threadIndex addr bag item x.entry s = .ok t) :
    t.guards = s.guards ∧ ∃ pool', Represents c t pool' ∧ Released pool pool' x bag item := by
  obtain ⟨t', pool', ran, guards, represents, released⟩ :=
    (rep.setMem (c.heap.destroyed addr bag s)).insertObject live block threadIndex item
  obtain rfl := Except.ok.inj (ran.symm.trans (BibopHeap.freeMarked_ok ok))
  exact ⟨guards, pool', represents, released⟩

/-- The decoder on an address that leads to the entry of a slot. -/
theorem Config.LeadsTo.decode (leads : c.LeadsTo addr bag x) :
    c.heap.getShadowObjectInfo addr = .ok (bag, x.heap % c.items, x.entry) := by
  obtain ⟨off, small, rfl, aligned, rank⟩ := leads.place
  rw [Config.getShadowObjectInfo_at leads.thread leads.number small,
    if_neg fun both => both.2 (aligned both.1), Slot.entry, rank]

/-- The encoder of a usable bag returns to the address that led to an entry. -/
theorem Config.LeadsTo.encode (leads : c.LeadsTo addr bag x) (usable : bag.2 < c.usable) :
    c.heap.getAddrFromShadowInfo x.entry bag = addr := by
  obtain ⟨off, small, rfl, aligned, rank⟩ := leads.place
  have whole : off / classSize bag.2 * classSize bag.2 = off :=
    Nat.div_mul_cancel (Nat.dvd_of_mod_eq_zero (aligned usable))
  rw [Slot.entry, rank, ← whole]
  exact getAddrFromShadowInfo_at leads.thread usable (whole.symm ▸ small)

/-- An address that leads to the entry of a live slot passes the checks. -/
theorem Represents.free_of_live (rep : Represents c s pool) (leads : c.LeadsTo addr bag x)
    (live : x ∈ pool.live) :
    c.heap.freeSmallObject threadIndex addr s =
      c.heap.freeMarked threadIndex addr bag (x.heap % c.items) x.entry s := by
  have busy : BibopHeap.isObjectFree s x.entry = false :=
    Bool.eq_false_iff.mpr fun free => Slot.isObjectFree_iff.mp free (rep.live_iff.mp live)
  rw [BibopHeap.freeSmallObject, leads.decode]
  change (if BibopHeap.isObjectFree s x.entry then _ else _) = _
  rw [busy]
  rfl

/-- Past its checks nothing stops the deallocation of a marked entry. -/
theorem Represents.freeMarked_checked (rep : Represents c s pool) (leads : c.LeadsTo addr bag x)
    (live : x ∈ pool.live)
    (checked : c.build.canary = true → c.heap.checkCanaries s addr bag x.entry = .ok ()) :
    ∃ t, c.heap.freeMarked threadIndex addr bag item x.entry s = .ok t := by
  obtain ⟨t, -, ran, -⟩ :=
    (rep.setMem (c.heap.destroyed addr bag s)).insertObject live leads.block threadIndex item
  refine ⟨t, ?_⟩
  rw [c.heap.freeMarked_eq]
  cases canary : c.build.canary with
  | false =>
    rw [Config.heap_build, canary, if_neg Bool.false_ne_true]
    exact ran
  | true =>
    rw [Config.heap_build, canary, if_pos rfl, checked canary]
    exact ran

/-- Without canaries nothing stops the deallocation of a marked entry. -/
theorem Represents.freeMarked_plain (rep : Represents c s pool) (leads : c.LeadsTo addr bag x)
    (live : x ∈ pool.live) (plain : c.build.canary = false) :
    ∃ t, c.heap.freeMarked threadIndex addr bag item x.entry s = .ok t := by
  apply rep.freeMarked_checked leads live
  intro canary
  rw [plain] at canary
  cases canary

/-- A deallocation that succeeds releases the live slot that the address leads to. -/
theorem Represents.freeSmallObject (rep : Represents c s pool) (inside : c.heapBegin ≤ addr)
    (ok : c.heap.freeSmallObject threadIndex addr s = .ok t) :
    t.guards = s.guards ∧ ∃ x ∈ pool.live, ∃ bag, c.LeadsTo addr bag x ∧
      ∃ pool', Represents c t pool' ∧ Released pool pool' x bag (x.heap % c.items) := by
  obtain ⟨h, thr, b, off, thread, number, small, rfl⟩ := c.exists_place inside
  rw [BibopHeap.freeSmallObject, Config.getShadowObjectInfo_at thread number small] at ok
  split at ok
  · cases ok
  · rename_i passed
    change (if BibopHeap.isObjectFree s _ then _ else _) = _ at ok
    split at ok
    · cases ok
    · rename_i busy
      have mark : s.links (c.entryAt h (c.rankAt thr b off)) = ALLOC_SENTINEL := by
        simpa [BibopHeap.isObjectFree] using busy
      have aligned : b < c.usable → off % classSize b = 0 := fun usable =>
        not_not.mp fun off' => passed ⟨usable, off'⟩
      obtain ⟨x, live, entry, rfl, leads⟩ :=
        rep.leadsTo_of_marked thread number small aligned mark
      rw [← entry] at ok
      obtain ⟨guards, pool', represents, released⟩ := rep.freeMarked live leads.block ok
      exact ⟨guards, x, live, (thr, b), leads, pool', represents, released⟩

/-- The address of a slot that is not live is rejected. -/
theorem Represents.free_not_live (rep : Represents c s pool) (dead : x ∉ pool.live) :
    c.heap.freeSmallObject threadIndex x.addr s = .error (.doubleFree x.addr x.entry) := by
  have unmarked : BibopHeap.isObjectFree s x.entry = true :=
    Slot.isObjectFree_iff.mpr fun mark => dead (rep.live_iff.mpr mark)
  rw [BibopHeap.freeSmallObject, x.getShadowObjectInfo_addr]
  change (if BibopHeap.isObjectFree s x.entry then _ else _) = _
  rw [if_pos unmarked]

end Deallocation

end FreeGuard.Model
