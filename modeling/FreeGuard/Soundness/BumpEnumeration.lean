import FreeGuard.Proofs.Contents
import FreeGuard.Proofs.SmallRun
import FreeGuard.Soundness.ShadowBijection
import Mathlib.Data.Prod.Lex

/-! # The order of the bump pointers

A bump pointer belongs to an item of a usable bag. It stands on a slot of that bag in a heap of the
item, and every increment moves it to the next such slot: the next one of the bag, or the first one of
the bag in the next heap of the item. From the first slot on it comes to every slot of the item once,
in the order of heap and index; a random guard takes it past exactly the slots that the guard covers.
-/

namespace FreeGuard.Soundness.BumpEnumeration

open Machine Model ShadowBijection

/-- An item of a usable bag of a thread. -/
def IsItem (heap : BibopHeap) (t b item : ℕ) : Prop :=
  t < MAX_ALIVE_THREADS ∧ b < heap._numUsableBags ∧ item < heap.build.BIBOP_BAG_SET_SIZE

/-- The bump pointer of an item stands on the slot with heap `slot.1` and index `slot.2`. -/
structure PointsAt (heap : BibopHeap) (t b item : ℕ) (slot : ℕ × ℕ) (s : HeapState) : Prop where
  heap_mod : slot.1 % heap.build.BIBOP_BAG_SET_SIZE = item
  index_lt : slot.2 < (heap._threadBag (t, b)).numObjects
  position : s.position ((t, b), item) = slotAddr heap slot.1 t b slot.2
  last : s.lastofCurBag ((t, b), item) =
    slotAddr heap slot.1 t b ((heap._threadBag (t, b)).numObjects - 1)

/-- The slot after one, in the order of heap and index, among those of one item. -/
def nextSlot (heap : BibopHeap) (t b : ℕ) (slot : ℕ × ℕ) : ℕ × ℕ :=
  if slot.2 + 1 < (heap._threadBag (t, b)).numObjects then (slot.1, slot.2 + 1)
  else (slot.1 + heap.build.BIBOP_BAG_SET_SIZE, 0)

/-- The size of a random guard: a page of objects, or one object. -/
def randomGuardSize (classSize : ℕ) : ℕ := if classSize < PageSize then PageSize else classSize

/-- The slots under a random guard. -/
def randomGuardSlots (classSize : ℕ) : ℕ := if classSize < PageSize then PageSize / classSize else 1

/-- The objects that an event takes from the bump pointer of an item. -/
def bumped (heap : BibopHeap) (item : ItemRef) (system : HeapSystem) : HeapEvent → List ℕ
  | .malloc threadIndex sz draws =>
    let curBag : BagRef := (threadIndex, heap.getBagNum (classSizeOf heap.build sz))
    if (curBag, (heap.selectList draws.list).1) = item ∧ heap.UsesBump item draws system.state then
      [(heap.allocateSmallObject threadIndex sz draws system.state).1]
    else []
  | _ => []

/-- An event that sets no random guard. -/
def Unguarded (build : Build) : HeapEvent → Prop
  | .malloc _ _ draws =>
    build.randomGuard = true → build.belowGuardCutoff draws.guard.toInt = false
  | _ => True

/-- A step that sets no random guard, and the objects that an item has given from its bump pointer. -/
inductive BumpStep (heap : BibopHeap) (item : ItemRef) :
    HeapSystem × List ℕ → HeapEvent → HeapSystem × List ℕ → Prop
  | step {s t : HeapSystem} {log : List ℕ} {e : HeapEvent} :
      Unguarded heap.build e → HeapStep heap s e t →
      BumpStep heap item (s, log) e (t, log ++ bumped heap item s e)

variable {c : Config} {l : Lane c} {n : ℕ} {s : HeapState}

/-! ## Places and slots -/

/-- The slot of a place of a bump pointer. -/
def place (l : Lane c) (n : ℕ) : ℕ × ℕ := (l.heapAt n, n % c.numObjects l.bag)

theorem exists_lane {t b item : ℕ} (isItem : IsItem c.heap t b item) :
    ∃ l : Lane c, l.thread = t ∧ l.bag = b ∧ l.item = item := by
  obtain ⟨thread, usable, bound⟩ := isItem
  rw [Config.heap_numUsableBags] at usable
  rw [Config.heap_build] at bound
  exact ⟨⟨t, b, item, thread, usable, bound⟩, rfl, rfl, rfl⟩

theorem numObjects_eq (l : Lane c) :
    (c.heap._threadBag (l.thread, l.bag)).numObjects = c.numObjects l.bag := by
  rw [Config.heap_threadBag l.thread_lt l.bag_lt]
  rfl

theorem classSize_eq (l : Lane c) :
    (c.heap._threadBag (l.thread, l.bag)).classSize = classSize l.bag := by
  rw [Config.heap_threadBag l.thread_lt l.bag_lt]
  rfl

theorem slotAddr_eq (l : Lane c) (h i : ℕ) :
    slotAddr c.heap h l.thread l.bag i = c.bagBegin h l.thread l.bag + i * classSize l.bag := by
  rw [slotAddr, Config.heap_threadBag l.thread_lt l.bag_lt, Config.heap_heapBegin, Config.heap_heapSize]
  rfl

theorem slotAddr_place (l : Lane c) (n : ℕ) :
    slotAddr c.heap (place l n).1 l.thread l.bag (place l n).2 = (l.slot n).addr :=
  slotAddr_eq ..

/-- The places of a bump pointer are the slots of its item. -/
theorem exists_place {h i : ℕ} (heap : h % c.items = l.item) (index : i < c.numObjects l.bag) :
    ∃ n, place l n = (h, i) := by
  let x : Slot c := ⟨h, l.thread, l.bag, i, l.thread_lt, l.bag_lt, index⟩
  have lane : x.lane = l := Lane.ext rfl rfl heap
  have same : l.slot x.seq = x := lane ▸ x.lane_slot
  exact ⟨x.seq, Prod.ext (congrArg Slot.heap same) (congrArg Slot.index same)⟩

theorem pointsAt_iff {slot : ℕ × ℕ} : PointsAt c.heap l.thread l.bag l.item slot s ↔
    ∃ n, slot = place l n ∧ l.At n s := by
  constructor
  · rintro ⟨heap, index, position, last⟩
    rw [Config.heap_build] at heap
    rw [numObjects_eq] at index last
    obtain ⟨n, rfl⟩ : ∃ n, place l n = slot := exists_place heap index
    rw [slotAddr_place] at position
    rw [slotAddr_eq] at last
    exact ⟨n, rfl, position, last⟩
  · rintro ⟨n, rfl, start⟩
    refine ⟨?_, ?_, ?_, ?_⟩
    · rw [Config.heap_build]
      exact Nat.mul_add_mod_of_lt l.item_lt
    · rw [numObjects_eq]
      exact Nat.mod_lt _ (c.numObjects_pos _)
    · rw [slotAddr_place]
      exact start.position
    · rw [numObjects_eq, slotAddr_eq]
      exact start.last

theorem nextSlot_place (l : Lane c) (n : ℕ) :
    nextSlot c.heap l.thread l.bag (place l n) = place l (n + 1) := by
  rw [nextSlot, numObjects_eq, Config.heap_build]
  split
  · rename_i inside
    obtain ⟨heap, index⟩ := Lane.heapAt_succ inside
    simp only [place, heap, index]
  · rename_i atEnd
    obtain ⟨heap, index⟩ := Lane.heapAt_next atEnd
    simp only [place, heap, index]
    rfl

theorem nextSlot_iterate (l : Lane c) (n k : ℕ) :
    (nextSlot c.heap l.thread l.bag)^[k] (place l n) = place l (n + k) := by
  induction k with
  | zero => rfl
  | succ k ih => rw [Function.iterate_succ_apply', ih, nextSlot_place, Nat.add_assoc]

theorem place_zero (l : Lane c) : place l 0 = (l.item, 0) := by
  simp [place, Lane.heapAt]

/-- Places are in the order of heap and index. -/
theorem place_strictMono (l : Lane c) : StrictMono fun n => toLex (place l n) := by
  apply strictMono_nat_of_lt_succ
  intro n
  rw [Prod.Lex.toLex_lt_toLex]
  by_cases inside : n % c.numObjects l.bag + 1 < c.numObjects l.bag
  · obtain ⟨heap, index⟩ := Lane.heapAt_succ inside
    exact .inr ⟨heap.symm, by simp only [place, index]; omega⟩
  · obtain ⟨heap, -⟩ := Lane.heapAt_next inside
    have items := c.items_pos
    exact .inl (by simp only [place, heap]; omega)

/-! ## Moves -/

/-- What a random guard on a slot does: the pointer goes past the slots whose bytes the guard covers,
and no further random guard is set. -/
structure GuardSkips (heap : BibopHeap) (t b item : ℕ) (slot : ℕ × ℕ) (s next : HeapState) : Prop where
  lands : PointsAt heap t b item
    ((nextSlot heap t b)^[randomGuardSlots (heap._threadBag (t, b)).classSize] slot) next
  guards : ∃ ends, (∀ g ∈ ends, g.random = false) ∧ next.guards = s.guards ++
    ⟨true, slotAddr heap slot.1 t b slot.2, randomGuardSize (heap._threadBag (t, b)).classSize⟩ :: ends
  covered : ∀ h' t' b' i', IsSlot heap t' b' i' →
    ((slotAddr heap slot.1 t b slot.2 ≤ slotAddr heap h' t' b' i' ∧
        slotAddr heap h' t' b' i' + (heap._threadBag (t', b')).classSize ≤
          slotAddr heap slot.1 t b slot.2 + randomGuardSize (heap._threadBag (t, b)).classSize) ↔
      (t', b') = (t, b) ∧ ∃ k < randomGuardSlots (heap._threadBag (t, b)).classSize,
        (h', i') = (nextSlot heap t b)^[k] slot)

theorem pointsAt_increment {slot : ℕ × ℕ} (points : PointsAt c.heap l.thread l.bag l.item slot s) :
    PointsAt c.heap l.thread l.bag l.item (nextSlot c.heap l.thread l.bag slot)
      (c.heap.incrementBumpPointer (l.thread, l.bag) l.item s) := by
  obtain ⟨n, rfl, start⟩ := pointsAt_iff.mp points
  have moved := Lane.incrementBumpPointer_at start
  rw [nextSlot_place]
  refine pointsAt_iff.mpr ⟨n + 1, rfl, ?_⟩
  rw [show c.heap.incrementBumpPointer (l.thread, l.bag) l.item s = _ from moved]
  exact l.at_move ..

theorem randomGuardSlots_eq (b : ℕ) : randomGuardSlots (classSize b) = Lane.guardSlots b := by
  have size := Lane.guardSize_eq b
  rw [randomGuardSlots]
  split
  · rename_i small
    rw [if_pos small] at size
    rw [← size, Nat.mul_div_cancel _ (classSize_pos b)]
  · rename_i big
    rw [if_neg big] at size
    exact (Nat.eq_of_mul_eq_mul_right (classSize_pos b) (by rw [size, Nat.one_mul])).symm

/-- The slots whose bytes a random guard covers are the ones it skips. -/
theorem covered_bytes_iff (aligned : l.PageAligned n) {x : Slot c} :
    ((l.slot n).addr ≤ x.addr ∧
        x.addr + classSize x.bag ≤ (l.slot n).addr + Lane.guardSlots l.bag * classSize l.bag) ↔
      x.lane = l ∧ ∃ k < Lane.guardSlots l.bag, x = l.slot (n + k) := by
  have starts := Lane.covered_iff (x := x) aligned
  have size := classSize_pos x.bag
  constructor
  · rintro ⟨lower, upper⟩
    obtain ⟨lane, first, last⟩ := starts.mp ⟨lower, by
      change _ < (l.slot n).addr + Lane.guardSlots l.bag * classSize l.bag
      omega⟩
    refine ⟨lane, x.seq - n, by omega, ?_⟩
    rw [Nat.add_sub_cancel' first, ← lane, x.lane_slot]
  · rintro ⟨-, k, below, rfl⟩
    have inBag := Lane.guard_in_bag aligned
    have place := Lane.addr_add (l := l) (n := n) (i := k) (by omega)
    have room := Nat.mul_le_mul_right (classSize l.bag) below
    rw [Nat.succ_mul] at room
    change _ ∧ (l.slot (n + k)).addr + classSize l.bag ≤ _
    omega

theorem tryRandomGuardPage_skips {slot : ℕ × ℕ} {draw : BitVec 32}
    (points : PointsAt c.heap l.thread l.bag l.item slot s)
    (aligned : slotAddr c.heap slot.1 l.thread l.bag slot.2 % PageSize = 0)
    (drawn : c.build.belowGuardCutoff draw.toInt = true) :
    GuardSkips c.heap l.thread l.bag l.item slot s
      (c.heap.tryRandomGuardPage (l.thread, l.bag) l.item draw s) := by
  obtain ⟨n, rfl, start⟩ := pointsAt_iff.mp points
  rw [slotAddr_place] at aligned
  have size : randomGuardSize (classSize l.bag) = Lane.guardSlots l.bag * classSize l.bag :=
    (Lane.guardSize_eq l.bag).symm
  rw [show c.heap.tryRandomGuardPage (l.thread, l.bag) l.item draw s = _ from
    Lane.tryRandomGuardPage_at start aligned drawn]
  refine ⟨?_, ?_, ?_⟩
  · rw [classSize_eq, randomGuardSlots_eq, nextSlot_iterate]
    exact pointsAt_iff.mpr ⟨_, rfl, l.at_move ..⟩
  · refine ⟨l.entered (n + Lane.guardSlots l.bag), fun g => Lane.random_entered, ?_⟩
    rw [slotAddr_place, classSize_eq, size]
    rfl
  · intro h' t' b' i' isSlot
    obtain ⟨x, rfl, rfl, rfl, rfl, addr⟩ := exists_slot isSlot h'
    have own : (c.heap._threadBag (x.thread, x.bag)).classSize = classSize x.bag := classSize_eq x.lane
    rw [slotAddr_place, classSize_eq, randomGuardSlots_eq, size, own, ← addr, covered_bytes_iff aligned]
    constructor
    · rintro ⟨lane, k, below, same⟩
      refine ⟨Prod.ext (congrArg Lane.thread lane) (congrArg Lane.bag lane), k, below, ?_⟩
      rw [nextSlot_iterate, same]
      rfl
    · rintro ⟨bag, k, below, same⟩
      obtain ⟨thread, bag⟩ := Prod.mk.inj bag
      rw [nextSlot_iterate] at same
      obtain ⟨heap, index⟩ := Prod.mk.inj same
      have slot : x = l.slot (n + k) := Slot.ext heap thread bag index
      exact ⟨slot ▸ l.slot_lane _, k, below, slot⟩

/-! ## Runs -/

/-- The objects that an item has given from its bump pointer are its first slots, in order. -/
def Logged (l : Lane c) (state : HeapSystem × List ℕ) : Prop :=
  ∃ pool, Represents c state.1.state pool ∧ pool.cursor l = state.2.length ∧
    state.2 = (List.range state.2.length).map fun n => (l.slot n).addr

theorem logged_start (l : Lane c) : Logged l (c.system, []) :=
  ⟨_, represents_start c, rfl, rfl⟩

/-- An unguarded step takes at most the next slot of an item. -/
theorem Logged.step {state next : HeapSystem × List ℕ} {e : HeapEvent} (logged : Logged l state)
    (step : BumpStep c.heap l.ref state e next) : Logged l next := by
  obtain ⟨pool, rep, cursor, log⟩ := logged
  cases step with
  | @step s t log' _ unguarded move =>
  obtain ⟨pool', moved, rep'⟩ := move.simulates rep
  have same (none : bumped c.heap l.ref s e = []) (kept : pool'.cursor l = pool.cursor l) :
      Logged l (t, log' ++ bumped c.heap l.ref s e) := by
    rw [none, List.append_nil]
    exact ⟨pool', rep', kept.trans cursor, log⟩
  cases moved with
  | @reuse threadIndex sz draws _ thread routed x rest i idle head block guards returned =>
    apply same (if_neg _) rfl
    rintro ⟨item, uses⟩
    have lane : (c.laneOf thread routed draws).ref = l.ref := item
    exact idle (lane ▸ uses)
  | @bump threadIndex sz draws _ k thread routed lane uses guards returned =>
    have noSkip : k.skips (pool.cursor k) draws.guard = 0 := by
      rw [Lane.skips, if_neg]
      rintro ⟨random, -, drawn⟩
      have high : c.build.belowGuardCutoff draws.guard.toInt = false := unguarded random
      rw [high] at drawn
      cases drawn
    rw [noSkip] at rep' same
    rcases eq_or_ne l k with rfl | other
    · have issued : (c.heap.allocateSmallObject threadIndex sz draws s.state).1 =
          (l.slot (pool.cursor l)).addr := by
        cases move
        exact congrArg Issue.addr (List.cons.inj returned).1
      have taken : bumped c.heap l.ref s (.malloc threadIndex sz draws) =
          [(l.slot (pool.cursor l)).addr] := by
        rw [← issued]
        exact if_pos ⟨congrArg Lane.ref lane.symm, uses⟩
      rw [taken, cursor]
      refine ⟨_, rep', ?_, ?_⟩
      · rw [cursor_bump, if_pos rfl, cursor, List.length_append]
        rfl
      · rw [List.length_append, List.length_singleton, List.range_succ, List.map_append, ← log]
        rfl
    · apply same (if_neg _)
      · rw [cursor_bump, if_neg other]
      · rintro ⟨item, -⟩
        have lane' : (c.laneOf thread routed draws).ref = l.ref := item
        exact other (Lane.ref_inj (lane' ▸ congrArg Lane.ref lane).symm)
  | release live leads released guards returned =>
    refine same rfl ((rep.position_eq_iff rep').mp ?_)
    cases move with
    | free thread inside ok => exact congrFun (freeSmallObject_frame ok).2 _
  | store guards returned => exact same rfl rfl

/-- How the bump pointer of an item moves, in every reachable state and from slot to slot. -/
structure Enumerates (c : Config) (t b item : ℕ) : Prop where
  reachable : ∀ es system, Run (HeapStep c.heap) c.system es system →
    ∃ slot, PointsAt c.heap t b item slot system.state
  increment : ∀ s slot, PointsAt c.heap t b item slot s →
    PointsAt c.heap t b item (nextSlot c.heap t b slot) (c.heap.incrementBumpPointer (t, b) item s)
  ordered : StrictMono fun n => toLex ((nextSlot c.heap t b)^[n] (item, 0))
  complete : ∀ h i, h % c.build.BIBOP_BAG_SET_SIZE = item →
    i < (c.heap._threadBag (t, b)).numObjects → ∃ n, (nextSlot c.heap t b)^[n] (item, 0) = (h, i)
  visits : ∀ es system log, Run (BumpStep c.heap ((t, b), item)) (c.system, []) es (system, log) →
    log = (List.range log.length).map (fun n =>
        slotAddr c.heap ((nextSlot c.heap t b)^[n] (item, 0)).1 t b
          ((nextSlot c.heap t b)^[n] (item, 0)).2) ∧
      PointsAt c.heap t b item ((nextSlot c.heap t b)^[log.length] (item, 0)) system.state
  guarded : ∀ s slot draw, PointsAt c.heap t b item slot s →
    slotAddr c.heap slot.1 t b slot.2 % PageSize = 0 → c.build.belowGuardCutoff draw.toInt = true →
    GuardSkips c.heap t b item slot s (c.heap.tryRandomGuardPage (t, b) item draw s)

/-- Every bump pointer of a usable bag enumerates the slots of its item. -/
theorem bump_pointer_enumerates (c : Config) {t b item : ℕ} (isItem : IsItem c.heap t b item) :
    Enumerates c t b item := by
  obtain ⟨l, rfl, rfl, rfl⟩ := exists_lane isItem
  have iterate (n : ℕ) : (nextSlot c.heap l.thread l.bag)^[n] (l.item, 0) = place l n := by
    rw [← place_zero, nextSlot_iterate, Nat.zero_add]
  refine ⟨?_, fun _ _ => pointsAt_increment, ?_, ?_, ?_, fun _ _ _ => tryRandomGuardPage_skips⟩
  · intro es system run
    obtain ⟨pool, rep⟩ := exists_pool run
    exact ⟨_, pointsAt_iff.mpr ⟨_, rfl, rep.lanes l⟩⟩
  · simp only [iterate]
    exact place_strictMono l
  · intro h i heap index
    rw [numObjects_eq] at index
    obtain ⟨n, same⟩ := exists_place heap index
    exact ⟨n, (iterate n).trans same⟩
  · intro es system log run
    have logged := run.invariant (Logged l) (fun _ _ _ logged step => logged.step step) (logged_start l)
    obtain ⟨pool, rep, cursor, order⟩ := logged
    simp only [iterate, slotAddr_place]
    exact ⟨order, pointsAt_iff.mpr ⟨_, rfl, cursor ▸ rep.lanes l⟩⟩

/-- The first bump pointer of the default build. -/
theorem first_enumerates : Enumerates Config.makefile 0 0 0 := by
  apply bump_pointer_enumerates
  refine ⟨by decide, ?_, ?_⟩
  · rw [Config.heap_numUsableBags]
    exact Config.makefile.usable_pos
  · rw [Config.heap_build]
    decide

end FreeGuard.Soundness.BumpEnumeration
