import FreeGuard.Machine.SlotPool
import FreeGuard.Model.SmallHeap
import FreeGuard.Proofs.Slots

/-! # The bump pointers

A `Lane` is one bump pointer: an item of a usable bag. Its slots are those of the bag in every
`BIBOP_BAG_SET_SIZE`-th heap, in the order of their addresses, and `incrementBumpPointer` moves from
each slot to the next. A random guard covers `guardSlots` of them and moves past these.
-/

namespace FreeGuard.Model

open Machine

/-- A bump pointer. -/
@[ext] structure Lane (c : Config) where
  thread : ℕ
  bag : ℕ
  item : ℕ
  thread_lt : thread < MAX_ALIVE_THREADS
  bag_lt : bag < c.usable
  item_lt : item < c.items
deriving DecidableEq

variable {c : Config} {x y : Slot c} {l : Lane c} {m n : ℕ}

theorem Config.items_pos : 0 < c.items := Nat.two_pow_pos _

namespace Slot

/-- The bag of a slot. -/
def bagRef (x : Slot c) : BagRef := (x.thread, x.bag)

/-- The bump pointer that reaches a slot. -/
def lane (x : Slot c) : Lane c :=
  ⟨x.thread, x.bag, x.heap % c.items, x.thread_lt, x.bag_lt, Nat.mod_lt _ c.items_pos⟩

/-- The place of a slot in its lane. -/
def seq (x : Slot c) : ℕ := x.heap / c.items * c.numObjects x.bag + x.index

theorem seq_div (x : Slot c) : x.seq / c.numObjects x.bag = x.heap / c.items :=
  Radix.mul_add_div_of_lt x.index_lt

theorem seq_mod (x : Slot c) : x.seq % c.numObjects x.bag = x.index :=
  Nat.mul_add_mod_of_lt x.index_lt

end Slot

namespace Lane

def bagRef (l : Lane c) : BagRef := (l.thread, l.bag)

/-- The item that holds the bump pointer. -/
def ref (l : Lane c) : ItemRef := (l.bagRef, l.item)

theorem ref_inj {k : Lane c} (same : k.ref = l.ref) : k = l := by
  obtain ⟨bag, item⟩ := Prod.mk.inj same
  obtain ⟨thread, bag⟩ := Prod.mk.inj bag
  exact Lane.ext thread bag item

/-- The heap of a place in a lane. -/
def heapAt (l : Lane c) (n : ℕ) : ℕ := n / c.numObjects l.bag * c.items + l.item

/-- The slot of a place in a lane. -/
def slot (l : Lane c) (n : ℕ) : Slot c where
  heap := l.heapAt n
  thread := l.thread
  bag := l.bag
  index := n % c.numObjects l.bag
  thread_lt := l.thread_lt
  bag_lt := l.bag_lt
  index_lt := Nat.mod_lt _ (c.numObjects_pos _)

/-- What `lastofCurBag` is at a place in a lane: the last slot of the same bag. -/
def last (l : Lane c) (n : ℕ) : ℕ :=
  c.bagBegin (l.heapAt n) l.thread l.bag + (c.numObjects l.bag - 1) * classSize l.bag

theorem slot_lane (l : Lane c) (n : ℕ) : (l.slot n).lane = l :=
  Lane.ext rfl rfl (Nat.mul_add_mod_of_lt l.item_lt)

theorem slot_seq (l : Lane c) (n : ℕ) : (l.slot n).seq = n := by
  change (l.heapAt n) / c.items * c.numObjects l.bag + n % c.numObjects l.bag = n
  simp only [heapAt, Radix.mul_add_div_of_lt l.item_lt, Nat.div_add_mod']

end Lane

theorem Slot.lane_slot (x : Slot c) : x.lane.slot x.seq = x := by
  refine Slot.ext ?_ rfl rfl x.seq_mod
  change x.seq / c.numObjects x.bag * c.items + x.heap % c.items = x.heap
  simp only [x.seq_div, Nat.div_add_mod']

theorem Slot.eq_of_seq (lane : x.lane = y.lane) (seq : x.seq = y.seq) : x = y := by
  rw [← x.lane_slot, ← y.lane_slot, lane, seq]

/-- The slots of the heap, numbered along the bump pointers. -/
def Config.slots (c : Config) : Enumeration (Slot c) (Lane c) where
  lane := Slot.lane
  seq := Slot.seq
  inj := Slot.eq_of_seq

/-! ## Addresses -/

/-- An address lies in one bag of one heap. -/
theorem Config.bagBegin_inj {h h' t t' b b' off off' : ℕ} (thread : t < MAX_ALIVE_THREADS)
    (thread' : t' < MAX_ALIVE_THREADS) (bag : b < c.numBags) (bag' : b' < c.numBags)
    (small : off < c.bagSize) (small' : off' < c.bagSize)
    (same : c.bagBegin h t b + off = c.bagBegin h' t' b' + off') :
    h = h' ∧ t = t' ∧ b = b' ∧ off = off' := by
  have heap := Config.heapIndex_at (h := h) thread bag small
  have place := Config.bagOf_at (h := h) thread bag small
  have offset := Config.localBagOffset_at (h := h) (t := t) (b := b) small
  rw [same, Config.heapIndex_at thread' bag' small'] at heap
  rw [same, Config.bagOf_at thread' bag' small'] at place
  rw [same, Config.localBagOffset_at small'] at offset
  obtain ⟨thread, bag⟩ := Prod.mk.inj place
  exact ⟨heap.symm, thread.symm, bag.symm, offset.symm⟩

namespace Slot

theorem bag_lt_numBags (x : Slot c) : x.bag < c.numBags :=
  Nat.lt_of_lt_of_le x.bag_lt c.usable_le_numBags

/-- A byte of a slot determines the slot. -/
theorem eq_of_byte {i j : ℕ} (first : i < classSize x.bag) (second : j < classSize y.bag)
    (same : x.addr + i = y.addr + j) : x = y := by
  have fits : x.index * classSize x.bag + i < c.bagSize := by
    have := x.addr_fits
    omega
  have fits' : y.index * classSize y.bag + j < c.bagSize := by
    have := y.addr_fits
    omega
  obtain ⟨heap, thread, bag, offset⟩ := Config.bagBegin_inj x.thread_lt y.thread_lt x.bag_lt_numBags
    y.bag_lt_numBags fits fits' (by rw [← Nat.add_assoc, ← Nat.add_assoc]; exact same)
  have index := Radix.mul_add_div_of_lt (a := x.index) first
  rw [offset, bag, Radix.mul_add_div_of_lt second] at index
  exact Slot.ext heap thread bag index.symm

theorem addr_inj (same : x.addr = y.addr) : x = y :=
  eq_of_byte (classSize_pos _) (classSize_pos _) (congrArg (· + 0) same)

/-- Distinct slots have disjoint byte ranges. -/
theorem apart (different : x ≠ y) :
    x.addr + classSize x.bag ≤ y.addr ∨ y.addr + classSize y.bag ≤ x.addr := by
  by_contra! overlap
  obtain ⟨below, above⟩ := overlap
  have xPos := classSize_pos x.bag
  have yPos := classSize_pos y.bag
  rcases Nat.le_total x.addr y.addr with before | after
  · exact different (eq_of_byte (i := y.addr - x.addr) (j := 0) (by omega) yPos (by omega))
  · exact different (eq_of_byte (i := 0) (j := x.addr - y.addr) xPos (by omega) (by omega))

end Slot

namespace Lane

theorem addr_lt_last_iff (l : Lane c) (n : ℕ) :
    (l.slot n).addr < l.last n ↔ n % c.numObjects l.bag + 1 < c.numObjects l.bag := by
  change c.bagBegin (l.heapAt n) l.thread l.bag + n % c.numObjects l.bag * classSize l.bag <
    c.bagBegin (l.heapAt n) l.thread l.bag + (c.numObjects l.bag - 1) * classSize l.bag ↔ _
  rw [Nat.add_lt_add_iff_left, Nat.mul_lt_mul_right (classSize_pos _)]
  omega

/-- Places of a lane in the same bag. -/
theorem heapAt_add {i : ℕ} (inside : n % c.numObjects l.bag + i < c.numObjects l.bag) :
    l.heapAt (n + i) = l.heapAt n ∧ (n + i) % c.numObjects l.bag = n % c.numObjects l.bag + i := by
  have split := Nat.div_add_mod' n (c.numObjects l.bag)
  constructor
  · rw [heapAt, heapAt]
    congr 2
    conv_lhs => rw [← split, Nat.add_assoc, Radix.mul_add_div_of_lt inside]
  · conv_lhs => rw [← split, Nat.add_assoc, Nat.mul_add_mod_of_lt inside]

/-- The next place of a lane in the same bag. -/
theorem heapAt_succ (inside : n % c.numObjects l.bag + 1 < c.numObjects l.bag) :
    l.heapAt (n + 1) = l.heapAt n ∧
      (n + 1) % c.numObjects l.bag = n % c.numObjects l.bag + 1 :=
  heapAt_add inside

/-- The next place of a lane in the next heap of its item. -/
theorem heapAt_next (last : ¬n % c.numObjects l.bag + 1 < c.numObjects l.bag) :
    l.heapAt (n + 1) = l.heapAt n + c.items ∧ (n + 1) % c.numObjects l.bag = 0 := by
  have split := Nat.div_add_mod' n (c.numObjects l.bag)
  have bound := Nat.mod_lt n (c.numObjects_pos l.bag)
  have whole : n + 1 = (n / c.numObjects l.bag + 1) * c.numObjects l.bag := by
    rw [Nat.succ_mul]
    omega
  constructor
  · rw [heapAt, whole, Nat.mul_div_cancel _ (c.numObjects_pos _), heapAt, Nat.succ_mul]
    omega
  · simp only [whole, Nat.mul_mod_left]

theorem addr_add {i : ℕ} (inside : n % c.numObjects l.bag + i < c.numObjects l.bag) :
    (l.slot (n + i)).addr = (l.slot n).addr + i * classSize l.bag := by
  obtain ⟨heap, index⟩ := heapAt_add inside
  change c.bagBegin (l.heapAt (n + i)) l.thread l.bag +
      (n + i) % c.numObjects l.bag * classSize l.bag =
    c.bagBegin (l.heapAt n) l.thread l.bag + n % c.numObjects l.bag * classSize l.bag +
      i * classSize l.bag
  simp only [heap, index, Nat.add_mul, Nat.add_assoc]

theorem addr_succ (inside : n % c.numObjects l.bag + 1 < c.numObjects l.bag) :
    (l.slot (n + 1)).addr = (l.slot n).addr + classSize l.bag := by
  simp only [addr_add inside, Nat.one_mul]

theorem addr_next (last : ¬n % c.numObjects l.bag + 1 < c.numObjects l.bag) :
    (l.slot (n + 1)).addr =
      (l.slot n).addr + (c.bag l.thread l.bag).nextHeapObjectOffset := by
  obtain ⟨heap, index⟩ := heapAt_next last
  have bound := Nat.mod_lt n (c.numObjects_pos l.bag)
  have atEnd : n % c.numObjects l.bag = c.numObjects l.bag - 1 := by omega
  have fill := Config.objects_add_guard l.bag_lt
  have one := Nat.mul_le_mul_right (classSize l.bag) (c.numObjects_pos l.bag)
  have room : c.bagSize ≤ c.heapSize :=
    Nat.le_mul_of_pos_left _ (Nat.mul_pos (by decide) c.numBags_pos)
  have items : c.heapSize * (c.items - 1) + c.heapSize = c.items * c.heapSize := by
    rw [← Nat.mul_succ, Nat.succ_eq_add_one, Nat.sub_add_cancel c.items_pos, Nat.mul_comm]
  change c.bagBegin (l.heapAt (n + 1)) l.thread l.bag +
      (n + 1) % c.numObjects l.bag * classSize l.bag =
    c.bagBegin (l.heapAt n) l.thread l.bag + n % c.numObjects l.bag * classSize l.bag +
      (c.heapSize * (c.items - 1) +
        (c.heapSize - c.bagSize + classSize l.bag + c.guardoffset l.bag))
  rw [heap, index, atEnd, Config.bagBegin, Config.bagBegin, Nat.add_mul, Nat.zero_mul, Nat.sub_mul]
  omega

theorem last_succ (inside : n % c.numObjects l.bag + 1 < c.numObjects l.bag) :
    l.last (n + 1) = l.last n := by
  simp only [last, (heapAt_succ inside).1]

/-- Addresses grow along a lane. -/
theorem addr_strictMono (l : Lane c) : StrictMono fun n => (l.slot n).addr := by
  apply strictMono_nat_of_lt_succ
  intro n
  have size := classSize_pos l.bag
  by_cases inside : n % c.numObjects l.bag + 1 < c.numObjects l.bag
  · rw [addr_succ inside]
    omega
  · rw [addr_next inside]
    change _ < _ + (_ + (_ + classSize l.bag + _))
    omega

/-- The guards that moving to a place sets: one at the end of a bag that is entered there. -/
def entered (l : Lane c) (n : ℕ) : List Guard :=
  if n % c.numObjects l.bag = 0 ∧ c.build.guardPage = true ∧ c.guardsize l.bag ≠ 0 then
    [c.endGuard (l.heapAt n) l.thread l.bag]
  else []

/-- The state of a lane at a place. -/
structure At (l : Lane c) (n : ℕ) (s : HeapState) : Prop where
  position : s.position l.ref = (l.slot n).addr
  last : s.lastofCurBag l.ref = l.last n

/-- The state after a lane has moved to a place, setting guards. -/
def move (l : Lane c) (n : ℕ) (guards : List Guard) (s : HeapState) : HeapState :=
  { s with
    position := Function.update s.position l.ref (l.slot n).addr
    lastofCurBag := Function.update s.lastofCurBag l.ref (l.last n)
    guards := s.guards ++ guards }

theorem at_move (l : Lane c) (n : ℕ) (guards : List Guard) (s : HeapState) :
    l.At n (l.move n guards s) :=
  ⟨Function.update_self .., Function.update_self ..⟩

theorem move_move (l : Lane c) (m n : ℕ) (first second : List Guard) (s : HeapState) :
    l.move n second (l.move m first s) = l.move n (first ++ second) s := by
  simp only [move, Function.update_idem, List.append_assoc]

theorem heap_threadBag (l : Lane c) : c.heap._threadBag l.bagRef = c.bag l.thread l.bag :=
  Config.heap_threadBag l.thread_lt l.bag_lt

/-- `incrementBumpPointer` moves to the next place. -/
theorem incrementBumpPointer_at {s : HeapState} (start : l.At n s) :
    c.heap.incrementBumpPointer l.bagRef l.item s = l.move (n + 1) (l.entered (n + 1)) s := by
  have item : (l.bagRef, l.item) = l.ref := rfl
  simp only [BibopHeap.incrementBumpPointer, item, heap_threadBag, start.position, start.last,
    addr_lt_last_iff, Config.heap_build]
  by_cases inside : n % c.numObjects l.bag + 1 < c.numObjects l.bag
  · have stays : Function.update s.lastofCurBag l.ref (l.last (n + 1)) = s.lastofCurBag := by
      rw [last_succ inside, ← start.last, Function.update_eq_self]
    have none : l.entered (n + 1) = [] := by
      rw [entered, if_neg]
      rw [(heapAt_succ inside).2]
      omega
    rw [if_pos inside, move, none, stays, List.append_nil, addr_succ inside]
    rfl
  · obtain ⟨heap, index⟩ := heapAt_next inside
    have start' : (l.slot (n + 1)).addr = c.bagBegin (l.heapAt (n + 1)) l.thread l.bag := by
      change _ + (n + 1) % _ * _ = _
      rw [index, Nat.zero_mul, Nat.add_zero]
      rfl
    have offset : (if c.build.guardPage = true then (c.bag l.thread l.bag).guardoffset else 0) =
        c.guardoffset l.bag := by
      split
      · rfl
      · rename_i unguarded
        rw [Config.guardoffset, Config.reserved, if_neg fun both => unguarded both.1, Nat.zero_mul]
    have atEnd : c.heap.getLastOfBag (l.slot (n + 1)).addr (c.guardoffset l.bag) (classSize l.bag) =
        l.last (n + 1) := by
      rw [start']
      exact Config.lastOfBag_eq l.bag_lt _
    rw [if_neg inside, offset, ← addr_next inside]
    change HeapState.mk _ _ (Function.update _ _
      (c.heap.getLastOfBag _ (c.guardoffset l.bag) (classSize l.bag))) _ _ _ _ _ = _
    rw [atEnd, move]
    congr 1
    rw [entered, BibopHeap.setGuardPage]
    change (if _ then if c.guardsize l.bag = 0 then _ else
      s.guards ++ [(⟨false, _ + c.bagSize - _, c.guardsize l.bag⟩ : Guard)] else _) = _
    rw [start', index]
    by_cases guarded : c.build.guardPage = true
    · rcases eq_or_ne (c.guardsize l.bag) 0 with none | none
      · simp [guarded, none]
      · simp [guarded, none, Config.endGuard]
    · simp [guarded]

/-! ## Random guards -/

/-- The slots that a random guard covers. -/
def guardSlots (b : ℕ) : ℕ := 2 ^ (8 - b)

/-- The guard that `tryRandomGuardPage` sets at a place. -/
def randomGuard (l : Lane c) (n : ℕ) : Guard :=
  ⟨true, (l.slot n).addr, guardSlots l.bag * classSize l.bag⟩

/-- A place where a random guard may be set. -/
def PageAligned (l : Lane c) (n : ℕ) : Prop := (l.slot n).addr % PageSize = 0

instance (l : Lane c) (n : ℕ) : Decidable (l.PageAligned n) :=
  inferInstanceAs (Decidable (_ = 0))

theorem guardSlots_pos (b : ℕ) : 0 < guardSlots b := Nat.two_pow_pos _

theorem guardSize_eq (b : ℕ) :
    guardSlots b * classSize b = if classSize b < PageSize then PageSize else classSize b := by
  have page : PageSize = 2 ^ 12 := rfl
  rw [guardSlots, classSize, ← Nat.pow_add, page]
  split
  · rename_i small
    have := (Nat.pow_lt_pow_iff_right (by decide)).mp small
    congr 1
    omega
  · rename_i big
    have := (Nat.pow_le_pow_iff_right (by decide)).mp (Nat.le_of_not_lt big)
    congr 1
    omega

theorem guardSlots_dvd_numObjects (l : Lane c) : guardSlots l.bag ∣ c.numObjects l.bag := by
  have fits := c.usable_le_bagPower
  have usable := l.bag_lt
  have many := c.usable_ge
  apply Nat.dvd_sub (Nat.pow_dvd_pow 2 (by omega))
  rw [Config.reserved]
  split
  · exact dvd_rfl
  · exact dvd_zero _

theorem bagBegin_aligned (h t b : ℕ) : PageSize ∣ c.bagBegin h t b := by
  have page := c.page_dvd_bagSize
  refine Nat.dvd_add (Nat.dvd_add c.heapBegin_aligned ?_) (Nat.dvd_add ?_ ?_)
  · exact ((page.mul_left _).mul_left _)
  · exact ((page.mul_left _).mul_left _)
  · exact page.mul_left _

/-- At a page boundary the slots under a random guard are all in one bag. -/
theorem guard_in_bag (aligned : l.PageAligned n) :
    n % c.numObjects l.bag + guardSlots l.bag ≤ c.numObjects l.bag := by
  have onPage : guardSlots l.bag ∣ n % c.numObjects l.bag := by
    have whole : PageSize ∣ n % c.numObjects l.bag * classSize l.bag :=
      (Nat.dvd_add_right (bagBegin_aligned (c := c) (l.heapAt n) l.thread l.bag)).mp
        (Nat.dvd_of_mod_eq_zero aligned)
    by_cases small : classSize l.bag < PageSize
    · have size := guardSize_eq l.bag
      rw [if_pos small] at size
      rw [← size] at whole
      exact Nat.dvd_of_mul_dvd_mul_right (classSize_pos _) whole
    · have one : guardSlots l.bag = 1 := by
        rw [classSize, show PageSize = 2 ^ 12 from rfl,
          Nat.pow_lt_pow_iff_right (by decide)] at small
        rw [guardSlots, show 8 - l.bag = 0 by omega, Nat.pow_zero]
      exact one ▸ one_dvd _
  obtain ⟨j, at'⟩ := onPage
  obtain ⟨k, objects⟩ := l.guardSlots_dvd_numObjects
  have bound := Nat.mod_lt n (c.numObjects_pos l.bag)
  rw [at', objects] at bound ⊢
  exact Nat.mul_le_mul_left _ (Nat.lt_of_mul_lt_mul_left bound)

/-- `tryRandomGuardPage` at a page boundary, when the draw asks for a guard. -/
theorem tryRandomGuardPage_at {s : HeapState} {draw : BitVec 32} (start : l.At n s)
    (aligned : l.PageAligned n) (drawn : c.build.belowGuardCutoff draw.toInt = true) :
    c.heap.tryRandomGuardPage l.bagRef l.item draw s =
      l.move (n + guardSlots l.bag)
        (l.randomGuard n :: l.entered (n + guardSlots l.bag)) s := by
  have item : (l.bagRef, l.item) = l.ref := rfl
  have positive := guardSlots_pos l.bag
  have inBag := guard_in_bag aligned
  have inside : n % c.numObjects l.bag + (guardSlots l.bag - 1) < c.numObjects l.bag := by omega
  have size : (if (c.bag l.thread l.bag).classSize < PageSize then PageSize
      else (c.bag l.thread l.bag).classSize) = guardSlots l.bag * classSize l.bag :=
    (guardSize_eq l.bag).symm
  have stays : Function.update s.lastofCurBag l.ref (l.last (n + (guardSlots l.bag - 1))) =
      s.lastofCurBag := by
    have same : l.last (n + (guardSlots l.bag - 1)) = l.last n := by
      simp only [last, (heapAt_add inside).1]
    rw [same, ← start.last, Function.update_eq_self]
  have position : (if (c.bag l.thread l.bag).classSize < PageSize then
        Function.update s.position l.ref ((l.slot n).addr +
          (PageSize / (c.bag l.thread l.bag).classSize - 1) * (c.bag l.thread l.bag).classSize)
      else s.position) =
      Function.update s.position l.ref (l.slot (n + (guardSlots l.bag - 1))).addr := by
    have slots := guardSize_eq l.bag
    rw [addr_add inside]
    change (if classSize l.bag < PageSize then Function.update s.position l.ref ((l.slot n).addr +
      (PageSize / classSize l.bag - 1) * classSize l.bag) else _) = _
    split
    · rename_i small
      rw [if_pos small] at slots
      rw [← slots, Nat.mul_div_cancel _ (classSize_pos _)]
    · rename_i big
      rw [if_neg big] at slots
      have one : guardSlots l.bag = 1 :=
        Nat.eq_of_mul_eq_mul_right (classSize_pos l.bag) (by rw [slots, Nat.one_mul])
      rw [one, Nat.sub_self, Nat.zero_mul, Nat.add_zero, ← start.position, Function.update_eq_self]
  have prepared : ({ s with
      position := if (c.bag l.thread l.bag).classSize < PageSize then
          Function.update s.position l.ref ((l.slot n).addr +
            (PageSize / (c.bag l.thread l.bag).classSize - 1) * (c.bag l.thread l.bag).classSize)
        else s.position
      guards := s.guards ++ [⟨true, (l.slot n).addr, if (c.bag l.thread l.bag).classSize < PageSize
        then PageSize else (c.bag l.thread l.bag).classSize⟩] } : HeapState) =
      l.move (n + (guardSlots l.bag - 1)) [l.randomGuard n] s := by
    rw [position, size, move, stays]
    rfl
  simp only [BibopHeap.tryRandomGuardPage, item, heap_threadBag, Config.heap_build, drawn, if_true,
    start.position]
  rw [prepared, incrementBumpPointer_at (l.at_move ..), move_move, Nat.add_assoc,
    Nat.sub_add_cancel positive]
  rfl

/-- Whether moving to a place is followed by a random guard. -/
def Guards (l : Lane c) (n : ℕ) (draw : BitVec 32) : Prop :=
  c.build.randomGuard = true ∧ l.PageAligned n ∧ c.build.belowGuardCutoff draw.toInt = true

instance (l : Lane c) (n : ℕ) (draw : BitVec 32) : Decidable (l.Guards n draw) :=
  inferInstanceAs (Decidable (_ ∧ _ ∧ _))

/-- The slots that an allocation at a place skips. -/
def skips (l : Lane c) (n : ℕ) (draw : BitVec 32) : ℕ :=
  if l.Guards (n + 1) draw then guardSlots l.bag else 0

/-- The guards that an allocation at a place sets. -/
def guardsSet (l : Lane c) (n : ℕ) (draw : BitVec 32) : List Guard :=
  l.entered (n + 1) ++ if l.Guards (n + 1) draw then
    l.randomGuard (n + 1) :: l.entered (n + 1 + guardSlots l.bag) else []

/-- `incrementBumpPointer` with the random guard after it. -/
theorem bump_at {s : HeapState} {draw : BitVec 32} (start : l.At n s) :
    (if c.heap.build.randomGuard &&
        (c.heap.incrementBumpPointer l.bagRef l.item s).position l.ref &&& PageMask == 0 then
      c.heap.tryRandomGuardPage l.bagRef l.item draw (c.heap.incrementBumpPointer l.bagRef l.item s)
    else c.heap.incrementBumpPointer l.bagRef l.item s) =
      l.move (n + 1 + l.skips n draw) (l.guardsSet n draw) s := by
  have atPage : (l.slot (n + 1)).addr &&& PageMask = (l.slot (n + 1)).addr % PageSize :=
    Nat.and_two_pow_sub_one_eq_mod _ 12
  simp only [incrementBumpPointer_at start, (l.at_move ..).position, Config.heap_build, atPage,
    Bool.and_eq_true, beq_iff_eq]
  rw [guardsSet, skips]
  by_cases fires : l.Guards (n + 1) draw
  · obtain ⟨random, aligned, drawn⟩ := fires
    rw [if_pos ⟨random, aligned⟩, tryRandomGuardPage_at (l.at_move ..) aligned drawn, move_move,
      if_pos ⟨random, aligned, drawn⟩, if_pos ⟨random, aligned, drawn⟩]
  · rw [if_neg fires, if_neg fires, List.append_nil, Nat.add_zero]
    split
    · rename_i eligible
      rw [BibopHeap.tryRandomGuardPage, Config.heap_build,
        if_neg fun drawn => fires ⟨eligible.1, eligible.2, drawn⟩]
    · rfl

/-- An allocation that uses the bump pointer. -/
theorem takeObject_bump {s : HeapState} {draws : Draws} (start : l.At n s)
    (item : (c.heap.selectList draws.list).1 = l.item)
    (bump : IS_FREELIST_EMPTY (s.freelist l.ref) = true ∨
      (c.heap.selectList draws.list).2 = true) :
    c.heap.takeObject l.bagRef draws s =
      ((l.slot n).addr,
        l.move (n + 1 + l.skips n draws.guard) (l.guardsSet n draws.guard) s) := by
  have same : (l.bagRef, l.item) = l.ref := rfl
  have unused : (!IS_FREELIST_EMPTY (s.freelist l.ref) &&
      !(c.heap.selectList draws.list).2) = false := by
    rcases bump with empty | chosen
    · rw [empty]
      rfl
    · simp only [chosen, Bool.not_true, Bool.and_false]
  simp only [BibopHeap.takeObject, item, same, unused, Bool.false_eq_true, if_false, start.position,
    bump_at start]

/-- The slots whose start a random guard covers. -/
theorem covered_iff (aligned : l.PageAligned n) :
    ((l.randomGuard n).addr ≤ x.addr ∧ x.addr < (l.randomGuard n).addr + (l.randomGuard n).size) ↔
      x.lane = l ∧ n ≤ x.seq ∧ x.seq < n + guardSlots l.bag := by
  have inBag := guard_in_bag aligned
  change ((l.slot n).addr ≤ x.addr ∧ x.addr < (l.slot n).addr + guardSlots l.bag * classSize l.bag) ↔ _
  constructor
  · rintro ⟨lower, upper⟩
    obtain ⟨d, same⟩ := Nat.exists_eq_add_of_le lower
    have small : d < guardSlots l.bag * classSize l.bag := by omega
    have fill := Config.objects_add_guard l.bag_lt
    have fits := Nat.mul_le_mul_right (classSize l.bag) inBag
    rw [Nat.add_mul] at fits
    have within : n % c.numObjects l.bag * classSize l.bag + d < c.bagSize := by omega
    have place : c.bagBegin x.heap x.thread x.bag + x.index * classSize x.bag =
        c.bagBegin (l.heapAt n) l.thread l.bag + (n % c.numObjects l.bag * classSize l.bag + d) := by
      rw [← Nat.add_assoc]
      exact same
    obtain ⟨heap, thread, bag, offset⟩ := Config.bagBegin_inj x.thread_lt l.thread_lt
      x.bag_lt_numBags (Nat.lt_of_lt_of_le l.bag_lt c.usable_le_numBags) x.offset_lt within place
    rw [bag] at offset
    have lane : x.lane = l := Lane.ext thread bag (by
      change x.heap % c.items = l.item
      rw [heap, heapAt, Nat.mul_add_mod_of_lt l.item_lt])
    have first : n % c.numObjects l.bag ≤ x.index :=
      Nat.le_of_mul_le_mul_right (by omega) (classSize_pos l.bag)
    have last : x.index < n % c.numObjects l.bag + guardSlots l.bag :=
      Nat.lt_of_mul_lt_mul_right (a := classSize l.bag) (by rw [Nat.add_mul]; omega)
    have seq : x.seq = n / c.numObjects l.bag * c.numObjects l.bag + x.index := by
      simp only [Slot.seq, bag, heap, heapAt, Radix.mul_add_div_of_lt l.item_lt]
    have split := Nat.div_add_mod' n (c.numObjects l.bag)
    exact ⟨lane, by omega, by omega⟩
  · rintro ⟨rfl, first, last⟩
    obtain ⟨i, place⟩ := Nat.exists_eq_add_of_le first
    have below : i < guardSlots x.lane.bag := by omega
    have addr := addr_add (l := x.lane) (n := n) (i := i) (by omega)
    rw [← place, x.lane_slot] at addr
    have := Nat.mul_lt_mul_of_pos_right below (classSize_pos x.lane.bag)
    omega

/-- Addresses and places of one lane are in the same order. -/
theorem addr_lt_iff {n : ℕ} : x.addr < (x.lane.slot n).addr ↔ x.seq < n := by
  have mono := x.lane.addr_strictMono.lt_iff_lt (a := x.seq) (b := n)
  simpa only [x.lane_slot] using mono

end Lane

end FreeGuard.Model
