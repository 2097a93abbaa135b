import FreeGuard.Proofs.Contents
import FreeGuard.Proofs.SmallRun

/-! # Canaries and neighbors

The neighbors of a shadow entry are those of the slots before and after its own in its lane: over the
ends of a bag the walk goes on in the next and the previous heap of the same item, and it stops before
the first slot. The canary of a slot that has been handed out stays in place as long as the program
writes only to usable bytes.
-/

namespace FreeGuard.Model

variable {c : Config} {s t : HeapState} {pool pool' : Pool c} {x y : Slot c} {l : Lane c} {n : ℕ}

/-! ## The walk -/

/-- The address of the canary of a slot. -/
def Slot.canary (x : Slot c) : ℕ := x.addr + classSize x.bag - 1

/-- A live slot whose canary has been overwritten. -/
def Slot.Broken (s : HeapState) (x : Slot c) : Prop := x.Live s ∧ s.mem x.canary ≠ CANARY_SENTINEL

instance (s : HeapState) (x : Slot c) : Decidable (x.Broken s) :=
  inferInstanceAs (Decidable (s.links x.entry = ALLOC_SENTINEL ∧ _))

/-- Two slots of one lane, no further apart than the check looks. -/
def Slot.Near (x y : Slot c) : Prop :=
  y.lane = x.lane ∧ y.seq ≤ x.seq + NUM_MORE_CANARIES_TO_CHECK ∧
    x.seq ≤ y.seq + NUM_MORE_CANARIES_TO_CHECK

theorem Slot.near_self (x : Slot c) : x.Near x :=
  ⟨rfl, Nat.le_add_right .., Nat.le_add_right ..⟩

/-- Along a lane the slots are ordered by heap and index. -/
theorem Slot.seq_lt_iff (same : x.lane = y.lane) :
    x.seq < y.seq ↔ x.heap < y.heap ∨ x.heap = y.heap ∧ x.index < y.index := by
  obtain ⟨-, bag, item⟩ := Lane.mk.inj same
  have quotX := Nat.div_add_mod x.heap c.items
  have quotY := Nat.div_add_mod y.heap c.items
  have indexX := x.index_lt
  have indexY := y.index_lt
  rw [bag] at indexX
  rw [item] at quotX
  rw [seq, seq, bag]
  rcases Nat.lt_trichotomy (x.heap / c.items) (y.heap / c.items) with less | equal | more
  · have rows := Nat.mul_le_mul_right (c.numObjects y.bag) (Nat.succ_le_of_lt less)
    have heaps := Nat.lt_of_div_lt_div less
    rw [Nat.succ_mul] at rows
    omega
  · rw [equal] at quotX
    rw [equal]
    omega
  · have rows := Nat.mul_le_mul_right (c.numObjects y.bag) (Nat.succ_le_of_lt more)
    have heaps := Nat.lt_of_div_lt_div more
    rw [Nat.succ_mul] at rows
    omega

theorem Slot.getHeapNumber_entry (x : Slot c) : c.heap.getHeapNumber x.entry = x.heap := by
  have offset : x.entry - c.shadowMemBegin = x.heap * 2 ^ c.ceilPower + x.rank * c.infoSize := by
    rw [Slot.entry, Config.entryAt]
    omega
  rw [BibopHeap.getHeapNumber, Config.heap_shadowMemBegin, Config.heap_ceilShiftBits, offset,
    Nat.shiftRight_eq_div_pow, Radix.mul_add_div_of_lt x.rank_small]

/-- `objectindex` of a shadow entry is the index of its slot. -/
theorem Slot.objectindex_entry (x : Slot c) :
    (((x.entry - c.heap._shadowMemBegin) &&& c.heap._shadowMemSizePerHeapMask) -
      (c.bag x.thread x.bag).startShadowMemOffset) >>> c.heap._shadowObjectInfoSizeShiftBits =
      x.index := by
  have offset : x.entry - c.shadowMemBegin = x.heap * 2 ^ c.ceilPower + x.rank * c.infoSize := by
    rw [Slot.entry, Config.entryAt]
    omega
  have within : x.rank * c.infoSize - (x.thread * c.objectsPerThread + c.objectsBefore x.bag) *
      c.infoSize = x.index * c.infoSize := by
    rw [← Nat.sub_mul, Slot.rank]
    congr 1
    omega
  rw [Config.heap_shadowMemBegin, Config.heap_shadowMemSizePerHeapMask,
    Config.heap_shadowObjectInfoSizeShiftBits, offset, Nat.and_two_pow_sub_one_eq_mod,
    Nat.mul_add_mod_of_lt x.rank_small]
  change (_ - (x.thread * c.objectsPerThread + c.objectsBefore x.bag) * c.infoSize) >>> _ = _
  rw [within, Nat.shiftRight_eq_div_pow]
  exact Nat.mul_div_cancel _ c.infoSize_pos

namespace Lane

/-- Within a bag the entries of a lane follow one another. -/
theorem entry_succ (inside : n % c.numObjects l.bag + 1 < c.numObjects l.bag) :
    (l.slot (n + 1)).entry = (l.slot n).entry + c.infoSize := by
  obtain ⟨heap, index⟩ := heapAt_succ inside
  have rank : (l.slot (n + 1)).rank = (l.slot n).rank + 1 := by
    change _ + (_ + (n + 1) % c.numObjects l.bag) = _ + (_ + n % c.numObjects l.bag) + 1
    rw [index]
    rfl
  change c.entryAt (l.heapAt (n + 1)) _ = c.entryAt (l.heapAt n) _ + _
  rw [heap, rank, Config.entryAt, Config.entryAt, Nat.succ_mul, Nat.add_assoc, Nat.add_assoc,
    Nat.add_assoc]

/-- From the last slot of a bag to the first of the next heap of the item. -/
theorem entry_next (last : ¬n % c.numObjects l.bag + 1 < c.numObjects l.bag) :
    (l.slot (n + 1)).entry =
      (l.slot n).entry + (c.bag l.thread l.bag).nextShadowHeapObjectOffset := by
  obtain ⟨heap, index⟩ := heapAt_next last
  have bound := Nat.mod_lt n (c.numObjects_pos l.bag)
  have atEnd : n % c.numObjects l.bag = c.numObjects l.bag - 1 := by omega
  have rank : (l.slot n).rank = (l.slot (n + 1)).rank + (c.numObjects l.bag - 1) := by
    change l.thread * c.objectsPerThread + (c.objectsBefore l.bag + n % c.numObjects l.bag) =
      l.thread * c.objectsPerThread + (c.objectsBefore l.bag + (n + 1) % c.numObjects l.bag) +
        (c.numObjects l.bag - 1)
    simp only [index, atEnd, Nat.add_zero, Nat.add_assoc]
  have fits := (l.slot n).rank_small
  have items := Nat.mul_le_mul_left (2 ^ c.ceilPower) c.items_pos
  change c.entryAt (l.heapAt (n + 1)) _ = c.entryAt (l.heapAt n) _ +
    (2 ^ c.ceilPower * c.items - (c.numObjects l.bag - 1) * c.infoSize)
  rw [rank, Nat.add_mul] at fits
  rw [heap, rank, Config.entryAt, Config.entryAt, Nat.add_mul, Nat.add_mul,
    Nat.mul_comm c.items (2 ^ c.ceilPower)]
  omega

/-- The neighbor to the right is the next slot. -/
theorem neighbor_right (l : Lane c) (n : ℕ) :
    c.heap.getNextCanaryNeighbor (l.slot n).entry l.bagRef .RIGHT = some (l.slot (n + 1)).entry := by
  have index := (l.slot n).objectindex_entry
  change _ = n % c.numObjects l.bag at index
  have bound := Nat.mod_lt n (c.numObjects_pos l.bag)
  simp only [BibopHeap.getNextCanaryNeighbor, Lane.bagRef,
    Config.heap_threadBag l.thread_lt l.bag_lt]
  change (if (_ - (c.bag l.thread l.bag).startShadowMemOffset) >>> _ = c.numObjects l.bag - 1 then _
    else _) = _
  rw [show (l.slot n).thread = l.thread from rfl, show (l.slot n).bag = l.bag from rfl] at index
  rw [index, Config.heap_shadowObjectInfoSize]
  split
  · rw [entry_next (by omega)]
  · rw [entry_succ (by omega)]

/-- The neighbor to the left is the slot before. -/
theorem neighbor_left (l : Lane c) (n : ℕ) :
    c.heap.getNextCanaryNeighbor (l.slot (n + 1)).entry l.bagRef .LEFT = some (l.slot n).entry := by
  have index := (l.slot (n + 1)).objectindex_entry
  have heap := (l.slot (n + 1)).getHeapNumber_entry
  change _ = (n + 1) % c.numObjects l.bag at index
  change _ = l.heapAt (n + 1) at heap
  simp only [BibopHeap.getNextCanaryNeighbor, Lane.bagRef,
    Config.heap_threadBag l.thread_lt l.bag_lt]
  rw [show (l.slot (n + 1)).thread = l.thread from rfl, show (l.slot (n + 1)).bag = l.bag from rfl]
    at index
  rw [index, heap, Config.heap_shadowObjectInfoSize, Config.heap_build]
  rcases Nat.lt_or_ge (n % c.numObjects l.bag + 1) (c.numObjects l.bag) with inside | last
  · rw [if_neg (by rw [(heapAt_succ inside).2]; exact Nat.succ_ne_zero _), entry_succ inside,
      Nat.add_sub_cancel]
  · obtain ⟨next, first⟩ := heapAt_next (Nat.not_lt.mpr last)
    have many : ¬l.heapAt (n + 1) < c.build.BIBOP_BAG_SET_SIZE := by
      rw [next]
      exact Nat.not_lt.mpr (Nat.le_add_left ..)
    simp only [if_pos first, if_neg many, entry_next (Nat.not_lt.mpr last), Nat.add_sub_cancel]

/-- The first slot of a lane has no neighbor to the left. -/
theorem neighbor_left_zero (l : Lane c) :
    c.heap.getNextCanaryNeighbor (l.slot 0).entry l.bagRef .LEFT = none := by
  have index := (l.slot 0).objectindex_entry
  have heap := (l.slot 0).getHeapNumber_entry
  change _ = 0 % c.numObjects l.bag at index
  change _ = l.heapAt 0 at heap
  have item : l.heapAt 0 < c.build.BIBOP_BAG_SET_SIZE := by
    rw [heapAt, Nat.zero_div, Nat.zero_mul, Nat.zero_add]
    exact l.item_lt
  simp only [BibopHeap.getNextCanaryNeighbor, Lane.bagRef,
    Config.heap_threadBag l.thread_lt l.bag_lt]
  rw [show (l.slot 0).thread = l.thread from rfl, show (l.slot 0).bag = l.bag from rfl] at index
  rw [index, heap, Config.heap_build, Nat.zero_mod, if_pos rfl, if_pos item]

/-- The slots that the check visits to the right of one. -/
def after (l : Lane c) : ℕ → ℕ → List (Slot c)
  | _, 0 => []
  | n, count + 1 => l.slot (n + 1) :: l.after (n + 1) count

/-- The slots that the check visits to the left of one. -/
def before (l : Lane c) : ℕ → ℕ → List (Slot c)
  | _, 0 => []
  | 0, _ + 1 => []
  | n + 1, count + 1 => l.slot n :: l.before n count

theorem mem_after {count : ℕ} :
    y ∈ l.after n count ↔ y.lane = l ∧ n < y.seq ∧ y.seq ≤ n + count := by
  induction count generalizing n with
  | zero =>
    apply iff_of_false List.not_mem_nil
    rintro ⟨-, above, below⟩
    omega
  | succ count ih =>
    rw [after, List.mem_cons, ih]
    constructor
    · rintro (rfl | ⟨lane, above, below⟩)
      · exact ⟨l.slot_lane _, by rw [slot_seq]; omega, by rw [slot_seq]; omega⟩
      · exact ⟨lane, by omega, by omega⟩
    · rintro ⟨rfl, above, below⟩
      rcases Nat.eq_or_lt_of_le above with first | later
      · left
        rw [← Nat.succ_eq_add_one, first, y.lane_slot]
      · exact .inr ⟨rfl, later, by omega⟩

theorem mem_before {count : ℕ} :
    y ∈ l.before n count ↔ y.lane = l ∧ y.seq < n ∧ n ≤ y.seq + count := by
  induction n, count using before.induct with
  | case1 n =>
    rw [before]
    apply iff_of_false List.not_mem_nil
    rintro ⟨-, below, above⟩
    omega
  | case2 count =>
    exact iff_of_false List.not_mem_nil fun both => Nat.not_lt_zero _ both.2.1
  | case3 n count ih =>
    rw [before, List.mem_cons, ih]
    constructor
    · rintro (rfl | ⟨lane, below, above⟩)
      · exact ⟨l.slot_lane _, by rw [slot_seq]; omega, by rw [slot_seq]; omega⟩
      · exact ⟨lane, by omega, by omega⟩
    · rintro ⟨rfl, below, above⟩
      rcases Nat.eq_or_lt_of_le (Nat.le_of_lt_succ below) with first | later
      · left
        rw [← first, y.lane_slot]
      · exact .inr ⟨rfl, later, by omega⟩

end Lane

/-! ## The check -/

/-- The first broken slot of a list ends the process. -/
def inspect (s : HeapState) (addr : ℕ) (ys : List (Slot c)) : Except Stop Unit :=
  match ys.find? (·.Broken s) with
  | none => .ok ()
  | some y => .error (.canary y.addr addr y.canary (s.mem y.canary))

theorem inspect_cons (s : HeapState) (addr : ℕ) (y : Slot c) (ys : List (Slot c)) :
    inspect s addr (y :: ys) = if y.Broken s then
      .error (.canary y.addr addr y.canary (s.mem y.canary)) else inspect s addr ys := by
  rw [inspect, List.find?_cons]
  cases broken : decide (y.Broken s) with
  | true => rw [if_pos (of_decide_eq_true broken)]
  | false => 
    rw [if_neg (of_decide_eq_false broken)]
    rfl

theorem inspect_append (s : HeapState) (addr : ℕ) (xs ys : List (Slot c)) :
    inspect s addr (xs ++ ys) =
      (do inspect s addr xs; inspect s addr ys) := by
  rw [inspect, inspect, List.find?_append]
  cases xs.find? (·.Broken s) <;> rfl

theorem inspect_eq_ok {addr : ℕ} {ys : List (Slot c)} :
    inspect s addr ys = .ok () ↔ ∀ y ∈ ys, ¬y.Broken s := by
  induction ys with
  | nil => exact iff_of_true rfl fun y member => absurd member List.not_mem_nil
  | cons y ys ih =>
    rw [inspect_cons, List.forall_mem_cons, ← ih]
    split
    · rename_i broken
      exact iff_of_false (by rintro ⟨⟩) fun both => both.1 broken
    · rename_i intact
      exact ⟨fun ok => ⟨intact, ok⟩, And.right⟩

theorem inspect_eq_error {addr : ℕ} {ys : List (Slot c)} (member : y ∈ ys) (broken : y.Broken s) :
    ∃ object byte value, inspect s addr ys = .error (.canary object addr byte value) := by
  rw [inspect]
  cases found : ys.find? (·.Broken s) with
  | none => 
    exact absurd (decide_eq_true broken) (List.find?_eq_none.mp found y member)
  | some z => exact ⟨_, _, _, rfl⟩

/-- Only the marks and the canaries of the slots matter. -/
theorem inspect_congr {other : HeapState} {addr : ℕ} {ys : List (Slot c)}
    (same : ∀ y ∈ ys, other.links y.entry = s.links y.entry ∧ other.mem y.canary = s.mem y.canary) :
    inspect other addr ys = inspect s addr ys := by
  induction ys with
  | nil => rfl
  | cons y ys ih =>
    obtain ⟨⟨links, mem⟩, rest⟩ := List.forall_mem_cons.mp same
    have broken : y.Broken other ↔ y.Broken s := by
      simp only [Slot.Broken, Slot.Live, links, mem]
    rw [inspect_cons, inspect_cons, mem, ih rest]
    exact if_congr broken rfl rfl

/-- One step of the walk, at a neighbor that is the entry of a slot. -/
theorem checkNeighbors_succ {shadowinfo addr count : ℕ} {move : Direction}
    (neighbor : c.heap.getNextCanaryNeighbor shadowinfo y.bagRef move = some y.entry) :
    c.heap.checkNeighbors s addr y.bagRef move (count + 1) shadowinfo =
      if y.Broken s then .error (.canary y.addr addr y.canary (s.mem y.canary))
      else c.heap.checkNeighbors s addr y.bagRef move count y.entry := by
  have back : c.heap.getAddrFromShadowInfo y.entry y.bagRef = y.addr :=
    y.getAddrFromShadowInfo_entry
  have size : (c.heap._threadBag y.bagRef).classSize = classSize y.bag :=
    congrArg PerThreadBag.classSize (Config.heap_threadBag y.thread_lt y.bag_lt)
  have test : (!BibopHeap.isObjectFree s y.entry && s.mem y.canary != CANARY_SENTINEL) = true ↔
      y.Broken s := by
    simp [BibopHeap.isObjectFree, Slot.Broken, Slot.Live]
  rw [BibopHeap.checkNeighbors, neighbor]
  dsimp only
  rw [back, size]
  exact if_congr test rfl rfl

/-- The walk to the right inspects the slots after. -/
theorem checkNeighbors_right (s : HeapState) (addr : ℕ) (l : Lane c) (n count : ℕ) :
    c.heap.checkNeighbors s addr l.bagRef .RIGHT count (l.slot n).entry =
      inspect s addr (l.after n count) := by
  induction count generalizing n with
  | zero => rfl
  | succ count ih =>
    rw [Lane.after, inspect_cons, ← ih]
    exact checkNeighbors_succ (y := l.slot (n + 1)) (l.neighbor_right n)

/-- The walk to the left inspects the slots before. -/
theorem checkNeighbors_left (s : HeapState) (addr : ℕ) (l : Lane c) (n count : ℕ) :
    c.heap.checkNeighbors s addr l.bagRef .LEFT count (l.slot n).entry =
      inspect s addr (l.before n count) := by
  induction n, count using Lane.before.induct with
  | case1 n => 
    rw [Lane.before]
    rfl
  | case2 count =>
    rw [BibopHeap.checkNeighbors, l.neighbor_left_zero]
    rfl
  | case3 n count ih =>
    rw [Lane.before, inspect_cons, ← ih]
    exact checkNeighbors_succ (y := l.slot n) (l.neighbor_left n)

/-- The slots whose canaries the check of an object reads. -/
def Slot.neighbors (x : Slot c) : List (Slot c) :=
  x.lane.before x.seq NUM_MORE_CANARIES_TO_CHECK ++ x.lane.after x.seq NUM_MORE_CANARIES_TO_CHECK

theorem Slot.mem_neighbors : y ∈ x.neighbors ↔ x.Near y ∧ y ≠ x := by
  rw [neighbors, List.mem_append, Lane.mem_before, Lane.mem_after, Near]
  constructor
  · rintro (⟨lane, below, above⟩ | ⟨lane, above, below⟩)
    · exact ⟨⟨lane, by omega, above⟩, fun same => absurd (same ▸ below) (lt_irrefl _)⟩
    · exact ⟨⟨lane, below, by omega⟩, fun same => absurd (same ▸ above) (lt_irrefl _)⟩
  · rintro ⟨⟨lane, right, left⟩, other⟩
    rcases Nat.lt_trichotomy y.seq x.seq with less | equal | more
    · exact .inl ⟨lane, less, left⟩
    · exact absurd (Slot.eq_of_seq lane equal) other
    · exact .inr ⟨lane, more, right⟩

theorem Slot.checkCanaries (s : HeapState) (x : Slot c) :
    c.heap.checkCanaries s x.addr x.bagRef x.entry =
      if s.mem x.canary ≠ CANARY_SENTINEL then
        .error (.canary x.addr x.addr x.canary (s.mem x.canary))
      else inspect s x.addr x.neighbors := by
  have size : (c.heap._threadBag x.bagRef).classSize = classSize x.bag :=
    congrArg PerThreadBag.classSize (Config.heap_threadBag x.thread_lt x.bag_lt)
  have left := checkNeighbors_left s x.addr x.lane x.seq NUM_MORE_CANARIES_TO_CHECK
  have right := checkNeighbors_right s x.addr x.lane x.seq NUM_MORE_CANARIES_TO_CHECK
  rw [x.lane_slot] at left right
  rw [neighbors, inspect_append, ← left, ← right, BibopHeap.checkCanaries]
  rw [size]
  exact if_congr bne_iff_ne rfl rfl

/-- The check of an object reads no mark and no canary but those near it. -/
theorem Slot.checkCanaries_congr {other : HeapState} (x : Slot c)
    (same : ∀ y, x.Near y →
      other.links y.entry = s.links y.entry ∧ other.mem y.canary = s.mem y.canary) :
    c.heap.checkCanaries other x.addr x.bagRef x.entry =
      c.heap.checkCanaries s x.addr x.bagRef x.entry := by
  rw [x.checkCanaries, x.checkCanaries, (same x x.near_self).2,
    inspect_congr fun y neighbor => same y (mem_neighbors.mp neighbor).1]

/-- Nothing is broken near a live slot: the check passes, and so does the deallocation. -/
theorem Represents.free_intact {threadIndex : ℕ} (rep : Represents c s pool) (live : x ∈ pool.live)
    (intact : c.build.canary = true → ∀ y, x.Near y → ¬y.Broken s) :
    ∃ t, c.heap.freeSmallObject threadIndex x.addr s = .ok t := by
  rw [rep.free_of_live x.leadsTo_addr live]
  cases canary : c.build.canary with
  | false => exact rep.freeMarked_plain x.leadsTo_addr live canary
  | true =>
    have checked : c.heap.checkCanaries s x.addr x.bagRef x.entry = .ok () := by
      have own : s.mem x.canary = CANARY_SENTINEL := not_not.mp fun broken =>
        intact canary x x.near_self ⟨rep.live_iff.mp live, broken⟩
      rw [x.checkCanaries, if_neg (not_not.mpr own), inspect_eq_ok]
      exact fun y neighbor => intact canary y (Slot.mem_neighbors.mp neighbor).1
    exact rep.freeMarked_checked x.leadsTo_addr live fun _ => checked

/-- Something is broken near a live slot: the check ends the process. -/
theorem Represents.free_broken {threadIndex : ℕ} (canary : c.build.canary = true)
    (rep : Represents c s pool) (live : x ∈ pool.live) (near : x.Near y) (broken : y.Broken s) :
    ∃ object byte value,
      c.heap.freeSmallObject threadIndex x.addr s = .error (.canary object x.addr byte value) := by
  have failed : ∃ object byte value, c.heap.checkCanaries s x.addr x.bagRef x.entry =
      .error (.canary object x.addr byte value) := by
    rw [x.checkCanaries]
    split
    · exact ⟨_, _, _, rfl⟩
    · rename_i own
      have other : y ≠ x := fun same => own (same ▸ broken.2)
      exact inspect_eq_error (Slot.mem_neighbors.mpr ⟨near, other⟩) broken
  obtain ⟨object, byte, value, failed⟩ := failed
  refine ⟨object, byte, value, ?_⟩
  rw [rep.free_of_live x.leadsTo_addr live, BibopHeap.freeMarked]
  simp only [Config.heap_build, canary, if_true, failed]
  rfl

/-! ## Stores to usable bytes -/

/-- A block of a usable bag, as an allocation returns it. -/
def Config.IsBlock (c : Config) (issue : Issue) : Prop :=
  ∃ h t b i, t < MAX_ALIVE_THREADS ∧ b < c.usable ∧ i * classSize b < c.bagSize ∧
    issue = ⟨c.bagBegin h t b + i * classSize b, classSize b⟩

/-- The bytes of a returned block that are its caller's: all but the canary. -/
def Issue.Usable (issue : Issue) (a : ℕ) : Prop :=
  issue.addr ≤ a ∧ a < issue.addr + (issue.classSize - 1)

/-- No usable byte of a block is the canary of a slot. -/
theorem Slot.canary_not_usable {issue : Issue} {a : ℕ} (block : c.IsBlock issue)
    (usable : issue.Usable a) (x : Slot c) : x.canary ≠ a := by
  obtain ⟨h, t, b, i, thread, number, small, rfl⟩ := block
  obtain ⟨above, below⟩ := usable
  dsimp only at above below
  have positive := classSize_pos x.bag
  have room := x.addr_fits
  have fits := c.block_fits number small
  intro same
  have place : c.bagBegin x.heap x.thread x.bag + (x.index * classSize x.bag + (classSize x.bag - 1)) =
      c.bagBegin h t b + (i * classSize b + (a - (c.bagBegin h t b + i * classSize b))) := by
    rw [canary, addr] at same
    omega
  obtain ⟨-, -, rfl, offset⟩ := Config.bagBegin_inj x.thread_lt thread x.bag_lt_numBags
    (Nat.lt_of_lt_of_le number c.usable_le_numBags) (by omega) (by omega) place
  have last := congrArg (· % classSize x.bag) offset
  simp only [Nat.mul_add_mod_self_right] at last
  rw [Nat.mod_eq_of_lt (by omega), Nat.mod_eq_of_lt (by omega)] at last
  omega

/-- An address that leads to an entry through a usable bag is that of a block. -/
theorem Config.LeadsTo.isBlock {addr : ℕ} {bag : BagRef} (leads : c.LeadsTo addr bag x)
    (usable : bag.2 < c.usable) : c.IsBlock ⟨addr, classSize bag.2⟩ := by
  obtain ⟨off, small, rfl, aligned, -⟩ := leads.place
  have whole := Nat.div_mul_cancel (Nat.dvd_of_mod_eq_zero (aligned usable))
  exact ⟨x.heap, bag.1, bag.2, off / classSize bag.2, leads.thread, usable, whole.symm ▸ small,
    by rw [whole]⟩

/-- A deallocation writes no canary. -/
theorem Slot.canary_freed {threadIndex addr : ℕ} {bag : BagRef} (canary : c.build.canary = true)
    (leads : c.LeadsTo addr bag x) (ok : c.heap.freeSmallObject threadIndex addr s = .ok t)
    (y : Slot c) : t.mem y.canary = s.mem y.canary := by
  apply (freeSmallObject_frame ok).1
  have ofBag : c.heap.bagOf addr = bag := by
    obtain ⟨off, small, rfl, -, -⟩ := leads.place
    exact Config.bagOf_at leads.thread leads.number small
  rw [ofBag, Build.canaryBytes, canary, if_pos rfl]
  intro inside
  rcases Nat.lt_or_ge bag.2 c.usable with usable | unusable
  · rw [show (c.heap._threadBag bag).classSize = classSize bag.2 from
      congrArg PerThreadBag.classSize (Config.heap_threadBag leads.thread usable)] at inside
    exact y.canary_not_usable (leads.isBlock usable) inside rfl
  · rw [show (c.heap._threadBag bag).classSize = 0 from
      congrArg PerThreadBag.classSize (Config.heap_unusable bag.1 unusable)] at inside
    omega

/-- An allocation puts a canary in place and breaks none. -/
theorem allocateSmallObject_canary {threadIndex p : ℕ} {size : size_t} {draws : Draws}
    (canary : c.build.canary = true) (thread : threadIndex < MAX_ALIVE_THREADS)
    (routed : c.build.IF_CANARY_CONDITION size = false)
    (ran : c.heap.allocateSmallObject threadIndex size draws s = (p, t)) :
    t.mem (p + classSize (c.bagNumOf size) - 1) = CANARY_SENTINEL ∧
      ∀ a, s.mem a = CANARY_SENTINEL → t.mem a = CANARY_SENTINEL := by
  rw [allocateSmallObject_mem thread routed ran, if_pos canary]
  refine ⟨Function.update_self .., fun a intact => ?_⟩
  rw [Function.update_apply]
  split
  · rfl
  · exact intact

end FreeGuard.Model
