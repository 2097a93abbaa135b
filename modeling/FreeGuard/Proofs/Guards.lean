import FreeGuard.Proofs.Contents
import FreeGuard.Proofs.SmallRun

/-! # Guards

Every guard is one at the end of a bag or a random one, and both consist of whole pages. No slot has a
byte in a guard, but those that a random guard skips. `initialize` sets the guards at the ends of the
bags where the bump pointers start, and `incrementBumpPointer` those of the bags that it enters.
-/

namespace FreeGuard.Model

open Machine

variable {c : Config} {x : Slot c} {l : Lane c} {t b n a : ℕ}

/-! ## The guards of the initialized heap -/

namespace Config

/-- The guards at the ends of the bags that the loops have passed are set. -/
def EndGuards (c : Config) (t j : ℕ) (s : BibopHeap.InitState) : Prop :=
  ∀ t' b', c.Visited t j t' b' → c.guardsize b' ≠ 0 → ∀ i < c.items,
    c.endGuard i t' b' ∈ s.state.guards

variable (guarded : c.build.guardPage = true)
include guarded

theorem initPosition_guards (some : c.guardsize b ≠ 0) (s : HeapState) :
    (c.parameters.initPosition (t, b) (c.startOffset t b) (classSize b)
      (c.guardsize b, c.guardoffset b) n s).guards = s.guards ++ [c.endGuard n t b] := by
  have place : c.heapBegin + c.startOffset t b + n * c.heapSize = c.bagBegin n t b := by
    rw [bagBegin]
    omega
  simp only [BibopHeap.initPosition, parameters_build, guarded, if_true, BibopHeap.setGuardPage, some,
    if_false, parameters_heapSize]
  change s.guards ++ [⟨false, c.heapBegin + _ + _ + c.bagSize - _, _⟩] = _
  rw [place]
  rfl

/-- The items of one bag get their guards. -/
theorem items_guards (old : HeapState) :
    let new := forRange c.items (c.parameters.initPosition (t, b) (c.startOffset t b) (classSize b)
      (c.guardsize b, c.guardoffset b)) old
    (∀ g ∈ old.guards, g ∈ new.guards) ∧
      (c.guardsize b ≠ 0 → ∀ i < c.items, c.endGuard i t b ∈ new.guards) := by
  refine forRange_invariant (fun n (new : HeapState) => (∀ g ∈ old.guards, g ∈ new.guards) ∧
    (c.guardsize b ≠ 0 → ∀ i < n, c.endGuard i t b ∈ new.guards)) ?_ ?_
  · exact ⟨fun g member => member, fun _ i below => absurd below i.not_lt_zero⟩
  · rintro n - new ⟨kept, set⟩
    rcases eq_or_ne (c.guardsize b) 0 with none | some
    · have same : (c.parameters.initPosition (t, b) (c.startOffset t b) (classSize b)
          (c.guardsize b, c.guardoffset b) n new).guards = new.guards := by
        simp only [BibopHeap.initPosition, BibopHeap.setGuardPage, none, if_true, ite_self]
      rw [same]
      exact ⟨kept, fun some => absurd none some⟩
    · rw [initPosition_guards guarded some]
      refine ⟨fun g member => List.mem_append_left _ (kept g member), fun _ i below => ?_⟩
      rcases Nat.lt_succ_iff_lt_or_eq.mp below with before | rfl
      · exact List.mem_append_left _ (set some i before)
      · exact List.mem_append_right _ (List.mem_singleton_self _)

theorem EndGuards.initBag {s : BibopHeap.InitState} (usable : b < c.usable)
    (done : EndGuards c t b s) (offset : s.offsetBag = c.startOffset t b)
    (size : s.classSize = Model.classSize b) :
    EndGuards c t (b + 1) (c.parameters.initBag t b s) := by
  have lists : (forRange c.items (c.parameters.initFreelist (t, b)) s.state).guards =
      s.state.guards := forRange_invariant
        (fun _ (new : HeapState) => new.guards = s.state.guards) rfl fun _ _ _ same => same
  have items : c.parameters.build.BIBOP_BAG_SET_SIZE = c.items := rfl
  intro t' b' visited some i below
  simp only [BibopHeap.initBag, offset, size, bagGuard_eq usable, items]
  obtain ⟨kept, set⟩ := items_guards (t := t) (b := b) guarded
    { forRange c.items (c.parameters.initFreelist (t, b)) s.state with
      cfreelist := Function.update
        (forRange c.items (c.parameters.initFreelist (t, b)) s.state).cfreelist (t, b) initSLL
      ncfree := Function.update
        (forRange c.items (c.parameters.initFreelist (t, b)) s.state).ncfree (t, b) 0 }
  rcases visited_succ_iff.mp visited with before | ⟨rfl, rfl⟩
  · apply kept
    rw [lists]
    exact done t' b' before some i below
  · exact set some i below

theorem EndGuards.initThreadBags {s : BibopHeap.InitState} (done : EndGuards c t 0 s)
    (offset : s.offsetBag = t * c.threadSize) :
    EndGuards c (t + 1) 0 (c.parameters.initThreadBags t s) ∧
      (c.parameters.initThreadBags t s).offsetBag = (t + 1) * c.threadSize := by
  have bags : c.parameters._numUsableBags = c.usable := numUsableBags_eq c
  have loop : EndGuards c t c.usable _ ∧ _ = c.startOffset t c.usable ∧ _ :=
    @forRange_invariant _ c.usable (c.parameters.initBag t)
      { s with classSize := BIBOP_MIN_BLOCK_SIZE, shiftBits := LOG2 BIBOP_MIN_BLOCK_SIZE }
      (fun b s => EndGuards c t b s ∧ s.offsetBag = c.startOffset t b ∧
        s.classSize = Model.classSize b)
      ⟨done, by rw [startOffset, Nat.zero_mul]; exact offset, rfl⟩ ?_
  · obtain ⟨set, passed, -⟩ := loop
    simp only [BibopHeap.initThreadBags, bags]
    refine ⟨fun t' b' visited => set t' b' (visited_thread_iff.mpr visited), ?_⟩
    change _ + (c.numBags - c.usable) * c.bagSize = _
    rw [passed, startOffset, Nat.add_assoc, ← Nat.add_mul, Nat.add_sub_cancel' c.usable_le_numBags,
      Nat.add_mul, Nat.one_mul, threadSize]
  · rintro b usable s ⟨done, offset, size⟩
    refine ⟨done.initBag guarded usable offset size, ?_, ?_⟩
    · change s.offsetBag + c.bagSize = _
      simp only [offset, startOffset, Nat.add_mul, Nat.one_mul, Nat.add_assoc]
    · change s.classSize * 2 = _
      rw [size, Model.classSize, Model.classSize, Nat.add_right_comm]
      exact (Nat.pow_succ ..).symm

/-- Every bag where a bump pointer starts has its guard. -/
theorem endGuard_mem_start (thread : t < MAX_ALIVE_THREADS) (usable : b < c.usable)
    (some : c.guardsize b ≠ 0) {i : ℕ} (item : i < c.items) :
    c.endGuard i t b ∈ c.start.guards := by
  have loop : EndGuards c MAX_ALIVE_THREADS 0 c.loop ∧ _ :=
    forRange_invariant (fun t s => EndGuards c t 0 s ∧ s.offsetBag = t * c.threadSize)
      ⟨fun t' b' visited => absurd visited (by simp [Visited]), (Nat.zero_mul _).symm⟩
      fun t _ s both => both.1.initThreadBags guarded both.2
  exact loop.1 t b (visited_all_iff.mpr ⟨thread, usable⟩) some i item

end Config

/-! ## Guards and slots -/

/-- A byte is in the region of a guard. -/
def Guard.Covers (g : Guard) (a : ℕ) : Prop := g.addr ≤ a ∧ a < g.addr + g.size

/-- A guard at the end of a usable bag, or a random guard at a page boundary. -/
inductive Config.IsGuard (c : Config) : Guard → Prop
  | last {h t b : ℕ} : t < MAX_ALIVE_THREADS → b < c.usable → c.IsGuard (c.endGuard h t b)
  | random (l : Lane c) {n : ℕ} : l.PageAligned n → c.IsGuard (l.randomGuard n)

/-- The slots under a random guard fill whole pages. -/
theorem Lane.page_dvd_guardSlots (b : ℕ) : PageSize ∣ guardSlots b * classSize b := by
  rw [guardSlots, classSize, ← Nat.pow_add]
  exact Nat.pow_dvd_pow 2 (by omega : 12 ≤ 8 - b + (b + 4))

theorem Config.page_dvd_guardoffset (c : Config) (b : ℕ) : PageSize ∣ c.guardoffset b := by
  rw [guardoffset, reserved]
  split
  · exact Lane.page_dvd_guardSlots b
  · rw [Nat.zero_mul]
    exact dvd_zero _

/-- A guard starts at a page and consists of whole pages. -/
theorem Config.IsGuard.pages {g : Guard} (isGuard : c.IsGuard g) :
    PageSize ∣ g.addr ∧ PageSize ∣ g.size := by
  cases isGuard with
  | @last h t b thread usable =>
    have bag := c.page_dvd_bagSize
    have offset := c.page_dvd_guardoffset b
    constructor
    · exact Nat.dvd_sub (Nat.dvd_add (Lane.bagBegin_aligned h t b) bag) offset
    · change _ ∣ c.guardsize b
      rw [guardsize]
      split
      · split
        · exact Nat.dvd_add offset (bag.mul_left _)
        · exact offset
      · exact dvd_zero _
  | random l aligned => exact ⟨Nat.dvd_of_mod_eq_zero aligned, Lane.page_dvd_guardSlots _⟩

/-- The bags of a thread follow one another. -/
theorem Config.bagBegin_add_bags (h t b k : ℕ) :
    c.bagBegin h t (b + k) = c.bagBegin h t b + k * c.bagSize := by
  rw [bagBegin, bagBegin, startOffset, startOffset, Nat.add_mul]
  omega

/-- No slot has a byte in the guard at the end of a bag. -/
theorem Slot.not_in_endGuard {h : ℕ} (x : Slot c) (thread : t < MAX_ALIVE_THREADS)
    (usable : b < c.usable) (first : x.addr ≤ a) (last : a < x.addr + classSize x.bag) :
    ¬(c.endGuard h t b).Covers a := by
  rintro ⟨lower, upper⟩
  change c.bagBegin h t b + c.bagSize - c.guardoffset b ≤ a at lower
  change a < c.bagBegin h t b + c.bagSize - c.guardoffset b + c.guardsize b at upper
  have offset := Config.guardoffset_le usable
  have fill := Config.objects_add_guard x.bag_lt
  obtain ⟨i, rfl⟩ := Nat.exists_eq_add_of_le first
  have index := Nat.mul_le_mul_right (classSize x.bag) x.index_lt
  rw [Nat.succ_mul] at index
  have small : x.index * classSize x.bag + i < c.bagSize := by omega
  have place : x.addr + i = c.bagBegin x.heap x.thread x.bag + (x.index * classSize x.bag + i) :=
    Nat.add_assoc ..
  rcases Nat.lt_or_ge (x.addr + i) (c.bagBegin h t b + c.bagSize) with inBag | past
  · -- in the bag itself the objects end where the guard starts
    have same : c.bagBegin x.heap x.thread x.bag + (x.index * classSize x.bag + i) =
        c.bagBegin h t b + (x.addr + i - c.bagBegin h t b) := by omega
    obtain ⟨-, -, rfl, within⟩ := Config.bagBegin_inj x.thread_lt thread x.bag_lt_numBags
      (Nat.lt_of_lt_of_le usable c.usable_le_numBags) small (by omega) same
    omega
  · -- past it the guard of the last usable bag covers unusable bags
    obtain ⟨e, rest⟩ := Nat.exists_eq_add_of_le past
    have spare : e < (c.numBags - c.usable) * c.bagSize ∧ b + 1 = c.usable := by
      rw [Config.guardsize] at upper
      split at upper
      · split at upper
        · rename_i atEnd
          exact ⟨by omega, atEnd⟩
        · omega
      · omega
    obtain ⟨inside, atEnd⟩ := spare
    have below : e / c.bagSize < c.numBags - c.usable :=
      Nat.div_lt_of_lt_mul (by rw [Nat.mul_comm]; exact inside)
    have split := Nat.div_add_mod' e c.bagSize
    have same : c.bagBegin x.heap x.thread x.bag + (x.index * classSize x.bag + i) =
        c.bagBegin h t (b + (1 + e / c.bagSize)) + e % c.bagSize := by
      rw [Config.bagBegin_add_bags, Nat.add_mul, Nat.one_mul]
      omega
    generalize e / c.bagSize = k at below same
    obtain ⟨-, -, number, -⟩ := Config.bagBegin_inj x.thread_lt thread x.bag_lt_numBags
      (by omega) small (Nat.mod_lt _ c.bagSize_pos) same
    have bound := x.bag_lt
    omega

/-- A slot with a byte in a random guard is one of those that the guard skips. -/
theorem Slot.in_randomGuard (x : Slot c) (aligned : l.PageAligned n) (first : x.addr ≤ a)
    (last : a < x.addr + classSize x.bag) (covers : (l.randomGuard n).Covers a) :
    (l.randomGuard n).addr ≤ x.addr ∧ x.addr < (l.randomGuard n).addr + (l.randomGuard n).size := by
  obtain ⟨lower, upper⟩ := covers
  change (l.slot n).addr ≤ a at lower
  change a < (l.slot n).addr + Lane.guardSlots l.bag * classSize l.bag at upper
  have positive := classSize_pos l.bag
  have inBag := Lane.guard_in_bag aligned
  obtain ⟨d, rfl⟩ := Nat.exists_eq_add_of_le lower
  have below : d / classSize l.bag < Lane.guardSlots l.bag := by
    apply Nat.div_lt_of_lt_mul
    rw [Nat.mul_comm]
    omega
  have addr := Lane.addr_add (l := l) (n := n) (i := d / classSize l.bag) (by omega)
  have split := Nat.div_add_mod' d (classSize l.bag)
  have same : x.addr + ((l.slot n).addr + d - x.addr) =
      (l.slot (n + d / classSize l.bag)).addr + d % classSize l.bag := by omega
  obtain rfl : x = l.slot (n + d / classSize l.bag) :=
    Slot.eq_of_byte (by omega) (Nat.mod_lt _ positive) same
  apply (Lane.covered_iff aligned).mpr
  rw [l.slot_lane, l.slot_seq]
  exact ⟨rfl, Nat.le_add_right .., Nat.add_lt_add_left below n⟩

/-- A slot that is not skipped has no byte in a guard. -/
theorem Represents.not_covered {s : HeapState} {pool : Pool c} (rep : Represents c s pool)
    (known : ∀ g ∈ s.guards, c.IsGuard g) (kept : x ∉ pool.skipped) (first : x.addr ≤ a)
    (last : a < x.addr + classSize x.bag) : ∀ g ∈ s.guards, ¬g.Covers a := by
  intro g member covers
  cases known g member with
  | last thread usable => exact x.not_in_endGuard thread usable first last covers
  | random l aligned =>
    have skips := x.in_randomGuard aligned first last covers
    exact kept ((rep.skipped x).mpr ⟨_, member, rfl, skips⟩)

/-! ## Runs -/

/-- The guards set so far are of the two kinds, and every bag that a bump pointer has reached has one at
its end. -/
structure Guarding (c : Config) (s : HeapState) : Prop where
  known : ∀ g ∈ s.guards, c.IsGuard g
  ends : c.build.guardPage = true → ∀ (l : Lane c) (n : ℕ), (l.slot n).addr ≤ s.position l.ref →
    n % c.numObjects l.bag = 0 → c.guardsize l.bag ≠ 0 →
    c.endGuard (l.heapAt n) l.thread l.bag ∈ s.guards

theorem guarding_start (c : Config) : Guarding c c.start := by
  constructor
  · intro g member
    obtain ⟨-, t, b, visited, i, -, rfl⟩ := c.initialized_loop.guards g member
    obtain ⟨thread, usable⟩ := Config.visited_all_iff.mp visited
    exact .last thread usable
  · intro guarded l n reached atStart some
    have place := ((represents_start c).lanes l).position
    rw [place] at reached
    have zero : n = 0 := Nat.le_zero.mp (l.addr_strictMono.le_iff_le.mp reached)
    have heap : l.heapAt n = l.item := by
      simp only [zero, Lane.heapAt, Nat.zero_div, Nat.zero_mul, Nat.zero_add]
    rw [heap]
    exact Config.endGuard_mem_start guarded l.thread_lt l.bag_lt some l.item_lt

/-- A bump pointer has reached the places up to its cursor. -/
theorem Represents.place_le_iff {s : HeapState} {pool : Pool c} (rep : Represents c s pool) :
    (l.slot n).addr ≤ s.position l.ref ↔ n ≤ pool.cursor l := by
  rw [(rep.lanes l).position]
  exact l.addr_strictMono.le_iff_le

/-- An allocation sets a guard at the end of every bag that it enters. -/
theorem Lane.endGuard_mem_guardsSet {m : ℕ} {draw : BitVec 32} (guarded : c.build.guardPage = true)
    (some : c.guardsize l.bag ≠ 0) (first : m < n) (last : n ≤ m + 1 + l.skips m draw)
    (start : n % c.numObjects l.bag = 0) :
    c.endGuard (l.heapAt n) l.thread l.bag ∈ l.guardsSet m draw := by
  have enters : l.entered n = [c.endGuard (l.heapAt n) l.thread l.bag] :=
    if_pos ⟨start, guarded, some⟩
  rw [skips] at last
  rw [guardsSet, List.mem_append]
  rcases Nat.lt_or_ge (m + 1) n with jumped | next
  · split at last
    · rename_i fires
      -- under the guard no bag is entered
      have inBag := guard_in_bag fires.2.1
      have atEnd : n = m + 1 + guardSlots l.bag := by
        by_contra before
        have inside : (m + 1) % c.numObjects l.bag + (n - (m + 1)) < c.numObjects l.bag := by omega
        have place := (heapAt_add inside).2
        rw [show m + 1 + (n - (m + 1)) = n by omega] at place
        omega
      rw [if_pos fires, ← atEnd, enters]
      exact .inr (List.mem_cons_of_mem _ (List.mem_singleton_self _))
    · omega
  · obtain rfl : n = m + 1 := by omega
    rw [enters]
    exact .inl (List.mem_singleton_self _)

/-- The guards that an allocation sets are of the two kinds. -/
theorem Lane.isGuard_of_mem {m : ℕ} {draw : BitVec 32} : ∀ g ∈ l.guardsSet m draw, c.IsGuard g := by
  have ofEntered (n : ℕ) : ∀ g ∈ l.entered n, c.IsGuard g := by
    intro g member
    rw [entered] at member
    split at member
    · rw [List.mem_singleton.mp member]
      exact .last l.thread_lt l.bag_lt
    · cases member
  rw [guardsSet, List.forall_mem_append]
  refine ⟨ofEntered _, ?_⟩
  split
  · rename_i fires
    exact List.forall_mem_cons.mpr ⟨.random l fires.2.1, ofEntered _⟩
  · exact fun g member => absurd member List.not_mem_nil

section Step

variable {s u : HeapSystem} {e : HeapEvent} {es : List HeapEvent} {pool pool' : Pool c}

theorem Guarding.step (kept : Guarding c s.state) (rep : Represents c s.state pool)
    (rep' : Represents c u.state pool') (step : HeapStep c.heap s e u)
    (move : PoolStep c s pool e u pool') : Guarding c u.state := by
  have unmoved (position : u.state.position = s.state.position)
      (guards : u.state.guards = s.state.guards) : Guarding c u.state :=
    ⟨guards ▸ kept.known, fun guarded l n => position ▸ guards ▸ kept.ends guarded l n⟩
  cases move with
  | @reuse _ _ _ _ thread routed x rest i idle head block guards returned =>
    refine ⟨guards ▸ kept.known, fun guarded l n reached => ?_⟩
    rw [guards]
    exact kept.ends guarded l n (rep.place_le_iff.mpr (rep'.place_le_iff.mp reached))
  | @bump _ _ draws _ l thread routed lane uses guards returned =>
    have place : c.slots.lane (l.slot (pool.cursor l)) = l := l.slot_lane _
    have seq : c.slots.seq (l.slot (pool.cursor l)) = pool.cursor l := l.slot_seq _
    constructor
    · rw [guards]
      exact List.forall_mem_append.mpr ⟨kept.known, Lane.isGuard_of_mem⟩
    · intro guarded k n reached start some
      have upTo := rep'.place_le_iff.mp reached
      rw [guards, List.mem_append]
      simp only [SlotPool.bump, place, seq] at upTo
      rcases eq_or_ne k l with rfl | other
      · rw [Function.update_self] at upTo
        rcases Nat.lt_or_ge (pool.cursor k) n with new | old
        · exact .inr (Lane.endGuard_mem_guardsSet guarded some new upTo start)
        · exact .inl (kept.ends guarded k n (rep.place_le_iff.mpr old) start some)
      · rw [Function.update_of_ne other] at upTo
        exact .inl (kept.ends guarded k n (rep.place_le_iff.mpr upTo) start some)
  | release live leads released guards returned =>
    cases step with
    | free thread inside ok => exact unmoved (freeSmallObject_frame ok).2 guards
  | store guards returned =>
    cases step with
    | store => exact unmoved rfl guards

end Step

end FreeGuard.Model
