import FreeGuard.Proofs.SmallRun

/-! # The end of the heap

No bump pointer checks for `_heapEnd`. The addresses returned by a run and the guards it sets are
inside the heap exactly when every allocation that uses a bump pointer finds it in one of the
`BIBOP_NUM_HEAPS` heaps, and what it covers or ends with a guard lies in one of them too. A class with
one object in a bag runs out after as many allocations as its item has heaps.
-/

namespace FreeGuard.Soundness.HeapBounds

open Machine Model

variable {c : Config} {s t : HeapSystem} {e : HeapEvent} {es : List HeapEvent} {pool pool' : Pool c}
  {l : Lane c} {n : ℕ}

/-- Every returned object and every guard is inside the heap. -/
def InBounds (heap : BibopHeap) (s : HeapSystem) : Prop :=
  (∀ issue ∈ s.returned, Inside heap issue.addr issue.classSize) ∧
    ∀ g ∈ s.state.guards, Inside heap g.addr g.size

/-- The bump pointer at a place of its lane has room for an allocation: the heaps of the slot, of what
a random guard covers after it, and of every bag that is entered and gets a guard, exist. -/
def Room (l : Lane c) (n : ℕ) (draw : BitVec 32) : Prop :=
  l.heapAt n < BIBOP_NUM_HEAPS ∧
    ∀ m, n < m → m ≤ n + 1 + l.skips n draw →
      (m < n + 1 + l.skips n draw ∨
        m % c.numObjects l.bag = 0 ∧ c.build.guardPage = true ∧ c.guardsize l.bag ≠ 0) →
      l.heapAt m < BIBOP_NUM_HEAPS

/-- An allocation that uses its bump pointer finds room there. -/
def HasRoom (c : Config) (s : HeapSystem) : HeapEvent → Prop
  | .malloc threadIndex sz draws => ∀ (l : Lane c) (n : ℕ),
      l.ref = ((threadIndex, c.bagNumOf sz), (c.heap.selectList draws.list).1) →
      c.heap.UsesBump l.ref draws s.state → s.state.position l.ref = (l.slot n).addr →
      Room l n draws.guard
  | _ => True

/-- Every live or queued slot has been returned. -/
def Issued (s : HeapSystem) (pool : Pool c) : Prop :=
  ∀ x : Slot c, pool.Held x → (⟨x.addr, classSize x.bag⟩ : Issue) ∈ s.returned

/-! ## Guards and heaps -/

/-- A guard at the end of a bag is inside exactly when the heap of the bag exists. -/
theorem endGuard_inside_iff {h th b : ℕ} (thread : th < MAX_ALIVE_THREADS) (usable : b < c.usable)
    (some : c.guardsize b ≠ 0) :
    Inside c.heap (c.endGuard h th b).addr (c.endGuard h th b).size ↔ h < BIBOP_NUM_HEAPS := by
  have offset := Config.guardoffset_le usable
  have fits := Config.guard_fits usable
  have place : (c.endGuard h th b).addr = c.bagBegin h th b + (c.bagSize - c.guardoffset b) := by
    simp only [Config.endGuard, Nat.add_sub_assoc offset]
  rw [place]
  exact Config.inside_iff thread (by change _ + _ + c.guardsize b ≤ _; omega) (Nat.pos_of_ne_zero some)

/-- A random guard is inside exactly when its heap exists. -/
theorem randomGuard_inside_iff (aligned : l.PageAligned n) :
    Inside c.heap (l.randomGuard n).addr (l.randomGuard n).size ↔ l.heapAt n < BIBOP_NUM_HEAPS := by
  have inBag := Lane.guard_in_bag aligned
  have fill := Config.objects_add_guard l.bag_lt
  have fits := Config.bag_fits l.bag_lt
  have room := Nat.mul_le_mul_right (classSize l.bag) inBag
  rw [Nat.add_mul] at room
  have last : l.bag * c.bagSize + n % c.numObjects l.bag * classSize l.bag +
      Lane.guardSlots l.bag * classSize l.bag ≤ c.threadSize := by omega
  exact Config.inside_iff l.thread_lt last (Nat.mul_pos (Lane.guardSlots_pos _) (classSize_pos _))

theorem entered_inside_iff :
    (∀ g ∈ l.entered n, Inside c.heap g.addr g.size) ↔
      (n % c.numObjects l.bag = 0 ∧ c.build.guardPage = true ∧ c.guardsize l.bag ≠ 0 →
        l.heapAt n < BIBOP_NUM_HEAPS) := by
  rw [Lane.entered]
  split
  · rename_i enters
    simp only [List.mem_singleton, forall_eq, enters, ne_eq, not_false_eq_true, and_self, forall_const]
    exact endGuard_inside_iff l.thread_lt l.bag_lt enters.2.2
  · rename_i stays
    simp [stays]

/-- The slots under a random guard are in one heap. -/
theorem heapAt_guarded {m : ℕ} (aligned : l.PageAligned n) (first : n ≤ m)
    (last : m < n + Lane.guardSlots l.bag) : l.heapAt m = l.heapAt n := by
  obtain ⟨i, rfl⟩ := Nat.exists_eq_add_of_le first
  have inBag := Lane.guard_in_bag aligned
  exact (Lane.heapAt_add (by omega)).1

/-- An allocation keeps its object and its guards inside exactly when its place has room. -/
theorem room_iff {draw : BitVec 32} :
    (Inside c.heap (l.slot n).addr (classSize l.bag) ∧
      ∀ g ∈ l.guardsSet n draw, Inside c.heap g.addr g.size) ↔ Room l n draw := by
  have own : Inside c.heap (l.slot n).addr (classSize l.bag) ↔ l.heapAt n < BIBOP_NUM_HEAPS :=
    Slot.inside_iff (x := l.slot n)
  rw [own, Room, Lane.guardsSet, Lane.skips]
  apply and_congr_right
  intro _
  rw [List.forall_mem_append, entered_inside_iff]
  split
  · rename_i fires
    have aligned : l.PageAligned (n + 1) := fires.2.1
    have positive := Lane.guardSlots_pos l.bag
    rw [List.forall_mem_cons, randomGuard_inside_iff aligned, entered_inside_iff]
    constructor
    · rintro ⟨-, guard, after⟩ m past upTo cause
      rcases Nat.lt_or_ge m (n + 1 + Lane.guardSlots l.bag) with covered | last
      · rw [heapAt_guarded aligned past covered]
        exact guard
      · obtain rfl : m = n + 1 + Lane.guardSlots l.bag := le_antisymm upTo last
        rcases cause with before | enters
        · exact absurd before (lt_irrefl _)
        · exact after enters
    · intro room
      have guard := room (n + 1) (by omega) (by omega) (.inl (by omega))
      exact ⟨fun _ => guard, guard, fun enters => room _ (by omega) le_rfl (.inr enters)⟩
  · constructor
    · rintro ⟨enters, -⟩ m past upTo cause
      obtain rfl : m = n + 1 := by omega
      exact enters (cause.resolve_left (by omega))
    · exact fun room => ⟨fun enters => room _ (by omega) le_rfl (.inr enters),
        fun _ member => absurd member List.not_mem_nil⟩

/-! ## Runs -/

/-- A step adds the address that it returns. -/
theorem Issued.step (issued : Issued s pool) (step : PoolStep c s pool e t pool') :
    Issued t pool' := by
  intro y held
  rcases step.held held with old | ⟨_, _, _, _, _, -, _, -, -, -, returned⟩
  · exact step.returned (issued y old)
  · exact returned

/-- A step stays in bounds exactly when it has room. -/
theorem step_inBounds_iff (rep : Represents c s.state pool) (issued : Issued s pool)
    (step : PoolStep c s pool e t pool') :
    InBounds c.heap t ↔ InBounds c.heap s ∧ HasRoom c s e := by
  cases step with
  | @reuse threadIndex sz draws _ thread routed x rest i idle head block guards returned =>
    have vacuous : HasRoom c s (.malloc threadIndex sz draws) := by
      intro k n same uses
      rw [show k = c.laneOf thread routed draws from Lane.ref_inj same] at uses
      exact absurd uses idle
    have queued : x ∈ pool.queue (.inl (c.laneOf thread routed draws).ref) :=
      head ▸ List.mem_cons_self ..
    have old := issued x (.inr ⟨_, queued⟩)
    rw [InBounds, guards, returned, List.forall_mem_cons]
    constructor
    · exact fun ⟨⟨_, rest⟩, inGuards⟩ => ⟨⟨rest, inGuards⟩, vacuous⟩
    · rintro ⟨⟨inside, inGuards⟩, -⟩
      have heap := Slot.inside_iff.mp (inside _ old)
      exact ⟨⟨(Config.block_inside_iff thread (c.bagNumOf_lt routed) block.2.1).mpr heap, inside⟩, inGuards⟩
  | @bump threadIndex sz draws _ l thread routed lane uses guards returned =>
    have room : HasRoom c s (.malloc threadIndex sz draws) ↔ Room l (pool.cursor l) draws.guard := by
      have at' := (rep.lanes l).position
      constructor
      · exact fun has => has l _ (lane ▸ rfl) uses at'
      · intro has k n same _ position
        obtain rfl : k = l := lane ▸ Lane.ref_inj same
        obtain rfl := k.addr_strictMono.injective (position.symm.trans at')
        exact has
    rw [room, ← room_iff, InBounds, InBounds, guards, returned, List.forall_mem_cons,
      List.forall_mem_append]
    tauto
  | @release threadIndex addr _ x bag _ live leads released guards returned =>
    rw [InBounds, guards, returned]
    exact ⟨fun both => ⟨both, trivial⟩, fun both => both.1⟩
  | store guards returned =>
    rw [InBounds, guards, returned]
    exact ⟨fun both => ⟨both, trivial⟩, fun both => both.1⟩

theorem HeapStep.deterministic {heap : BibopHeap} {u : HeapSystem} (first : HeapStep heap s e t)
    (second : HeapStep heap s e u) : t = u := by
  cases first with
  | malloc => cases second; rfl
  | free _ _ ok =>
    cases second with
    | free _ _ ok' => rw [Except.ok.inj (ok.symm.trans ok')]
  | store => cases second; rfl

/-- From any represented state, a run stays in bounds exactly when each of its steps has room. -/
theorem run_inBounds_iff (run : Run (HeapStep c.heap) s es t) (rep : Represents c s.state pool)
    (issued : Issued s pool) :
    InBounds c.heap t ↔ InBounds c.heap s ∧ Run (Guarded (HasRoom c) (HeapStep c.heap)) s es t := by
  induction run generalizing pool with
  | nil s => exact ⟨fun inside => ⟨inside, .nil s⟩, fun both => both.1⟩
  | @cons s mid t e es step rest ih =>
    obtain ⟨pool', move, rep'⟩ := step.simulates rep
    rw [ih rep' (issued.step move), step_inBounds_iff rep issued move]
    constructor
    · exact fun ⟨⟨inside, room⟩, after⟩ => ⟨inside, .cons ⟨room, step⟩ after⟩
    · rintro ⟨inside, guarded⟩
      cases guarded with
      | cons first after =>
        obtain rfl := HeapStep.deterministic step first.2
        exact ⟨⟨inside, first.1⟩, after⟩

/-- The initialized heap is in bounds. -/
theorem inBounds_start (c : Config) : InBounds c.heap c.system := by
  refine ⟨fun issue member => absurd member List.not_mem_nil, fun g member => ?_⟩
  obtain ⟨-, th, b, visited, i, below, rfl⟩ := c.initialized_loop.guards g member
  obtain ⟨thread, usable⟩ := Config.visited_all_iff.mp visited
  have heap : i < BIBOP_NUM_HEAPS := Nat.lt_of_lt_of_le below c.bagSet
  rcases eq_or_ne (c.guardsize b) 0 with some | some
  · have offset := Config.guardoffset_le usable
    have fits := Config.guard_fits usable
    have last := Config.bag_fits usable
    have whole : Inside c.heap (c.bagBegin i th b + 0) c.bagSize :=
      (Config.inside_iff thread (by omega) c.bagSize_pos).mpr heap
    rw [Inside] at whole ⊢
    simp only [Config.endGuard]
    omega
  · exact (endGuard_inside_iff thread usable some).mpr heap

/-! ## Running out of heaps -/

end FreeGuard.Soundness.HeapBounds
