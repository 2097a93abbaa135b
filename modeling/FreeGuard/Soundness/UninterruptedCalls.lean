import FreeGuard.Soundness.ConcurrentHeap

/-! # Calls that no other step comes between

Taken one after the other, the steps of a thread are `allocateSmallObject` and `freeSmallObject`: the same
object, the same state, and the same message where the process ends.
-/

namespace FreeGuard.Soundness.UninterruptedCalls

open Machine Model

variable {heap : BibopHeap} {s t : HeapRace} {thread addr : ℕ} {sz : size_t} {draws : Draws}
  {call next : ObjectCall} {state : HeapState} {outcome : Except Stop HeapState}

/-- Steps of one thread, one after the other. -/
abbrev Alone (heap : BibopHeap) (thread : ℕ) (s : HeapRace) (k : ℕ) : HeapRace → Prop :=
  Run (HeapRaceStep heap) s (List.replicate k (.advance thread))

theorem advance_step (working : s.calls thread = call) (busy : call ≠ .idle)
    (advanced : heap.advance s.state call = .ok (next, state)) :
    HeapRaceStep heap s (.advance thread) ⟨state, Function.update s.calls thread next,
      match call.returns heap with
      | some issue => Function.update s.held issue.addr (some issue.classSize)
      | none => s.held⟩ := by
  subst working
  exact .advance s busy advanced

/-- The steps of a thread end its deallocation, or come to one that ends the process. -/
def Ends (heap : BibopHeap) (thread : ℕ) (s : HeapRace) : Except Stop HeapState → Prop
  | .ok state => ∃ k, Alone heap thread s k ⟨state, Function.update s.calls thread .idle, s.held⟩
  | .error stop => ∃ k t, Alone heap thread s k t ∧ heap.advance t.state (t.calls thread) = .error stop

/-- What comes of a deallocation is what comes of it after one of its steps. -/
theorem Ends.step (working : s.calls thread ≠ .idle) (frees : ¬(s.calls thread).Pending)
    (advanced : heap.advance s.state (s.calls thread) = .ok (call, state))
    (ends : Ends heap thread ⟨state, Function.update s.calls thread call, s.held⟩ outcome) :
    Ends heap thread s outcome := by
  have none : (s.calls thread).returns heap = none := by
    cases kind : s.calls thread <;> simp_all [ObjectCall.returns, ObjectCall.Pending]
  have first : HeapRaceStep heap s (.advance thread) ⟨state, Function.update s.calls thread call, s.held⟩ := by
    have step := advance_step rfl working advanced
    rwa [none] at step
  cases outcome with
  | ok final =>
    obtain ⟨k, run⟩ := ends
    rw [Function.update_idem] at run
    exact ⟨k + 1, .cons first run⟩
  | error stop =>
    obtain ⟨k, t, run, stops⟩ := ends
    exact ⟨k + 1, t, .cons first run, stops⟩

/-- A deallocation comes to what is left of it. -/
theorem ends_rest (frees : ¬(s.calls thread).Pending) :
    Ends heap thread s (heap.rest s.state (s.calls thread)) := by
  induction left : (s.calls thread).remaining using Nat.strong_induction_on generalizing s with
  | h left ih =>
    by_cases idle : s.calls thread = .idle
    · rw [idle]
      refine ⟨0, ?_⟩
      rw [Function.update_eq_self_iff.mpr idle.symm]
      exact .nil s
    · rw [← heap.rest_advance]
      cases advanced : heap.advance s.state (s.calls thread) with
      | error stop => exact ⟨0, s, .nil s, advanced⟩
      | ok after =>
        obtain ⟨call, state⟩ := after
        obtain ⟨nearer, goes⟩ := BibopHeap.advance_ok idle advanced
        have rest := @ih call.remaining (left ▸ nearer)
          ⟨state, Function.update s.calls thread call, s.held⟩
        simp only [Function.update_self] at rest
        exact .step idle frees advanced (rest (frees ∘ goes) trivial)

/-- The block that an allocation of a thread returns, and the state after it. -/
def allocated (heap : BibopHeap) (s : HeapRace) (thread : ℕ) (sz : size_t) (draws : Draws) : HeapRace :=
  let bag : BagRef := (thread, heap.getBagNum (classSizeOf heap.build sz))
  let (ptr, state) := heap.allocateSmallObject thread sz draws s.state
  { s with state := state, held := Function.update s.held ptr (some (heap._threadBag bag).classSize) }

/-- An object that has been taken is marked and returned. -/
theorem taken_alone {bag : BagRef} {ptr : ℕ} (working : s.calls thread = .taken bag ptr) :
    Alone heap thread s 2 ⟨heap.markObject bag ptr s.state, Function.update s.calls thread .idle,
      Function.update s.held ptr (some (heap._threadBag bag).classSize)⟩ := by
  have first := @advance_step heap _ _ _ _ _ working ObjectCall.noConfusion rfl
  have second := @advance_step heap ⟨heap.sealObject bag ptr s.state,
    Function.update s.calls thread (.sealed bag ptr), s.held⟩ thread _ _ _ (Function.update_self ..)
    ObjectCall.noConfusion rfl
  simp only [Function.update_idem] at second
  exact .cons first (.single second)

/-- An object under a bump pointer is taken, marked and returned. -/
theorem bumping_alone {item : ItemRef} {guard : BitVec 32} (working : s.calls thread = .bumping item guard) :
    let (ptr, state) := heap.bumpObject item guard s.state
    Alone heap thread s 3 ⟨heap.markObject item.1 ptr state, Function.update s.calls thread .idle,
      Function.update s.held ptr (some (heap._threadBag item.1).classSize)⟩ := by
  have first := @advance_step heap _ _ _ _ _ working ObjectCall.noConfusion rfl
  have rest := @taken_alone heap ⟨(heap.bumpObject item guard s.state).2,
    Function.update s.calls thread (.taken item.1 (heap.bumpObject item guard s.state).1), s.held⟩ thread _ _
    (Function.update_self ..)
  simp only [Function.update_idem] at rest
  exact .cons first rest

/-- An allocation with no other step in between. -/
theorem malloc_alone (inRange : thread < MAX_ALIVE_THREADS) (idle : s.calls thread = .idle)
    (routed : heap.build.IF_CANARY_CONDITION sz = false) :
    ∃ k, Run (HeapRaceStep heap) s (.malloc thread sz draws :: List.replicate k (.advance thread))
      (allocated heap s thread sz draws) := by
  have first := HeapRaceStep.malloc s inRange routed idle
    (Prod.eta (heap.beginMalloc thread sz draws s.state)).symm
  have back : Function.update s.calls thread .idle = s.calls := Function.update_eq_self_iff.mpr idle.symm
  simp only [BibopHeap.beginMalloc] at first
  simp only [allocated, BibopHeap.allocateSmallObject, BibopHeap.takeObject_eq]
  generalize ((thread, heap.getBagNum (classSizeOf heap.build sz)) : BagRef) = bag at first ⊢
  cases taken : heap.removeObject bag draws s.state with
  | none =>
    rw [taken] at first
    have rest := @bumping_alone heap ⟨s.state, Function.update s.calls thread
      (.bumping (bag, (heap.selectList draws.list).1) draws.guard), s.held⟩ thread _ _ (Function.update_self ..)
    simp only [Function.update_idem, back] at rest
    exact ⟨3, .cons first rest⟩
  | some object =>
    rw [taken] at first
    have rest := @taken_alone heap ⟨object.2, Function.update s.calls thread (.taken bag object.1), s.held⟩
      thread _ _ (Function.update_self ..)
    simp only [Function.update_idem, back] at rest
    exact ⟨2, .cons first rest⟩

/-- The steps of a deallocation leave what `freeSmallObject` leaves; where it ends the process with a
message, so does the first or a later step. -/
inductive Deallocates (heap : BibopHeap) (s : HeapRace) (thread addr : ℕ) : Prop
  | done {state : HeapState} (k : ℕ) : heap.freeSmallObject thread addr s.state = .ok state →
      Run (HeapRaceStep heap) s (.free thread addr :: List.replicate k (.advance thread)) { s with
        state := state
        held := Function.update s.held addr none } →
      Deallocates heap s thread addr
  | refused {stop : Stop} : heap.freeSmallObject thread addr s.state = .error stop →
      heap.beginFree addr s.state = .error stop → Deallocates heap s thread addr
  | stopped {stop : Stop} {t : HeapRace} (k : ℕ) : heap.freeSmallObject thread addr s.state = .error stop →
      Run (HeapRaceStep heap) s (.free thread addr :: List.replicate k (.advance thread)) t →
      heap.advance t.state (t.calls thread) = .error stop → Deallocates heap s thread addr

/-- A deallocation with no other step in between. -/
theorem free_alone (plain : heap.build.cfreelist = false) (inRange : thread < MAX_ALIVE_THREADS)
    (idle : s.calls thread = .idle) (inside : heap._heapBegin ≤ addr) : Deallocates heap s thread addr := by
  have whole := heap.rest_beginFree plain thread addr s.state
  cases begun : heap.beginFree addr s.state with
  | error stop =>
    rw [begun] at whole
    exact .refused whole.symm begun
  | ok call =>
    rw [begun] at whole
    obtain ⟨object, rfl⟩ := BibopHeap.beginFree_ok begun
    have first := HeapRaceStep.free s inRange inside idle begun
    have back : Function.update s.calls thread .idle = s.calls := Function.update_eq_self_iff.mpr idle.symm
    have rest := @ends_rest heap ⟨s.state, Function.update s.calls thread (.found object),
      Function.update s.held addr none⟩ thread (by simp [ObjectCall.Pending])
    simp only [Function.update_self] at rest
    change heap.rest s.state (.found object) = _ at whole
    cases outcome : heap.rest s.state (.found object) with
    | ok state =>
      rw [outcome] at rest whole
      obtain ⟨k, run⟩ := rest
      simp only [Function.update_idem, back] at run
      exact .done k whole.symm (.cons first run)
    | error stop =>
      rw [outcome] at rest whole
      obtain ⟨k, t, run, stops⟩ := rest
      exact .stopped k whole.symm (.cons first run) stops

/-- A thread that no other interrupts does what the functions do. -/
theorem uninterrupted (plain : heap.build.cfreelist = false) (inRange : thread < MAX_ALIVE_THREADS)
    (idle : s.calls thread = .idle) :
    (heap.build.IF_CANARY_CONDITION sz = false → ∃ k,
      Run (HeapRaceStep heap) s (.malloc thread sz draws :: List.replicate k (.advance thread))
        (allocated heap s thread sz draws)) ∧
    (heap._heapBegin ≤ addr → Deallocates heap s thread addr) :=
  ⟨malloc_alone inRange idle, free_alone plain inRange idle⟩

/-- The first allocation, and the deallocation of the first address, which was never returned. -/
theorem uninterrupted_first : (∃ k,
      Run (HeapRaceStep Config.makefile.heap) (ConcurrentHeap.race .makefile)
        (.malloc 0 15 ⟨0, 0⟩ :: List.replicate k (.advance 0))
        (allocated Config.makefile.heap (ConcurrentHeap.race .makefile) 0 15 ⟨0, 0⟩)) ∧
    Deallocates Config.makefile.heap (ConcurrentHeap.race .makefile) 0 Config.makefile.heap._heapBegin := by
  have routed : Config.makefile.build.IF_CANARY_CONDITION 15 = false := by decide
  obtain ⟨malloc, free⟩ := @uninterrupted Config.makefile.heap (ConcurrentHeap.race .makefile) 0
    Config.makefile.heap._heapBegin 15 ⟨0, 0⟩ rfl (by decide) rfl
  exact ⟨malloc routed, free le_rfl⟩

end FreeGuard.Soundness.UninterruptedCalls
