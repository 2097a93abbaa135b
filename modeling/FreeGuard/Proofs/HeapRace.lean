import FreeGuard.Machine.Exclusive
import FreeGuard.Proofs.Holdings
import FreeGuard.Proofs.ObjectCall

/-! # Concurrent calls against the calls one after the other

`Settled` relates a state that threads have reached in the middle of their calls to a state of the calls
run one after the other: there every allocation begun is done, and no deallocation begun has done
anything. The two agree but for the marks, canaries and bytes that the calls in progress are behind with.
-/

namespace FreeGuard.Model

open Machine

/-! ## The pieces put together -/

namespace BibopHeap

variable (heap : BibopHeap)

/-- The list is left alone exactly when the bump pointer is to be used. -/
theorem removeObject_eq (curBag : BagRef) (draws : Draws) (s : HeapState) :
    heap.removeObject curBag draws s =
      if heap.UsesBump (curBag, (heap.selectList draws.list).1) draws s then none
      else
        let removed := FREELIST_REMOVE s.links (s.freelist (curBag, (heap.selectList draws.list).1))
        some (heap.getAddrFromShadowInfo removed.1 curBag, { s with
          freelist := Function.update s.freelist (curBag, (heap.selectList draws.list).1) removed.2 }) := by
  simp only [removeObject, UsesBump]
  by_cases empty : IS_FREELIST_EMPTY (s.freelist (curBag, (heap.selectList draws.list).1)) = true <;>
    by_cases forced : (heap.selectList draws.list).2 = true <;> simp [empty, forced]

theorem markObject_eq (bag : BagRef) (ptr : ℕ) (s : HeapState) :
    heap.markObject bag ptr s = heap.markEntry bag ptr (heap.sealObject bag ptr s) := rfl

end BibopHeap

/-! ## The relation -/

variable {c : Config} {s t : HeapRace} {st : HeapState} {e : HeapRaceEvent} {system : HeapSystem}
  {holdings : Holdings} {pool pool' : Pool c} {slot : ℕ → Option (Slot c)} {thread : ℕ}
  {call : ObjectCall} {x y : Slot c} {l : Lane c} {n : ℕ} {draw : BitVec 32}

/-- What `getShadowObjectInfo` decodes from the address of a slot. -/
def Slot.freeing (x : Slot c) : Freeing := ⟨x.addr, x.bagRef, x.heap % c.items, x.entry⟩

/-- The bytes that a deallocation of a slot clears, in the builds and for the classes in which it does. -/
def Slot.Cleared (x : Slot c) (a : ℕ) : Prop :=
  (c.build.destroyOnFree = true ∧ classSize x.bag - c.build.canaryBytes ≤ TWO_KILOBYTES) ∧
    UsableByte c.build x.addr (classSize x.bag) a

instance (x : Slot c) (a : ℕ) : Decidable (x.Cleared a) := inferInstanceAs (Decidable (_ ∧ _))

/-- A call in progress and the slot that it handles; `pool` counts every allocation begun as done. -/
inductive Handles (st : HeapState) (pool : Pool c) (thread : ℕ) : ObjectCall → Slot c → Prop
  | bumping {l : Lane c} {n : ℕ} {draw : BitVec 32} : l.thread = thread → l.At n st →
      pool.cursor l = n + 1 + l.skips n draw → Handles st pool thread (.bumping l.ref draw) (l.slot n)
  | taken {x : Slot c} : Handles st pool thread (.taken x.bagRef x.addr) x
  | sealed {x : Slot c} : Handles st pool thread (.sealed x.bagRef x.addr) x
  | found {x : Slot c} : Handles st pool thread (.found x.freeing) x
  | walking {x y : Slot c} {move : Direction} {count : ℕ} : c.build.canary = true →
      y.lane = x.lane → Handles st pool thread (.walking x.freeing move count y.entry) x
  | peeked {x y : Slot c} {move : Direction} {count : ℕ} : c.build.canary = true →
      y.lane = x.lane → st.mem y.canary = CANARY_SENTINEL →
      Handles st pool thread (.peeked x.freeing move count y.entry) x
  | checked {x : Slot c} : Handles st pool thread (.checked x.freeing) x
  | destroyed {x : Slot c} : (∀ a, x.Cleared a → st.mem a = 0) →
      Handles st pool thread (.destroyed x.freeing) x

/-- The bytes that the call has yet to write, or has written already. -/
def ObjectCall.Behind (x : Slot c) : ObjectCall → ℕ → Prop
  | .bumping .., a | .taken .., a => c.build.canary = true ∧ a = x.canary
  | .destroyed _, a => x.Cleared a
  | _, _ => False

/-- The guards that the call has yet to set. -/
def ObjectCall.Guards (x : Slot c) (call : ObjectCall) (g : Guard) : Prop :=
  ∃ (l : Lane c) (n : ℕ) (draw : BitVec 32), call = .bumping l.ref draw ∧ x = l.slot n ∧
    g ∈ l.guardsSet n draw

/-- The call is behind with nothing. -/
def ObjectCall.Quiet : ObjectCall → Prop
  | .idle | .found _ | .walking .. | .peeked .. | .checked _ => True
  | _ => False

/-- The call does not move a bump pointer next. -/
def ObjectCall.Steady : ObjectCall → Prop
  | .bumping .. => False
  | _ => True

/-- The calls one after the other: every live slot carries its canary and is held. -/
structure Linear (system : HeapSystem) (holdings : Holdings) (pool : Pool c) : Prop where
  represents : Represents c system.state pool
  own : Own pool
  intact : c.build.canary = true → ∀ x ∈ pool.live, system.state.mem x.canary = CANARY_SENTINEL
  holdings : ∀ p n, holdings p = some n ↔ ∃ x ∈ pool.live, x.addr = p ∧ classSize x.bag = n
  returned : ∀ x ∈ pool.live, (⟨x.addr, classSize x.bag⟩ : Issue) ∈ system.returned

/-- A thread is in no call, or in a call that handles a live slot, which is not the program's. -/
def Tracks (st : HeapState) (held : ℕ → Option ℕ) (pool : Pool c) (thread : ℕ) (call : ObjectCall) :
    Option (Slot c) → Prop
  | none => call = .idle
  | some x => Handles st pool thread call x ∧ x ∈ pool.live ∧ held x.addr = none

/-- Every live slot is the program's or handled by one call. -/
structure Roster (s : HeapRace) (pool : Pool c) (slot : ℕ → Option (Slot c)) : Prop where
  exclusive : Exclusive slot
  inRange : ∀ thread x, slot thread = some x → thread < MAX_ALIVE_THREADS
  tracks : ∀ thread, Tracks s.state s.held pool thread (s.calls thread) (slot thread)
  held : ∀ p n, s.held p = some n → ∃ x ∈ pool.live, x.addr = p ∧ classSize x.bag = n
  live : ∀ x ∈ pool.live, s.held x.addr = some (classSize x.bag) ∨ ∃ thread, slot thread = some x

/-- The bump pointer of an item stands at one place in both states. -/
def SamePosition (st other : HeapState) (item : ItemRef) : Prop :=
  st.position item = other.position item ∧ st.lastofCurBag item = other.lastofCurBag item

/-- Two states that differ by what the calls in progress are behind with. -/
structure Agree (calls : ℕ → ObjectCall) (slot : ℕ → Option (Slot c)) (st other : HeapState) : Prop where
  freelist : st.freelist = other.freelist
  cfreelist : st.cfreelist = other.cfreelist
  ncfree : st.ncfree = other.ncfree
  position : ∀ item : ItemRef, (∀ draw, calls item.1.1 ≠ .bumping item draw) → SamePosition st other item
  links : ∀ a, st.links a = other.links a ∨ Busy slot calls fun call x => call.Pending ∧ x.entry = a
  unmarked : ∀ thread x, slot thread = some x → (calls thread).Pending →
    st.links x.entry ≠ ALLOC_SENTINEL
  mem : ∀ a, st.mem a = other.mem a ∨ Busy slot calls fun call x => call.Behind x a
  guards : ∀ g, g ∈ other.guards ↔ g ∈ st.guards ∨ Busy slot calls fun call x => call.Guards x g

/-- Threads in the middle of calls, and the calls one after the other. -/
structure Settled (s : HeapRace) (system : HeapSystem) (holdings : Holdings) (pool : Pool c)
    (slot : ℕ → Option (Slot c)) : Prop where
  linear : Linear system holdings pool
  roster : Roster s pool slot
  agree : Agree s.calls slot s.state system.state

/-- The event of the calls one after the other that a step stands for: an allocation where it holds the
lock, a deallocation where it inserts. -/
def HeapRace.linear (s : HeapRace) : HeapRaceEvent → List HeapEvent
  | .malloc thread sz draws => [.malloc thread sz draws]
  | .free _ _ => []
  | .advance thread =>
    match s.calls thread with
    | .destroyed object => [.free thread object.addr]
    | _ => []
  | .store a value => [.store a value]

/-- A program frees the addresses that it holds, and stores to the usable bytes of the blocks that it
holds. -/
def HeapRace.Disciplined (build : Build) (s : HeapRace) : HeapRaceEvent → Prop
  | .free _ addr => ∃ n, s.held addr = some n
  | .store a _ => ∃ addr n, s.held addr = some n ∧ UsableByte build addr n a
  | _ => True

/-! ## What the states agree on -/

theorem Roster.handles (roster : Roster s pool slot) (mine : slot thread = some x) :
    Handles s.state pool thread (s.calls thread) x ∧ x ∈ pool.live ∧ s.held x.addr = none := by
  have tracks := roster.tracks thread
  rwa [mine] at tracks

theorem Slot.threadBag_classSize (x : Slot c) : (c.heap._threadBag x.bagRef).classSize = classSize x.bag :=
  congrArg PerThreadBag.classSize (Config.heap_threadBag x.thread_lt x.bag_lt)

/-- What destroying the object of a slot writes. -/
theorem Slot.destroyed_apply (x : Slot c) (st : HeapState) (a : ℕ) :
    c.heap.destroyed x.addr x.bagRef st a = if x.Cleared a then 0 else st.mem a := by
  simp only [BibopHeap.destroyed, x.threadBag_classSize, Config.heap_build, Slot.Cleared, UsableByte]
  by_cases done : c.build.destroyOnFree = true ∧ classSize x.bag - c.build.canaryBytes ≤ TWO_KILOBYTES
  · simp only [done, true_and, and_self, if_true]
  · simp only [done, false_and, if_false]

theorem Slot.canary_inj (same : x.canary = y.canary) : x = y := by
  have first := classSize_pos x.bag
  have second := classSize_pos y.bag
  refine Slot.eq_of_byte (i := classSize x.bag - 1) (j := classSize y.bag - 1) (by omega) (by omega) ?_
  rw [Slot.canary, Slot.canary] at same
  omega

theorem ObjectCall.Quiet.not_pending (quiet : call.Quiet) : ¬call.Pending := by
  cases call <;> simp_all [ObjectCall.Quiet, ObjectCall.Pending]

theorem ObjectCall.Quiet.not_behind {a : ℕ} (quiet : call.Quiet) : ¬call.Behind x a := by
  cases call <;> simp_all [ObjectCall.Quiet, ObjectCall.Behind]

theorem ObjectCall.Quiet.returns {heap : BibopHeap} (quiet : call.Quiet) : call.returns heap = none := by
  cases call <;> simp_all [ObjectCall.Quiet, ObjectCall.returns]

theorem HeapRace.linear_quiet (quiet : (s.calls thread).Quiet) : s.linear (.advance thread) = [] := by
  rw [HeapRace.linear]
  cases working : s.calls thread <;> simp_all [ObjectCall.Quiet]

theorem ObjectCall.Quiet.steady (quiet : call.Quiet) : call.Steady := by
  cases call <;> simp_all [ObjectCall.Quiet, ObjectCall.Steady]

theorem ObjectCall.Steady.not_bumping {item : ItemRef} (steady : call.Steady) :
    call ≠ .bumping item draw := by
  rintro rfl
  exact steady

theorem ObjectCall.Steady.not_guards {g : Guard} (steady : call.Steady) : ¬call.Guards x g := by
  rintro ⟨l, n, draw, rfl, -⟩
  exact steady

/-- The guards that an allocation at a place has yet to set. -/
theorem guards_bumping {g : Guard} :
    (ObjectCall.bumping l.ref draw).Guards (l.slot n) g ↔ g ∈ l.guardsSet n draw := by
  constructor
  · rintro ⟨k, m, draw, same, slot, member⟩
    obtain ⟨ref, rfl⟩ := ObjectCall.bumping.inj same
    obtain rfl := Lane.ref_inj ref
    have seq := congrArg Slot.seq slot
    rw [Lane.slot_seq, Lane.slot_seq] at seq
    exact seq ▸ member
  · exact fun member => ⟨l, n, draw, rfl, rfl, member⟩

theorem Slot.canary_inside (x : Slot c) : x.addr ≤ x.canary ∧ x.canary < x.addr + classSize x.bag := by
  have positive := classSize_pos x.bag
  rw [Slot.canary]
  omega

/-- The bytes of one slot are none of another's. -/
theorem Slot.outside {a : ℕ} (other : y ≠ x) (first : y.addr ≤ a) (last : a < y.addr + classSize y.bag) :
    ¬(x.addr ≤ a ∧ a < x.addr + classSize x.bag) := by
  rintro ⟨first', last'⟩
  rcases Slot.apart other with before | after <;> omega

/-- A call writes bytes of its own object only. -/
theorem ObjectCall.Behind.inside {a : ℕ} (behind : call.Behind x a) :
    x.addr ≤ a ∧ a < x.addr + classSize x.bag := by
  have positive := classSize_pos x.bag
  cases call <;> simp only [ObjectCall.Behind, Slot.canary, Slot.Cleared, UsableByte] at behind <;> omega

/-- No canary is a usable byte. -/
theorem Slot.canary_not_usableByte (canary : c.build.canary = true) (x y : Slot c) :
    ¬UsableByte c.build x.addr (classSize x.bag) y.canary := by
  rintro ⟨first, last⟩
  rw [Build.canaryBytes, canary, if_pos rfl] at last
  exact y.canary_not_usable (x.leadsTo_addr.isBlock x.bag_lt) ⟨first, last⟩ rfl

/-- No call is behind with a usable byte of another object. -/
theorem ObjectCall.Behind.not_usable {a : ℕ} (behind : call.Behind x a)
    (usable : UsableByte c.build y.addr (classSize y.bag) a) : x = y := by
  obtain ⟨above, below⟩ := behind.inside
  obtain ⟨first, last⟩ := usable
  exact Slot.eq_of_byte (i := a - x.addr) (j := a - y.addr) (by omega) (by omega) (by omega)

namespace Settled

variable (settled : Settled s system holdings pool slot)
include settled

/-- The lists are the same lists, and nothing of them is pending. -/
theorem lists : Lists c s.state pool.queue := by
  have rep := settled.linear.represents
  refine rep.lists.congr settled.agree.freelist settled.agree.cfreelist settled.agree.ncfree ?_
  intro q x queued
  rcases settled.agree.links x.entry with same | ⟨thread, y, mine, -, entry⟩
  · exact same
  · obtain rfl := Slot.entry_inj entry
    exact absurd (settled.roster.handles mine).2.1 (rep.partition.queued_not_live q _ queued)

/-- A marked entry is that of a live slot. -/
theorem live_of_marked (mark : s.state.links x.entry = ALLOC_SENTINEL) : x ∈ pool.live := by
  rcases settled.agree.links x.entry with same | ⟨thread, y, mine, pending, entry⟩
  · exact settled.linear.represents.live_iff.mpr (same.symm.trans mark)
  · obtain rfl := Slot.entry_inj entry
    exact absurd mark (settled.agree.unmarked thread _ mine pending)

/-- A live slot is marked, unless its allocation is pending. -/
theorem marked_of_live (live : x ∈ pool.live)
    (done : ∀ thread, slot thread = some x → ¬(s.calls thread).Pending) :
    s.state.links x.entry = ALLOC_SENTINEL := by
  rcases settled.agree.links x.entry with same | ⟨thread, y, mine, pending, entry⟩
  · exact same.trans (settled.linear.represents.live_iff.mp live)
  · obtain rfl := Slot.entry_inj entry
    exact absurd pending (done thread mine)

/-- The canary of a marked slot is in place. -/
theorem intact_of_marked (canary : c.build.canary = true)
    (mark : s.state.links x.entry = ALLOC_SENTINEL) : s.state.mem x.canary = CANARY_SENTINEL := by
  have live := settled.live_of_marked mark
  rcases settled.agree.mem x.canary with same | ⟨thread, y, mine, behind⟩
  · exact same.trans (settled.linear.intact canary x live)
  · exfalso
    obtain ⟨above, below⟩ := behind.inside
    have positive := classSize_pos x.bag
    have room : x.canary = x.addr + (classSize x.bag - 1) := by
      rw [Slot.canary]
      omega
    obtain rfl : y = x := Slot.eq_of_byte (i := x.canary - y.addr) (j := classSize x.bag - 1)
      (by omega) (by omega) (by omega)
    have unmarked := settled.agree.unmarked thread y mine
    cases working : s.calls thread <;> rw [working] at behind unmarked
    case bumping => exact unmarked trivial mark
    case taken => exact unmarked trivial mark
    case destroyed => exact y.canary_not_usableByte canary y behind.2
    all_goals exact behind

end Settled

/-- The entry next to one of a lane, if there is one, is of the lane. -/
theorem neighbor_cases (lane : y.lane = x.lane) (move : Direction) :
    c.heap.getNextCanaryNeighbor y.entry x.bagRef move = none ∨
      ∃ z : Slot c, z.lane = x.lane ∧
        c.heap.getNextCanaryNeighbor y.entry x.bagRef move = some z.entry := by
  obtain ⟨l, n, rfl⟩ : ∃ (l : Lane c) (n : ℕ), y = l.slot n := ⟨_, _, y.lane_slot.symm⟩
  rw [l.slot_lane] at lane
  obtain rfl : x.lane = l := lane.symm
  cases move with
  | LEFT =>
    cases n with
    | zero => exact .inl x.lane.neighbor_left_zero
    | succ n => exact .inr ⟨_, x.lane.slot_lane n, x.lane.neighbor_left n⟩
  | RIGHT => exact .inr ⟨_, x.lane.slot_lane _, x.lane.neighbor_right n⟩

/-! ## The roster of the calls -/

/-- A step of another thread leaves a call as it is. -/
theorem Handles.frame {next : HeapState} (handles : Handles st pool thread call x)
    (position : ∀ item : ItemRef, item.1.1 = thread → SamePosition next st item)
    (cursor : ∀ l : Lane c, l.thread = thread → pool'.cursor l = pool.cursor l)
    (canaries : c.build.canary = true → ∀ y : Slot c, st.mem y.canary = CANARY_SENTINEL →
      next.mem y.canary = CANARY_SENTINEL)
    (bytes : ∀ a, x.addr ≤ a → a < x.addr + classSize x.bag → next.mem a = st.mem a) :
    Handles next pool' thread call x := by
  cases handles with
  | @bumping l n draw mine start next =>
    obtain ⟨same, last⟩ := position l.ref mine
    exact .bumping mine ⟨same.trans start.position, last.trans start.last⟩ ((cursor l mine).trans next)
  | taken => exact .taken
  | sealed => exact .sealed
  | found => exact .found
  | walking canary lane => exact .walking canary lane
  | peeked canary lane intact => exact .peeked canary lane (canaries canary _ intact)
  | checked => exact .checked
  | destroyed zero =>
    refine .destroyed fun a cleared => ?_
    obtain ⟨done, first, last⟩ := cleared
    exact (bytes a first (by omega)).trans (zero a ⟨done, first, last⟩)

namespace Roster

variable {next : HeapState} {held' : ℕ → Option ℕ} (roster : Roster s pool slot)
include roster

/-- A thread that is in no call handles no slot. -/
theorem slot_idle (idle : s.calls thread = .idle) : slot thread = none := by
  cases mine : slot thread with
  | none => rfl
  | some x =>
    have handles := (roster.handles mine).1
    rw [idle] at handles
    cases handles

/-- A thread that is in a call handles a slot. -/
theorem exists_slot (working : s.calls thread ≠ .idle) : ∃ x, slot thread = some x := by
  rw [← Option.ne_none_iff_exists']
  intro none
  have tracks := roster.tracks thread
  rw [none] at tracks
  exact working tracks

/-- A slot that the program holds is no thread's. -/
theorem not_busy (held : s.held x.addr = some n) (thread : ℕ) : slot thread ≠ some x := by
  intro mine
  have none := (roster.handles mine).2.2
  rw [held] at none
  cases none

/-- A slot that is not live is not held. -/
theorem not_held (dead : x ∉ pool.live) : s.held x.addr = none := by
  by_contra held
  obtain ⟨n, held⟩ := Option.ne_none_iff_exists'.mp held
  obtain ⟨y, live, same, -⟩ := roster.held _ n held
  obtain rfl := Slot.addr_inj same
  exact dead live

/-- Another thread handles another slot. -/
theorem apart {q : ℕ} (other : q ≠ thread) (mine : slot thread = some x) (theirs : slot q = some y) :
    y ≠ x := by
  rintro rfl
  exact roster.exclusive.ne other mine theirs

/-- The other threads go on tracking their slots. -/
theorem others {q : ℕ}
    (frame : ∀ y, slot q = some y → Handles s.state pool q (s.calls q) y → Handles next pool' q (s.calls q) y)
    (kept : ∀ y ∈ pool.live, slot q = some y → s.held y.addr = none →
      y ∈ pool'.live ∧ held' y.addr = none) :
    Tracks next held' pool' q (s.calls q) (slot q) := by
  have tracks := roster.tracks q
  cases theirs : slot q with
  | none => rwa [theirs] at tracks
  | some y =>
    obtain ⟨handles, live, unheld⟩ := roster.handles theirs
    exact ⟨frame y theirs handles, kept y live theirs unheld⟩

theorem inRange_update (inRange : thread < MAX_ALIVE_THREADS) (now : Option (Slot c)) (q : ℕ) (y : Slot c)
    (theirs : Function.update slot thread now q = some y) : q < MAX_ALIVE_THREADS := by
  by_cases same : q = thread
  · exact same ▸ inRange
  · rw [Function.update_of_ne same] at theirs
    exact roster.inRange q y theirs

/-- A live slot stays with its thread when another thread goes on. -/
theorem live_update (now : Option (Slot c)) (isLive : y ∈ pool.live) (apart : slot thread ≠ some y)
    (kept : s.held y.addr = some (classSize y.bag) → held' y.addr = some (classSize y.bag)) :
    held' y.addr = some (classSize y.bag) ∨ ∃ q, Function.update slot thread now q = some y := by
  refine (roster.live y isLive).imp kept fun ⟨q, theirs⟩ => ⟨q, ?_⟩
  rwa [Function.update_of_ne]
  rintro rfl
  exact apart theirs

/-- A thread takes a new slot. -/
theorem begin (inRange : thread < MAX_ALIVE_THREADS) (new : x ∉ pool.live) (live : pool'.live = insert x pool.live)
    (free : slot thread = none) (mine : Handles next pool' thread call x)
    (frame : ∀ q, q ≠ thread → ∀ y, Handles s.state pool q (s.calls q) y →
      Handles next pool' q (s.calls q) y) :
    Roster ⟨next, Function.update s.calls thread call, s.held⟩ pool'
      (Function.update slot thread (some x)) where
  exclusive := roster.exclusive.take fun q _ theirs => new (roster.handles theirs).2.1
  inRange := roster.inRange_update inRange _
  tracks := forall_update ⟨mine, live ▸ Set.mem_insert .., roster.not_held new⟩ fun q other =>
    roster.others (fun y _ => frame q other y) fun y isLive _ unheld => ⟨live ▸ .inr isLive, unheld⟩
  held p n held := by
    obtain ⟨y, isLive, same⟩ := roster.held p n held
    exact ⟨y, live ▸ .inr isLive, same⟩
  live y isLive := by
    rcases live ▸ isLive with rfl | old
    · exact .inr ⟨thread, Function.update_self ..⟩
    · exact roster.live_update _ old (by simp [free]) id

/-- A thread goes on with its slot. -/
theorem go (mine : slot thread = some x) (goes : Handles next pool thread call x)
    (frame : ∀ q, q ≠ thread → ∀ y, y ≠ x → Handles s.state pool q (s.calls q) y →
      Handles next pool q (s.calls q) y) :
    Roster ⟨next, Function.update s.calls thread call, s.held⟩ pool slot where
  exclusive := roster.exclusive
  inRange := roster.inRange
  tracks := by
    have here : Tracks next s.held pool thread call (some x) := ⟨goes, (roster.handles mine).2⟩
    have tracks := forall_update here fun q other =>
      roster.others (fun y theirs => frame q other y (roster.apart other mine theirs))
        fun y isLive _ unheld => ⟨isLive, unheld⟩
    rwa [← mine, Function.update_eq_self] at tracks
  held := roster.held
  live := roster.live

/-- A thread takes a slot over from the program. -/
theorem start (inRange : thread < MAX_ALIVE_THREADS) (held : s.held x.addr = some n) (free : slot thread = none)
    (mine : Handles s.state pool thread call x) :
    Roster ⟨s.state, Function.update s.calls thread call, Function.update s.held x.addr none⟩ pool
      (Function.update slot thread (some x)) where
  exclusive := roster.exclusive.take fun q _ => roster.not_busy held q
  inRange := roster.inRange_update inRange _
  tracks := by
    obtain ⟨y, live, same, -⟩ := roster.held _ n held
    obtain rfl := Slot.addr_inj same
    refine forall_update ⟨mine, live, Function.update_self ..⟩ fun q _ =>
      roster.others (fun _ _ => id) fun z isLive _ unheld => ⟨isLive, ?_⟩
    exact (Function.update_apply ..).trans (by rw [unheld, ite_self])
  held p m still := roster.held p m (Holdings.update_none still).2
  live y isLive := by
    by_cases same : y = x
    · exact .inr ⟨thread, same ▸ Function.update_self ..⟩
    · exact roster.live_update _ isLive (by simp [free])
        (Function.update_of_ne (fun equal => same (Slot.addr_inj equal)) ..).trans

/-- A thread gives its slot to the program. -/
theorem finish (mine : slot thread = some x)
    (frame : ∀ q, q ≠ thread → ∀ y, y ≠ x → Handles s.state pool q (s.calls q) y →
      Handles next pool q (s.calls q) y) :
    Roster ⟨next, Function.update s.calls thread .idle,
        Function.update s.held x.addr (some (classSize x.bag))⟩ pool
      (Function.update slot thread none) where
  exclusive := roster.exclusive.drop thread
  inRange := roster.inRange_update (roster.inRange _ _ mine) _
  tracks := by
    refine forall_update rfl fun q other =>
      roster.others (fun y theirs => frame q other y (roster.apart other mine theirs))
        fun y isLive theirs unheld => ⟨isLive, ?_⟩
    exact (Function.update_of_ne (fun equal => roster.apart other mine theirs (Slot.addr_inj equal))
      ..).trans unheld
  held p m held := by
    rcases Holdings.update_some held with ⟨rfl, rfl⟩ | old
    · exact ⟨x, (roster.handles mine).2.1, rfl, rfl⟩
    · exact roster.held p m old
  live y isLive := by
    by_cases same : y = x
    · exact .inl (same ▸ Function.update_self ..)
    · refine roster.live_update _ isLive ?_
        (Function.update_of_ne (fun equal => same (Slot.addr_inj equal)) ..).trans
      exact fun equal => same (Option.some.inj (equal.symm.trans mine))

/-- A thread returns its slot to a list. -/
theorem release (mine : slot thread = some x) (live : pool'.live = pool.live \ {x})
    (frame : ∀ q, q ≠ thread → ∀ y, y ≠ x → Handles s.state pool q (s.calls q) y →
      Handles next pool' q (s.calls q) y) :
    Roster ⟨next, Function.update s.calls thread .idle, s.held⟩ pool'
      (Function.update slot thread none) where
  exclusive := roster.exclusive.drop thread
  inRange := roster.inRange_update (roster.inRange _ _ mine) _
  tracks := by
    refine forall_update rfl fun q other =>
      roster.others (fun y theirs => frame q other y (roster.apart other mine theirs))
        fun y isLive theirs unheld => ⟨live ▸ ⟨isLive, roster.apart other mine theirs⟩, unheld⟩
  held p m held := by
    obtain ⟨y, isLive, rfl, rfl⟩ := roster.held p m held
    refine ⟨y, live ▸ ⟨isLive, ?_⟩, rfl, rfl⟩
    rintro rfl
    exact roster.not_busy held thread mine
  live y isLive := by
    obtain ⟨old, same⟩ := live ▸ isLive
    exact roster.live_update _ old (fun equal => same (Option.some.inj (equal.symm.trans mine))) id

/-- A store of the program. -/
theorem store (frame : ∀ q y, slot q = some y → Handles s.state pool q (s.calls q) y →
      Handles next pool q (s.calls q) y) :
    Roster ⟨next, s.calls, s.held⟩ pool slot where
  exclusive := roster.exclusive
  inRange := roster.inRange
  tracks q := roster.others (frame q) fun _ isLive _ unheld => ⟨isLive, unheld⟩
  held := roster.held
  live := roster.live

end Roster

/-! ## The calls one after the other -/

namespace Linear

variable {threadIndex : ℕ} {sz : size_t} {draws : Draws} {after : HeapState}
  (linear : Linear system holdings pool)
include linear

/-- An allocation of the slot `x`. -/
theorem malloc (thread : threadIndex < MAX_ALIVE_THREADS)
    (routed : c.build.IF_CANARY_CONDITION sz = false) (new : x ∉ pool.live)
    (live : pool'.live = insert x pool.live) (number : x.bag = c.bagNumOf sz)
    (ran : c.heap.allocateSmallObject threadIndex sz draws system.state = (x.addr, after))
    (represents : Represents c after pool') (own : Own pool') :
    Linear ⟨after, ⟨x.addr, classSize x.bag⟩ :: system.returned⟩
      (Function.update holdings x.addr (some (classSize x.bag))) pool' where
  represents := represents
  own := own
  intact canary y isLive := by
    obtain ⟨placed, kept⟩ := allocateSmallObject_canary canary thread routed ran
    rcases live ▸ isLive with rfl | old
    · rwa [← number] at placed
    · exact kept _ (linear.intact canary y old)
  holdings p n := by
    rw [Function.update_apply, live]
    constructor
    · intro held
      split at held
      · rename_i same
        exact ⟨x, Set.mem_insert .., same.symm, Option.some.inj held⟩
      · obtain ⟨y, old, same⟩ := (linear.holdings p n).mp held
        exact ⟨y, .inr old, same⟩
    · rintro ⟨y, rfl | old, rfl, rfl⟩
      · rw [if_pos rfl]
      · rw [if_neg fun same => new (by rwa [← Slot.addr_inj same])]
        exact (linear.holdings ..).mpr ⟨y, old, rfl, rfl⟩
  returned y isLive := by
    rcases live ▸ isLive with rfl | old
    · exact List.mem_cons_self ..
    · exact List.mem_cons_of_mem _ (linear.returned y old)

/-- A deallocation of a live slot passes its checks. -/
theorem free (threadIndex : ℕ) (plain : c.build.cfreelist = false) (live : x ∈ pool.live) :
    let after := BibopHeap.insertFreelist (x.bagRef, x.heap % c.items) x.entry
      (system.state.setMem (c.heap.destroyed x.addr x.bagRef system.state))
    c.heap.freeSmallObject threadIndex x.addr system.state = .ok after ∧
      ∃ pool' : Pool c, pool'.live = pool.live \ {x} ∧ pool'.cursor = pool.cursor ∧
        Linear { system with state := after } (Function.update holdings x.addr none) pool' := by
  intro after
  have rep := linear.represents
  obtain ⟨after', ok⟩ : ∃ t, c.heap.freeSmallObject threadIndex x.addr system.state = .ok t :=
    rep.free_intact live fun canary y _ broken =>
      broken.2 (linear.intact canary y (rep.live_iff.mpr broken.1))
  have inserted : c.heap.insertObject threadIndex x.bagRef (x.heap % c.items) x.entry
      (system.state.setMem (c.heap.destroyed x.addr x.bagRef system.state)) = .ok after := by
    rw [BibopHeap.insertObject, Config.heap_build, plain]
    rfl
  rw [rep.free_of_live x.leadsTo_addr live] at ok ⊢
  obtain rfl := Except.ok.inj ((BibopHeap.freeMarked_ok ok).symm.trans inserted)
  have rep' := rep.setMem (c.heap.destroyed x.addr x.bagRef system.state)
  obtain ⟨pool', represents, released⟩ := rep'.insertFreelist live x.leadsTo_addr.block (x.heap % c.items)
  refine ⟨ok, pool', released.live, funext fun l => (rep'.position_eq_iff represents).mp rfl,
    { represents, own := ?_, intact := ?_, holdings := ?_, returned := ?_ }⟩
  · intro q y queued
    rcases released.queued q y queued with ⟨rfl, ofBag⟩ | ⟨r, ofBag, old⟩
    · exact ofBag
    · exact ofBag ▸ linear.own r y old
  · intro canary y isLive
    exact (Slot.canary_freed canary x.leadsTo_addr (by
      rw [rep.free_of_live x.leadsTo_addr live]
      exact ok) y).trans (linear.intact canary y (released.live ▸ isLive).1)
  · intro p n
    rw [released.live]
    constructor
    · intro held
      obtain ⟨other, held⟩ := Holdings.update_none held
      obtain ⟨y, old, rfl, rfl⟩ := (linear.holdings p n).mp held
      exact ⟨y, ⟨old, fun same => other (congrArg Slot.addr same)⟩, rfl, rfl⟩
    · rintro ⟨y, ⟨old, other⟩, rfl, rfl⟩
      refine (Function.update_of_ne (fun same => other (Slot.addr_inj same)) ..).trans ?_
      exact (linear.holdings ..).mpr ⟨y, old, rfl, rfl⟩
  · exact fun y isLive => linear.returned y (released.live ▸ isLive).1

/-- A store to a usable byte of a live slot. -/
theorem store {a : ℕ} {value : UInt8}
    (usable : UsableByte c.build x.addr (classSize x.bag) a) :
    Linear { system with state := { system.state with mem := Function.update system.state.mem a value } }
      holdings pool where
  represents := linear.represents.congr rfl rfl rfl rfl rfl rfl rfl
  own := linear.own
  intact canary y isLive := by
    refine (Function.update_of_ne ?_ ..).trans (linear.intact canary y isLive)
    rintro rfl
    exact x.canary_not_usableByte canary y usable
  holdings := linear.holdings
  returned := linear.returned

end Linear

/-! ## The agreement of the states -/

namespace Agree

variable {calls : ℕ → ObjectCall} {other next otherNext : HeapState}
  (agree : Agree calls slot st other)
include agree

/-- A step of one thread, checked at what that thread is behind with. -/
theorem update {now : Option (Slot c)} (freelist : next.freelist = otherNext.freelist)
    (cfreelist : next.cfreelist = otherNext.cfreelist) (ncfree : next.ncfree = otherNext.ncfree)
    (position : ∀ item : ItemRef, (item.1.1 = thread → ∀ draw, call ≠ .bumping item draw) →
      ((item.1.1 = thread → ∀ draw, calls thread ≠ .bumping item draw) → SamePosition st other item) →
      SamePosition next otherNext item)
    (links : ∀ a, st.links a = other.links a ∨
        BusyAt thread slot calls (fun call x => call.Pending ∧ x.entry = a) →
      next.links a = otherNext.links a ∨ ∃ x, now = some x ∧ call.Pending ∧ x.entry = a)
    (unmarked : ∀ x, now = some x → call.Pending → next.links x.entry ≠ ALLOC_SENTINEL)
    (unmarkedApart : ∀ q, q ≠ thread → ∀ x, slot q = some x → (calls q).Pending →
      st.links x.entry ≠ ALLOC_SENTINEL → next.links x.entry ≠ ALLOC_SENTINEL)
    (mem : ∀ a, st.mem a = other.mem a ∨ BusyAt thread slot calls (fun call x => call.Behind x a) →
      next.mem a = otherNext.mem a ∨ ∃ x, now = some x ∧ call.Behind x a)
    (guards : ∀ g, (g ∈ other.guards ↔ g ∈ st.guards ∨ BusyAt thread slot calls (fun call x => call.Guards x g) ∨
        BusyApart thread slot calls fun call x => call.Guards x g) →
      (g ∈ otherNext.guards ↔ g ∈ next.guards ∨ (∃ x, now = some x ∧ call.Guards x g) ∨
        BusyApart thread slot calls fun call x => call.Guards x g)) :
    Agree (Function.update calls thread call) (Function.update slot thread now) next otherNext where
  freelist := freelist
  cfreelist := cfreelist
  ncfree := ncfree
  position item quiet := by
    refine position item (fun same draw => ?_) fun before => agree.position item fun draw => ?_
    · have := quiet draw
      rwa [same, Function.update_self] at this
    · by_cases same : item.1.1 = thread
      · exact same ▸ before same draw
      · have := quiet draw
        rwa [Function.update_of_ne same] at this
  links a := by
    have old := agree.links a
    rw [busy_iff thread, ← or_assoc] at old
    rw [busy_update_iff, ← or_assoc]
    exact old.imp_left (links a)
  unmarked q x mine pending := by
    by_cases same : q = thread
    · subst same
      rw [Function.update_self] at mine pending
      exact unmarked x mine pending
    · rw [Function.update_of_ne same] at mine pending
      exact unmarkedApart q same x mine pending (agree.unmarked q x mine pending)
  mem a := by
    have old := agree.mem a
    rw [busy_iff thread, ← or_assoc] at old
    rw [busy_update_iff, ← or_assoc]
    exact old.imp_left (mem a)
  guards g := by
    rw [busy_update_iff]
    exact guards g (by rw [← busy_iff]; exact agree.guards g)

/-- A step of one thread that moves no bump pointer. -/
theorem steady {now : Option (Slot c)} (was : (calls thread).Steady) (goes : call.Steady)
    (position : next.position = st.position ∧ otherNext.position = other.position)
    (last : next.lastofCurBag = st.lastofCurBag ∧ otherNext.lastofCurBag = other.lastofCurBag)
    (guards : next.guards = st.guards ∧ otherNext.guards = other.guards)
    (freelist : next.freelist = otherNext.freelist)
    (cfreelist : next.cfreelist = otherNext.cfreelist) (ncfree : next.ncfree = otherNext.ncfree)
    (links : ∀ a, st.links a = other.links a ∨
        BusyAt thread slot calls (fun call x => call.Pending ∧ x.entry = a) →
      next.links a = otherNext.links a ∨ ∃ x, now = some x ∧ call.Pending ∧ x.entry = a)
    (unmarked : ∀ x, now = some x → call.Pending → next.links x.entry ≠ ALLOC_SENTINEL)
    (unmarkedApart : ∀ q, q ≠ thread → ∀ x, slot q = some x → (calls q).Pending →
      st.links x.entry ≠ ALLOC_SENTINEL → next.links x.entry ≠ ALLOC_SENTINEL)
    (mem : ∀ a, st.mem a = other.mem a ∨ BusyAt thread slot calls (fun call x => call.Behind x a) →
      next.mem a = otherNext.mem a ∨ ∃ x, now = some x ∧ call.Behind x a) :
    Agree (Function.update calls thread call) (Function.update slot thread now) next otherNext := by
  refine agree.update freelist cfreelist ncfree ?_ links unmarked unmarkedApart mem ?_
  · intro item _ same
    rw [SamePosition, position.1, position.2, last.1, last.2]
    exact same fun _ _ => was.not_bumping
  · intro g old
    have before : ¬BusyAt thread slot calls fun call x => call.Guards x g :=
      fun ⟨_, _, guards⟩ => was.not_guards guards
    have after : ¬∃ x, now = some x ∧ call.Guards x g := fun ⟨_, _, guards⟩ => goes.not_guards guards
    rw [guards.1, guards.2]
    simpa only [before, after, false_or] using old

/-- A step of a call that is behind with nothing before or after. -/
theorem quiet (was : (calls thread).Quiet) (goes : call.Quiet) (now : Option (Slot c)) :
    Agree (Function.update calls thread call) (Function.update slot thread now) st other := by
  refine agree.steady was.steady goes.steady ⟨rfl, rfl⟩ ⟨rfl, rfl⟩ ⟨rfl, rfl⟩ agree.freelist
    agree.cfreelist agree.ncfree ?_ (fun x _ pending => absurd pending goes.not_pending)
    (fun _ _ _ _ _ => id) ?_
  · rintro a (same | ⟨x, -, pending, -⟩)
    · exact .inl same
    · exact absurd pending was.not_pending
  · rintro a (same | ⟨x, -, behind⟩)
    · exact .inl same
    · exact absurd behind was.not_behind

/-- A store of the program. -/
theorem store (a : ℕ) (value : UInt8) : Agree calls slot
    { st with mem := Function.update st.mem a value }
    { other with mem := Function.update other.mem a value } where
  freelist := agree.freelist
  cfreelist := agree.cfreelist
  ncfree := agree.ncfree
  position := agree.position
  links := agree.links
  unmarked := agree.unmarked
  mem b := by
    simp only [Function.update_apply]
    split
    · exact .inl rfl
    · exact agree.mem b
  guards := agree.guards

/-- An allocation past the lock, and all of it at once. -/
theorem begin {taken : HeapState} (idle : calls thread = .idle) (pending : call.Pending)
    (behind : c.build.canary = true → call.Behind x x.canary) (unmarked : st.links x.entry ≠ ALLOC_SENTINEL)
    (cfreelist : taken.cfreelist = other.cfreelist) (ncfree : taken.ncfree = other.ncfree)
    (links : taken.links = other.links) (mem : taken.mem = other.mem)
    (position : ∀ item : ItemRef, (item.1.1 = thread → ∀ draw, call ≠ .bumping item draw) →
      SamePosition other taken item)
    (guards : ∀ g, g ∈ taken.guards ↔ g ∈ other.guards ∨ call.Guards x g) :
    Agree (Function.update calls thread call) (Function.update slot thread (some x))
      { st with freelist := taken.freelist } (c.heap.markObject x.bagRef x.addr taken) := by
  have entry : c.heap.getShadowObjectInfoIn x.addr x.bagRef = x.entry := x.getShadowObjectInfoIn_addr
  have quiet : (calls thread).Quiet := by
    rw [idle]
    trivial
  have canary : x.addr + (c.heap._threadBag x.bagRef).classSize - 1 = x.canary := by
    rw [x.threadBag_classSize]
    rfl
  refine agree.update rfl (agree.cfreelist.trans cfreelist.symm) (agree.ncfree.trans ncfree.symm) ?_ ?_
    ?_ (fun _ _ _ _ _ => id) ?_ ?_
  · intro item free same
    obtain ⟨first, last⟩ := same fun _ _ => quiet.steady.not_bumping
    obtain ⟨first', last'⟩ := position item free
    exact ⟨first.trans first', last.trans last'⟩
  · rintro a (same | ⟨y, -, mine, -⟩)
    · by_cases own : x.entry = a
      · exact .inr ⟨x, rfl, pending, own⟩
      · refine .inl (same.trans ?_)
        change _ = Function.update taken.links (c.heap.getShadowObjectInfoIn x.addr x.bagRef) _ a
        rw [entry, links, Function.update_of_ne (Ne.symm own)]
    · exact absurd mine quiet.not_pending
  · rintro y same -
    cases same
    exact unmarked
  · rintro a (same | ⟨y, -, mine⟩)
    · change st.mem a = (if c.build.canary then Function.update taken.mem _ _ else taken.mem) a ∨ _
      rw [canary, mem]
      split
      · rename_i build
        by_cases own : a = x.canary
        · exact .inr ⟨x, rfl, own ▸ behind build⟩
        · exact .inl (same.trans (Function.update_of_ne own _ _).symm)
      · exact .inl same
    · exact absurd mine quiet.not_behind
  · intro g old
    have none : ¬BusyAt thread slot calls fun call x => call.Guards x g :=
      fun ⟨_, _, mine⟩ => quiet.steady.not_guards mine
    change g ∈ taken.guards ↔ _
    rw [guards, old]
    simp only [none, false_or, Option.some.injEq, exists_eq_left']
    tauto

/-- The bump pointer of a pending allocation moves. -/
theorem bump (working : calls thread = .bumping l.ref draw) (mine : slot thread = some (l.slot n))
    (there : l.At (n + 1 + l.skips n draw) other) :
    Agree (Function.update calls thread (.taken l.bagRef (l.slot n).addr)) slot
      (l.move (n + 1 + l.skips n draw) (l.guardsSet n draw) st) other := by
  rw [← Function.update_eq_self thread slot, mine]
  refine agree.update agree.freelist agree.cfreelist agree.ncfree ?_ ?_ ?_ (fun _ _ _ _ _ => id) ?_ ?_
  · intro item _ same
    rcases eq_or_ne item l.ref with rfl | other
    · exact ⟨(Function.update_self ..).trans there.position.symm,
        (Function.update_self ..).trans there.last.symm⟩
    · obtain ⟨first, last⟩ := same fun _ draw' equal => by
        rw [working] at equal
        exact other (ObjectCall.bumping.inj equal).1.symm
      exact ⟨(Function.update_of_ne other ..).trans first, (Function.update_of_ne other ..).trans last⟩
  · rintro a (same | ⟨x, held, -, entry⟩)
    · exact .inl same
    · exact .inr ⟨x, mine.symm.trans held, trivial, entry⟩
  · rintro x held -
    exact agree.unmarked thread x (mine.trans held) (by rw [working]; trivial)
  · rintro a (same | ⟨x, held, behind⟩)
    · exact .inl same
    · rw [working] at behind
      exact .inr ⟨x, mine.symm.trans held, behind⟩
  · intro g old
    have now : BusyAt thread slot calls (fun call x => call.Guards x g) ↔ g ∈ l.guardsSet n draw := by
      rw [BusyAt, mine, working]
      simp only [Option.some.injEq, exists_eq_left', guards_bumping]
    have after : ¬∃ x, some (l.slot n) = some x ∧
        (ObjectCall.taken l.bagRef (l.slot n).addr).Guards x g := by
      rintro ⟨x, -, k, m, draw', same, -⟩
      cases same
    rw [old, now]
    simp only [after, false_or, Lane.move, List.mem_append, or_assoc]

/-- A pending allocation writes the canary. -/
theorem writeCanary (working : calls thread = .taken x.bagRef x.addr) (mine : slot thread = some x)
    (intact : c.build.canary = true → other.mem x.canary = CANARY_SENTINEL) :
    Agree (Function.update calls thread (.sealed x.bagRef x.addr)) slot
      (c.heap.sealObject x.bagRef x.addr st) other := by
  rw [← Function.update_eq_self thread slot, mine]
  refine agree.steady (working ▸ trivial) trivial ⟨rfl, rfl⟩ ⟨rfl, rfl⟩ ⟨rfl, rfl⟩ agree.freelist
    agree.cfreelist agree.ncfree ?_ ?_ (fun _ _ _ _ _ => id) ?_
  · rintro a (same | ⟨y, held, -, entry⟩)
    · exact .inl same
    · exact .inr ⟨y, mine.symm.trans held, trivial, entry⟩
  · rintro y held -
    exact agree.unmarked thread y (mine.trans held) (working ▸ trivial)
  · intro a old
    change (if c.build.canary then Function.update st.mem (x.addr + _ - 1) _ else st.mem) a = _ ∨ _
    rw [x.threadBag_classSize]
    left
    split
    · rename_i canary
      by_cases own : a = x.canary
      · rw [own, intact canary]
        exact Function.update_self ..
      · refine (Function.update_of_ne own ..).trans ?_
        rcases old with same | ⟨y, held, behind⟩
        · exact same
        · obtain rfl := Option.some.inj (mine.symm.trans held)
          rw [working] at behind
          exact absurd behind.2 own
    · rename_i plain
      rcases old with same | ⟨y, held, behind⟩
      · exact same
      · rw [working] at behind
        exact absurd behind.1 plain

/-- A pending allocation marks the entry and is done. -/
theorem mark (exclusive : Exclusive slot) (working : calls thread = .sealed x.bagRef x.addr)
    (mine : slot thread = some x) (marked : other.links x.entry = ALLOC_SENTINEL) :
    Agree (Function.update calls thread .idle) (Function.update slot thread none)
      (c.heap.markEntry x.bagRef x.addr st) other := by
  have links (a : ℕ) : (c.heap.markEntry x.bagRef x.addr st).links a =
      if a = x.entry then ALLOC_SENTINEL else st.links a := by
    rw [← show c.heap.getShadowObjectInfoIn x.addr x.bagRef = x.entry from x.getShadowObjectInfoIn_addr]
    exact Function.update_apply ..
  refine agree.steady (working ▸ trivial) trivial ⟨rfl, rfl⟩ ⟨rfl, rfl⟩ ⟨rfl, rfl⟩ agree.freelist
    agree.cfreelist agree.ncfree ?_ (fun _ _ pending => pending.elim) ?_ ?_
  · intro a old
    left
    rw [links]
    split
    · rename_i own
      rw [own, marked]
    · rename_i off
      rcases old with same | ⟨y, held, -, rfl⟩
      · exact same
      · exact absurd (congrArg Slot.entry (Option.some.inj (held.symm.trans mine))) off
  · intro q apart y theirs _ unmarked
    rw [links, if_neg]
    · exact unmarked
    · intro same
      obtain rfl := Slot.entry_inj same
      exact exclusive.ne apart mine theirs
  · rintro a (same | ⟨y, -, behind⟩)
    · exact .inl same
    · rw [working] at behind
      exact behind.elim

/-- A deallocation clears the object. -/
theorem destroy (working : calls thread = .checked x.freeing) (mine : slot thread = some x) :
    Agree (Function.update calls thread (.destroyed x.freeing)) slot
      (st.setMem (c.heap.destroyed x.addr x.bagRef st)) other := by
  rw [← Function.update_eq_self thread slot, mine]
  have quiet : (calls thread).Quiet := working ▸ trivial
  refine agree.steady quiet.steady trivial ⟨rfl, rfl⟩ ⟨rfl, rfl⟩ ⟨rfl, rfl⟩ agree.freelist
    agree.cfreelist agree.ncfree ?_ (fun _ _ pending => pending.elim) (fun _ _ _ _ _ => id) ?_
  · rintro a (same | ⟨y, -, pending, -⟩)
    · exact .inl same
    · exact absurd pending quiet.not_pending
  · rintro a (same | ⟨y, -, behind⟩)
    · rw [HeapState.setMem_mem, x.destroyed_apply]
      split
      · rename_i cleared
        exact .inr ⟨x, rfl, cleared⟩
      · exact .inl same
    · exact absurd behind quiet.not_behind

/-- A deallocation inserts the entry and is done. -/
theorem release (item : ItemRef) {queue : Queue → List (Slot c)} (exclusive : Exclusive slot)
    (lists : Lists c st queue) (unqueued : ∀ q y, slot q = some y → ∀ r, y ∉ queue r)
    (working : calls thread = .destroyed x.freeing) (mine : slot thread = some x)
    (zero : ∀ a, x.Cleared a → st.mem a = 0) :
    Agree (Function.update calls thread .idle) (Function.update slot thread none)
      (BibopHeap.insertFreelist item x.entry st)
      (BibopHeap.insertFreelist item x.entry (other.setMem (c.heap.destroyed x.addr x.bagRef other))) := by
  obtain ⟨head, words⟩ := insert_congr other.links st.links x.entry (st.freelist item)
  rw [agree.freelist] at head words
  refine agree.steady (working ▸ trivial) trivial ⟨rfl, rfl⟩ ⟨rfl, rfl⟩ ⟨rfl, rfl⟩ ?_ agree.cfreelist
    agree.ncfree ?_ (fun _ _ pending => pending.elim) ?_ ?_
  · change Function.update st.freelist item (FREELIST_INSERT st.links x.entry (st.freelist item)).2 =
      Function.update other.freelist item (FREELIST_INSERT other.links x.entry (other.freelist item)).2
    rw [agree.freelist, head]
  · rintro a (same | ⟨y, -, pending, -⟩)
    · left
      change (FREELIST_INSERT st.links x.entry (st.freelist item)).1 a =
        (FREELIST_INSERT other.links x.entry (other.freelist item)).1 a
      rw [agree.freelist]
      exact words a same
    · rw [working] at pending
      exact pending.elim
  · intro q apart y theirs _ unmarked
    change (FREELIST_INSERT st.links x.entry (st.freelist item)).1 y.entry ≠ _
    rw [insert_frame (lists.freelist item)]
    · exact unmarked
    · rw [List.mem_cons, Slot.entry_mem_iff]
      rintro (same | queued)
      · obtain rfl := Slot.entry_inj same
        exact exclusive.ne apart mine theirs
      · exact unqueued q y theirs _ queued
  · intro a old
    left
    change st.mem a = c.heap.destroyed x.addr x.bagRef other a
    rw [x.destroyed_apply]
    split
    · rename_i cleared
      exact zero a cleared
    · rename_i outside
      rcases old with same | ⟨y, held, behind⟩
      · exact same
      · obtain rfl := Option.some.inj (mine.symm.trans held)
        rw [working] at behind
        exact absurd behind outside

end Agree

end FreeGuard.Model
