import FreeGuard.Proofs.Blocks
import FreeGuard.Proofs.Holdings
import FreeGuard.Soundness.InvalidFree
import Mathlib.Data.Finset.Basic

/-! # Destroying objects leaks nothing

In a build that destroys objects, the blocks of the smaller classes that the program does not hold are all
zero, up to their canary bytes. An allocation returns one of them. What the program stored in an object
that it has freed since therefore reaches no later allocation.
-/

namespace FreeGuard.Soundness.DestroyOnFree

open Machine Model InvalidFree

variable {c : Config} {s t : HeapSystem} {holdings holdings' : Holdings} {e : HeapEvent}
  {es : List HeapEvent} {pool pool' : Pool c} {p p' n n' a threadIndex : ℕ} {sz : size_t} {draws : Draws}

/-- The usable bytes of the smaller blocks that nobody holds are zero. -/
def Clean (c : Config) (holdings : Holdings) (s : HeapState) : Prop :=
  ∀ p n, c.IsBlock ⟨p, n⟩ → n ≤ TWO_KILOBYTES → holdings p = none →
    ∀ a, UsableByte c.build p n a → s.mem a = 0

theorem clean_start (c : Config) : Clean c (fun _ => none) c.start := by
  intro p n _ _ _ a _
  exact congrFun c.initialized_loop.mem a

/-- A usable byte lies in its block. -/
theorem usable_inside (usable : UsableByte c.build p n a) : p ≤ a ∧ a < p + n := by
  obtain ⟨above, below⟩ := usable
  exact ⟨above, by omega⟩

/-- A usable byte belongs to one block. -/
theorem usable_unique (block : c.IsBlock ⟨p, n⟩) (also : c.IsBlock ⟨p', n'⟩)
    (usable : UsableByte c.build p n a) (usable' : UsableByte c.build p' n' a) : p = p' ∧ n = n' :=
  block.unique also (usable_inside usable) (usable_inside usable')

/-- The canary of a block is no usable byte of a block. -/
theorem canary_not_usable (canary : c.build.canary = true) (block : c.IsBlock ⟨p, n⟩)
    (also : c.IsBlock ⟨p', n'⟩) (usable : UsableByte c.build p' n' a) : a ≠ p + n - 1 := by
  rintro rfl
  have positive : 0 < n := by
    obtain ⟨h, t, b, i, -, -, -, same⟩ := block
    obtain ⟨-, rfl⟩ := Issue.mk.inj same
    exact classSize_pos b
  obtain ⟨rfl, rfl⟩ := block.unique also ⟨by omega, by omega⟩ (usable_inside usable)
  have below := usable.2
  rw [Build.canaryBytes, canary, if_pos rfl] at below
  omega

/-- The class of a block is that of the bag of its address. -/
theorem classSize_of_block (block : c.IsBlock ⟨p, n⟩) :
    (c.heap._threadBag (c.heap.bagOf p)).classSize = n := by
  obtain ⟨h, t, b, i, thread, number, small, same⟩ := block
  obtain ⟨rfl, rfl⟩ := Issue.mk.inj same
  rw [Config.bagOf_at thread (Nat.lt_of_lt_of_le number c.usable_le_numBags) small,
    Config.heap_threadBag thread number]
  rfl

/-- An allocation writes no usable byte. -/
theorem malloc_usable (thread : threadIndex < MAX_ALIVE_THREADS)
    (routed : c.build.IF_CANARY_CONDITION sz = false) {state next : HeapState}
    (ran : c.heap.allocateSmallObject threadIndex sz draws state = (p', next))
    (block : c.IsBlock ⟨p', classSizeOf c.build sz⟩) (also : c.IsBlock ⟨p, n⟩)
    (usable : UsableByte c.build p n a) : next.mem a = state.mem a := by
  rw [allocateSmallObject_mem thread routed ran, ← (Config.bagNumOf_spec routed).2.1]
  split
  · exact Function.update_of_ne (canary_not_usable ‹_› block also usable) ..
  · rfl

/-- Destroying a block clears its usable bytes and changes no other byte. -/
theorem destroyed_eq (destroy : c.build.destroyOnFree = true) (block : c.IsBlock ⟨p, n⟩)
    (small : n ≤ TWO_KILOBYTES) (state : HeapState) (a : ℕ) :
    c.heap.destroyed p (c.heap.bagOf p) state a =
      if UsableByte c.build p n a then 0 else state.mem a := by
  have cut : n - c.build.canaryBytes ≤ TWO_KILOBYTES := le_trans (Nat.sub_le ..) small
  rw [BibopHeap.destroyed, classSize_of_block block, Config.heap_build, destroy, if_pos ⟨rfl, cut⟩]
  rfl

theorem Clean.malloc (clean : Clean c holdings s.state)
    (step : HeapStep c.heap s (.malloc threadIndex sz draws) t)
    (block : c.IsBlock ⟨(c.heap.allocateSmallObject threadIndex sz draws s.state).1,
      classSizeOf c.build sz⟩) :
    Clean c (Holdings.next c.heap s (.malloc threadIndex sz draws) holdings) t.state := by
  obtain ⟨thread, routed, state⟩ := step.allocated
  intro p n block' small free a usable
  rw [Holdings.next, Function.update_apply] at free
  rw [state]
  split at free
  · cases free
  · exact (malloc_usable thread routed (Prod.eta _).symm block block' usable).trans
      (clean p n block' small free a usable)

theorem Clean.free {addr : ℕ} (destroy : c.build.destroyOnFree = true) (clean : Clean c holdings s.state)
    (step : HeapStep c.heap s (.free threadIndex addr) t) :
    Clean c (Holdings.next c.heap s (.free threadIndex addr) holdings) t.state := by
  intro p n block small free a usable
  rw [(freeSmallObject_destroyed step.freed.2).1]
  rw [Holdings.next, Function.update_apply] at free
  split at free
  · rename_i same
    subst same
    rw [destroyed_eq destroy block small, if_pos usable]
  · have zero := clean p n block small free a usable
    rw [BibopHeap.destroyed]
    split
    · exact ite_eq_left_iff.mpr fun _ => zero
    · exact zero

theorem Clean.store {addr : ℕ} {value : UInt8} (clean : Clean c holdings s.state)
    (valid : holdings.Valid pool) (stores : StoresHeld c.build (s, holdings) (.store addr value))
    (step : HeapStep c.heap s (.store addr value) t) : Clean c holdings t.state := by
  obtain ⟨p', n', held, usable'⟩ := stores
  intro p n block small free a usable
  rw [step.stored]
  refine (Function.update_of_ne ?_ ..).trans (clean p n block small free a usable)
  rintro rfl
  obtain ⟨rfl, -⟩ := usable_unique block (valid.block p' n' held) usable usable'
  cases free.symm.trans held

/-- A step of a program that stores to what it holds keeps the blocks clean. -/
theorem Clean.step (destroy : c.build.destroyOnFree = true) (clean : Clean c holdings s.state)
    (valid : holdings.Valid pool) (rep : Represents c s.state pool)
    (stores : StoresHeld c.build (s, holdings) e) (step : HeapStep c.heap s e t) :
    Clean c (Holdings.next c.heap s e holdings) t.state := by
  cases e with
  | malloc threadIndex sz draws =>
    obtain ⟨pool', move, -⟩ := step.simulates rep
    exact clean.malloc step (valid.fresh rep step move).2.1
  | free threadIndex addr => exact clean.free destroy step
  | store addr value => exact clean.store valid stores step

/-- What holds after every run of a program that stores to what it holds. -/
theorem exists_clean (destroy : c.build.destroyOnFree = true)
    (run : Run (HolderStep c.heap) c.holder es (s, holdings)) :
    ∃ pool : Pool c, Represents c s.state pool ∧ holdings.Valid pool ∧ Clean c holdings s.state := by
  apply run.invariant (fun r => ∃ pool : Pool c, Represents c r.1.state pool ∧ r.2.Valid pool ∧
    Clean c r.2 r.1.state)
  · rintro ⟨s, holdings⟩ e ⟨t, holdings'⟩ ⟨pool, rep, valid, clean⟩ ⟨stores, step, rfl⟩
    obtain ⟨pool', after, kept⟩ := valid.step rep step
    exact ⟨pool', after, kept, clean.step destroy valid rep stores step⟩
  · exact ⟨_, represents_start c, holdings_start c, clean_start c⟩

/-! ## Two runs -/

/-- Two programs that differ in stores, and the addresses of the objects that they hold and to which one of
them stored bytes that the other did not. -/
structure Twin where
  first : HeapSystem × Holdings
  second : HeapSystem × Holdings
  apart : Finset ℕ

inductive TwinEvent where
  | both (event : HeapEvent)
  | first (addr : ℕ) (value : UInt8)
  | second (addr : ℕ) (value : UInt8)
deriving DecidableEq, Repr

/-- A freed object is no longer apart. -/
def remaining (apart : Finset ℕ) : HeapEvent → Finset ℕ
  | .free _ addr => apart.erase addr
  | _ => apart

/-- A byte of an object of a smaller class that the program holds. -/
def InSmaller (build : Build) (holdings : Holdings) (object a : ℕ) : Prop :=
  ∃ size, holdings object = some size ∧ size ≤ TWO_KILOBYTES ∧ UsableByte build object size a

/-- Both programs take the same step, or one of them stores to an object of a smaller class that it
holds. -/
inductive TwinStep (heap : BibopHeap) (w : Twin) : TwinEvent → Twin → Prop
  | both {e : HeapEvent} {first second : HeapSystem × Holdings} :
      HolderStep heap w.first e first → HolderStep heap w.second e second →
      TwinStep heap w (.both e) ⟨first, second, remaining w.apart e⟩
  | first {addr object : ℕ} {value : UInt8} {first : HeapSystem × Holdings} :
      HolderStep heap w.first (.store addr value) first →
      InSmaller heap.build w.first.2 object addr →
      TwinStep heap w (.first addr value) ⟨first, w.second, insert object w.apart⟩
  | second {addr object : ℕ} {value : UInt8} {second : HeapSystem × Holdings} :
      HolderStep heap w.second (.store addr value) second →
      InSmaller heap.build w.second.2 object addr →
      TwinStep heap w (.second addr value) ⟨w.first, second, insert object w.apart⟩

def Twin.start (c : Config) : Twin := ⟨c.holder, c.holder, ∅⟩

/-- The two programs agree but for the bytes of the objects that are apart. -/
structure Similar (c : Config) (w : Twin) : Prop where
  state : w.second.1.state = w.first.1.state.setMem w.second.1.state.mem
  holdings : w.second.2 = w.first.2
  mem : ∀ a, (∀ p ∈ w.apart, ¬InSmaller c.build w.first.2 p a) →
    w.second.1.state.mem a = w.first.1.state.mem a
  held : ∀ p ∈ w.apart, ∃ n, w.first.2 p = some n ∧ n ≤ TWO_KILOBYTES

theorem similar_start (c : Config) : Similar c (.start c) where
  state := rfl
  holdings := rfl
  mem _ _ := rfl
  held _ member := absurd member (Finset.notMem_empty _)

/-- The bytes that agree before an object is destroyed agree afterwards. -/
theorem destroyed_congr {heap : BibopHeap} {bag : BagRef} {state : HeapState} {mem : ℕ → UInt8}
    (same : mem a = state.mem a) :
    heap.destroyed p bag (state.setMem mem) a = heap.destroyed p bag state a := by
  simp only [BibopHeap.destroyed, HeapState.setMem_mem]
  split
  · simp only [same]
  · exact same

variable {w w' : Twin}

/-- Allocations in states that differ in the memory return the same object and change the same bytes. -/
theorem allocate_similar {state : HeapState} {mem : ℕ → UInt8} (thread : threadIndex < MAX_ALIVE_THREADS)
    (routed : c.build.IF_CANARY_CONDITION sz = false) {p p' : ℕ} {t t' : HeapState}
    (one : c.heap.allocateSmallObject threadIndex sz draws state = (p, t))
    (two : c.heap.allocateSmallObject threadIndex sz draws (state.setMem mem) = (p', t')) :
    p' = p ∧ t' = t.setMem t'.mem ∧ ∀ a, mem a = state.mem a → t'.mem a = t.mem a := by
  have same : c.heap.allocateSmallObject threadIndex sz draws (state.setMem mem) = _ :=
    c.heap.allocateSmallObject_setMem sz draws state mem
  rw [one, two] at same
  obtain ⟨rfl, state'⟩ := Prod.mk.inj same
  refine ⟨rfl, state', fun a agree => ?_⟩
  rw [allocateSmallObject_mem thread routed one, allocateSmallObject_mem thread routed two]
  split
  · rw [Function.update_apply, Function.update_apply, HeapState.setMem_mem, agree]
  · exact agree

/-- Both programs allocate. -/
theorem Similar.malloc {first second : HeapSystem × Holdings} (similar : Similar c w)
    (valid : w.first.2.Valid pool) (rep : Represents c w.first.1.state pool)
    (one : HeapStep c.heap w.first.1 (.malloc threadIndex sz draws) first.1)
    (two : HeapStep c.heap w.second.1 (.malloc threadIndex sz draws) second.1)
    (same : first.2 = Holdings.next c.heap w.first.1 (.malloc threadIndex sz draws) w.first.2)
    (same' : second.2 = Holdings.next c.heap w.second.1 (.malloc threadIndex sz draws) w.second.2) :
    Similar c ⟨first, second, w.apart⟩ := by
  obtain ⟨pool', move, -⟩ := one.simulates rep
  obtain ⟨free, -, -⟩ := valid.fresh rep one move
  obtain ⟨thread, routed, state⟩ := one.allocated
  obtain ⟨-, -, state'⟩ := two.allocated
  rw [similar.state] at state'
  rw [Holdings.next] at same same'
  rw [similar.state, similar.holdings] at same'
  obtain ⟨addr, agrees, mem⟩ := allocate_similar thread routed
    (Prod.eta (c.heap.allocateSmallObject threadIndex sz draws w.first.1.state)).symm (Prod.eta _).symm
  have others (q : ℕ) (member : q ∈ w.apart) : first.2 q = w.first.2 q := by
    rw [same]
    apply Function.update_of_ne
    rintro rfl
    obtain ⟨n, held, -⟩ := similar.held _ member
    cases free.symm.trans held
  refine ⟨?_, ?_, ?_, ?_⟩
  · rw [state, state']
    exact agrees
  · rw [same, same', addr]
  · intro a outside
    dsimp only
    rw [state, state']
    apply mem
    apply similar.mem
    rintro q member ⟨n, held, inside⟩
    exact outside q member ⟨n, (others q member).trans held, inside⟩
  · intro q member
    obtain ⟨n, held, small⟩ := similar.held q member
    exact ⟨n, (others q member).trans held, small⟩

/-- Deallocations in states that differ in the memory differ in the memory. -/
theorem free_similar {state t t' : HeapState} {mem : ℕ → UInt8} {addr : ℕ}
    (rep : Represents c state pool) (inside : c.heap._heapBegin ≤ addr)
    (one : c.heap.freeSmallObject threadIndex addr state = .ok t)
    (two : c.heap.freeSmallObject threadIndex addr (state.setMem mem) = .ok t') :
    t' = t.setMem t'.mem := by
  rw [Config.heap_heapBegin] at inside
  obtain ⟨-, x, live, bag, leads, -⟩ := rep.freeSmallObject inside one
  rw [rep.free_of_live leads live] at one
  rw [(rep.setMem mem).free_of_live leads live] at two
  have same := c.heap.insertObject_setMem (c.heap.destroyed addr bag (state.setMem mem))
    (BibopHeap.freeMarked_ok one)
  have reached := BibopHeap.freeMarked_ok two
  rw [HeapState.setMem_setMem] at same reached
  rw [same] at reached
  cases reached
  rfl

/-- Both programs free an object: its bytes are destroyed in both. -/
theorem Similar.free {first second : HeapSystem × Holdings} {addr : ℕ}
    (destroy : c.build.destroyOnFree = true) (similar : Similar c w)
    (valid : w.first.2.Valid pool) (rep : Represents c w.first.1.state pool)
    (one : HeapStep c.heap w.first.1 (.free threadIndex addr) first.1)
    (two : HeapStep c.heap w.second.1 (.free threadIndex addr) second.1)
    (same : first.2 = Holdings.next c.heap w.first.1 (.free threadIndex addr) w.first.2)
    (same' : second.2 = Holdings.next c.heap w.second.1 (.free threadIndex addr) w.second.2) :
    Similar c ⟨first, second, w.apart.erase addr⟩ := by
  obtain ⟨inside, ok⟩ := one.freed
  obtain ⟨-, ok'⟩ := two.freed
  rw [similar.state] at ok'
  rw [Holdings.next] at same same'
  rw [similar.holdings] at same'
  have mem := (freeSmallObject_destroyed ok).1
  have mem' := (freeSmallObject_destroyed ok').1
  have others (q : ℕ) (member : q ∈ w.apart.erase addr) : first.2 q = w.first.2 q := by
    rw [same]
    exact Function.update_of_ne (Finset.ne_of_mem_erase member) ..
  refine ⟨free_similar rep inside ok ok', ?_, ?_, ?_⟩
  · rw [same, same']
  · intro a outside
    dsimp only
    rw [mem, mem']
    by_cases freed : addr ∈ w.apart ∧ InSmaller c.build w.first.2 addr a
    · obtain ⟨-, n, held, small, usable⟩ := freed
      have block := valid.block addr n held
      rw [destroyed_eq destroy block small, destroyed_eq destroy block small, if_pos usable, if_pos usable]
    · apply destroyed_congr
      apply similar.mem
      intro q member inside'
      rcases eq_or_ne q addr with rfl | other
      · exact freed ⟨member, inside'⟩
      · have member' := Finset.mem_erase.mpr ⟨other, member⟩
        obtain ⟨n, held, within⟩ := inside'
        exact outside q member' ⟨n, (others q member').trans held, within⟩
  · intro q member
    obtain ⟨n, held, small⟩ := similar.held q (Finset.mem_of_mem_erase member)
    exact ⟨n, (others q member).trans held, small⟩

/-- Both programs store the same byte. -/
theorem Similar.store {first second : HeapSystem × Holdings} {addr : ℕ} {value : UInt8}
    (similar : Similar c w) (one : HeapStep c.heap w.first.1 (.store addr value) first.1)
    (two : HeapStep c.heap w.second.1 (.store addr value) second.1) (same : first.2 = w.first.2)
    (same' : second.2 = w.second.2) : Similar c ⟨first, second, w.apart⟩ := by
  have state := one.stored
  have state' := two.stored
  refine ⟨?_, ?_, ?_, ?_⟩
  · dsimp only
    rw [state, state', similar.state]
    rfl
  · exact same'.trans (similar.holdings.trans same.symm)
  · intro a outside
    dsimp only
    rw [state, state', HeapState.setMem_mem, HeapState.setMem_mem, Function.update_apply,
      Function.update_apply, similar.mem a fun q member => same ▸ outside q member]
  · exact fun q member => same ▸ similar.held q member

/-- One program stores to an object of a smaller class: the object is apart. -/
theorem Similar.storeFirst {first : HeapSystem × Holdings} {addr object : ℕ} {value : UInt8}
    (similar : Similar c w) (one : HeapStep c.heap w.first.1 (.store addr value) first.1)
    (same : first.2 = w.first.2) (smaller : InSmaller c.build w.first.2 object addr) :
    Similar c ⟨first, w.second, insert object w.apart⟩ := by
  have state := one.stored
  refine ⟨?_, similar.holdings.trans same.symm, ?_, ?_⟩
  · dsimp only
    rw [state, HeapState.setMem_setMem]
    exact similar.state
  · intro a outside
    dsimp only at outside
    rw [same, Finset.forall_mem_insert] at outside
    dsimp only
    rw [state, HeapState.setMem_mem, Function.update_of_ne]
    · exact similar.mem a outside.2
    · rintro rfl
      exact outside.1 smaller
  · dsimp only
    rw [same, Finset.forall_mem_insert]
    obtain ⟨n, held, small, -⟩ := smaller
    exact ⟨⟨n, held, small⟩, similar.held⟩

/-- So it is when the other program stores. -/
theorem Similar.storeSecond {second : HeapSystem × Holdings} {addr object : ℕ} {value : UInt8}
    (similar : Similar c w) (two : HeapStep c.heap w.second.1 (.store addr value) second.1)
    (same : second.2 = w.second.2) (smaller : InSmaller c.build w.second.2 object addr) :
    Similar c ⟨w.first, second, insert object w.apart⟩ := by
  have state := two.stored
  rw [similar.holdings] at smaller
  refine ⟨?_, same.trans similar.holdings, ?_, ?_⟩
  · dsimp only
    rw [state, similar.state]
    rfl
  · intro a outside
    dsimp only at outside
    rw [Finset.forall_mem_insert] at outside
    dsimp only
    rw [state, HeapState.setMem_mem, Function.update_of_ne]
    · exact similar.mem a outside.2
    · rintro rfl
      exact outside.1 smaller
  · dsimp only
    rw [Finset.forall_mem_insert]
    obtain ⟨n, held, small, -⟩ := smaller
    exact ⟨⟨n, held, small⟩, similar.held⟩

/-- A step keeps the programs similar. -/
theorem Similar.step {label : TwinEvent} (destroy : c.build.destroyOnFree = true) (similar : Similar c w)
    (valid : w.first.2.Valid pool) (rep : Represents c w.first.1.state pool)
    (step : TwinStep c.heap w label w') : Similar c w' := by
  cases step with
  | @both e first second one two =>
    obtain ⟨-, one, same⟩ := one
    obtain ⟨-, two, same'⟩ := two
    cases e with
    | malloc => exact similar.malloc valid rep one two same same'
    | free => exact similar.free destroy valid rep one two same same'
    | store => exact similar.store one two same same'
  | first one smaller => exact similar.storeFirst one.2.1 one.2.2 smaller
  | second two smaller => exact similar.storeSecond two.2.1 two.2.2 smaller

/-- The first program of a step of both takes a step or none. -/
theorem TwinStep.first_step {heap : BibopHeap} {label : TwinEvent} (step : TwinStep heap w label w') :
    w'.first = w.first ∨ ∃ e, HolderStep heap w.first e w'.first := by
  cases step with
  | both one two => exact .inr ⟨_, one⟩
  | first one smaller => exact .inr ⟨_, one⟩
  | second two smaller => exact .inl rfl

theorem exists_similar {labels : List TwinEvent} (destroy : c.build.destroyOnFree = true)
    (run : Run (TwinStep c.heap) (.start c) labels w) :
    Similar c w ∧ ∃ pool : Pool c, Represents c w.first.1.state pool ∧ w.first.2.Valid pool := by
  apply run.invariant (fun w => Similar c w ∧
    ∃ pool : Pool c, Represents c w.first.1.state pool ∧ w.first.2.Valid pool)
  · rintro w label w' ⟨similar, pool, rep, valid⟩ step
    refine ⟨similar.step destroy valid rep step, ?_⟩
    rcases step.first_step with same | ⟨e, -, one, same⟩
    · exact ⟨pool, same ▸ rep, same ▸ valid⟩
    · rw [same]
      exact valid.step rep one
  · exact ⟨similar_start c, _, represents_start c, holdings_start c⟩

/-- The default build without canaries that destroys objects. -/
def destroyConfig : Config :=
  { plainConfig with
    build := { plainConfig.build with destroyOnFree := true }
    large := by decide
    bagSet := by decide }

end FreeGuard.Soundness.DestroyOnFree
