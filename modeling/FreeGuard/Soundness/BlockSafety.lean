import FreeGuard.Proofs.CallRun
import FreeGuard.Soundness.AlignedFree
import FreeGuard.Soundness.ReallocContents
import Mathlib.Data.UInt

/-! # The library is a store of blocks

To a program that frees what it holds and accesses only the bytes that it asked for, the library is a store
of separate blocks: every sequence of calls with their results and of the loads between them is one of the
store. What the program can rely on follows from the store alone.
-/

namespace FreeGuard.Soundness.BlockSafety

open Machine Model

variable {c : Config} {lib lib' : LibFreeGuard} {pool : Pool c} {entries : Entries} {ledger : Ledger}
  {threadIndex p q n m : ℕ} {s : BlockStore UInt8} {l : List UInt8} {e : CallEvent}

/-- What the program sees of an event. -/
def observe : CallEvent → BlockCall UInt8
  | .malloc _ size _ ptr => .alloc size.toNat ptr
  | .calloc _ nelem elsize _ ptr => .zeroed (nelem.toNat * elsize.toNat) ptr
  | .realloc _ ptr sz _ result => .resize ptr sz.toNat result
  | .free _ ptr => .release ptr
  | .store addr value => .store addr value
  | .load addr value => .load addr value

/-- The request does not wrap with its canary, and finds its bump pointer in the heap. -/
def Fits (c : Config) (lib : LibFreeGuard) (threadIndex : ℕ) (size : size_t) (inputs : Inputs) : Prop :=
  ¬(c.build.canary = true ∧ size = -1) ∧ BumpsInside c lib threadIndex size inputs

/-- The address is of a byte that the program asked for. -/
def Asked (ledger : Ledger) (addr : ℕ) : Prop := ∃ p n, ledger p = some n ∧ p ≤ addr ∧ addr < p + n

/-- What the program has to see to. -/
def Legal (c : Config) (s : LibFreeGuard × Ledger) : CallEvent → Prop
  | .malloc threadIndex size inputs _ => Fits c s.1 threadIndex size inputs
  | .calloc threadIndex nelem elsize inputs _ =>
    nelem.toNat * elsize.toNat < 2 ^ 64 ∧ Fits c s.1 threadIndex (nelem * elsize) inputs
  | .realloc threadIndex ptr sz inputs _ =>
    (ptr ≠ NULL → s.2 ptr ≠ none) ∧ (Reallocates c.heap ptr sz s.1 → Fits c s.1 threadIndex sz inputs)
  | .free _ ptr => ptr ≠ NULL → s.2 ptr ≠ none
  | .store addr _ | .load addr _ => Asked s.2 addr

/-- Every block that the program holds is in the store, with the bytes that were asked for. -/
def Covers (s : BlockStore UInt8) (ledger : Ledger) : Prop :=
  ∀ p n, ledger p = some n → ∃ l, s.blocks p = some l ∧ n ≤ l.length

namespace Covers

theorem insert (covers : Covers s ledger) (fresh : s.Fresh q l.length) (enough : n ≤ l.length) :
    Covers (s.insert q l fresh) (Function.update ledger q (some n)) := by
  intro r k entry
  rw [Function.update_apply] at entry
  rw [BlockStore.insert_apply]
  split_ifs with same
  · rw [if_pos same] at entry
    exact ⟨l, rfl, Option.some.inj entry ▸ enough⟩
  · rw [if_neg same] at entry
    exact covers r k entry

theorem erase (covers : Covers s ledger) (p : ℕ) :
    Covers (s.erase p) (Function.update ledger p none) := by
  intro r k entry
  rw [Function.update_apply] at entry
  rw [BlockStore.erase_apply]
  split_ifs with same
  · rw [if_pos same] at entry
    cases entry
  · rw [if_neg same] at entry
    exact covers r k entry

theorem write (covers : Covers s ledger) (p i : ℕ) (value : UInt8) : Covers (s.write p i value) ledger := by
  intro r k entry
  obtain ⟨l, atR, enough⟩ := covers r k entry
  refine ⟨_, by rw [BlockStore.write_apply, atR, Option.map_some], ?_⟩
  split_ifs <;> simpa using enough

end Covers

/-- Copying into a new block writes nothing else. -/
theorem copied {mid : LibFreeGuard} {count : ℕ} (tended : Tended c mid pool entries)
    (grown : Grown c lib q m mid) (fits : count ≤ m) :
    Tended c (mid.memcpy q p count) pool entries ∧ Grown c lib q m (mid.memcpy q p count) := by
  have outside (a : ℕ) (off : ¬(q ≤ a ∧ a < q + m)) :
      (mid.memcpy q p count).small.mem a = mid.small.mem a :=
    ReallocContents.memcpy_outside fun within => off ⟨within.1, by omega⟩
  exact ⟨tended.withMem grown.block outside, grown.withMem tended outside⟩

/-! ## One call -/

/-- The store of a state that a legal program has reached. -/
structure Sees (c : Config) (lib : LibFreeGuard) (ledger : Ledger) (pool : Pool c) (entries : Entries)
    (s : BlockStore UInt8) : Prop where
  tended : Tended c lib pool entries
  stores : Stores c lib s
  covers : Covers s ledger

/-- The next state of the library has a store that the call leads to. -/
def Leads (c : Config) (s : BlockStore UInt8) (call : BlockCall UInt8) (lib : LibFreeGuard)
    (ledger : Ledger) : Prop :=
  ∃ pool entries t, Sees c lib ledger pool entries t ∧ BlockStore.Step NULL s call t

section Calls

variable (sees : Sees c lib ledger pool entries s)
include sees

/-- The program holds a block. -/
theorem exists_block (holds : ledger p ≠ none) :
    ∃ l, s.blocks p = some l ∧ Block c lib p l.length ∧ l = lib.bytes p l.length := by
  obtain ⟨n, entry⟩ := Option.ne_none_iff_exists'.mp holds
  obtain ⟨l, atP, -⟩ := sees.covers p n entry
  exact ⟨l, atP, (sees.stores p l).mp atP⟩

/-- A new block. -/
theorem grows {pool' : Pool c} {entries' : Entries} (tended : Tended c lib' pool' entries')
    (grown : Grown c lib q m lib') (enough : n ≤ m) :
    ∃ fresh : s.Fresh q (lib'.bytes q m).length,
      Sees c lib' (Function.update ledger q (some n)) pool' entries' (s.insert q (lib'.bytes q m) fresh) := by
  have fresh : s.Fresh q (lib'.bytes q m).length := by
    rw [LibFreeGuard.length_bytes]
    exact sees.stores.fresh grown tended
  exact ⟨fresh, tended, sees.stores.insert grown fresh, sees.covers.insert fresh (by simpa using enough)⟩

/-- One block less. -/
theorem shrinks {pool' : Pool c} {entries' : Entries} (tended : Tended c lib' pool' entries')
    (shrunk : Shrunk c lib p lib') :
    Sees c lib' (Function.update ledger p none) pool' entries' (s.erase p) :=
  ⟨tended, sees.stores.erase shrunk, sees.covers.erase p⟩

variable {size nelem elsize : size_t} {inputs : Inputs} (thread : threadIndex < MAX_ALIVE_THREADS)
include thread

theorem malloc_leads (supplied : Supplied lib size inputs.supply) (fits : Fits c lib threadIndex size inputs)
    (ok : lib.xxmalloc c.heap threadIndex size inputs = .ok (p, lib')) :
    ∃ (fresh : s.Fresh p (lib'.bytes p (c.usableSize size)).length) (pool' : Pool c) (entries' : Entries),
      Sees c lib' (Function.update ledger p (some size.toNat)) pool' entries' (s.insert p _ fresh) ∧
      p ≠ NULL ∧ size.toNat ≤ (lib'.bytes p (c.usableSize size)).length := by
  obtain ⟨pool', entries', tended, grown⟩ := sees.tended.malloc thread supplied fits.2 ok
  have enough : size.toNat ≤ c.usableSize size := Config.size_le_usableSize_iff.mpr fits.1
  obtain ⟨fresh, after⟩ := grows sees tended grown enough
  exact ⟨fresh, pool', entries', after, grown.nonnull, by simpa using enough⟩

theorem calloc_leads (whole : nelem.toNat * elsize.toNat < 2 ^ 64)
    (supplied : Supplied lib (nelem * elsize) inputs.supply)
    (fits : Fits c lib threadIndex (nelem * elsize) inputs)
    (ok : lib.xxcalloc c.heap threadIndex nelem elsize inputs = .ok (p, lib')) :
    Leads c s (.zeroed (nelem.toNat * elsize.toNat) p) lib'
      (Function.update ledger p (some (nelem.toNat * elsize.toNat))) := by
  obtain ⟨mid, inner, after⟩ := xxcalloc_cases ok
  obtain ⟨pool', entries', tended, grown⟩ := sees.tended.malloc thread supplied fits.2 inner
  rw [if_pos grown.nonnull] at after
  have count : (nelem * elsize).toNat = nelem.toNat * elsize.toNat := by
    rw [BitVec.toNat_mul, Nat.mod_eq_of_lt whole]
  have enough := Config.size_le_usableSize_iff.mpr fits.1
  rw [count] at after enough
  have outside (a : ℕ) (off : ¬(p ≤ a ∧ a < p + c.usableSize (nelem * elsize))) :
      (mid.memset p 0 (nelem.toNat * elsize.toNat)).small.mem a = mid.small.mem a :=
    if_neg fun within => off ⟨within.1, by omega⟩
  have tended' := tended.withMem grown.block outside
  obtain ⟨fresh, sees'⟩ := grows sees tended' (grown.withMem tended outside) enough
  subst after
  refine ⟨pool', entries', _, sees', .zeroed fresh grown.nonnull ?_⟩
  refine prefix_bytes (by simpa using enough) fun i below => ?_
  rw [List.getElem_replicate]
  rw [List.length_replicate] at below
  exact if_pos ⟨Nat.le_add_right .., Nat.add_lt_add_left below p⟩

theorem free_leads (legal : p ≠ NULL → ledger p ≠ none)
    (ok : lib.xxfree c.heap threadIndex p = .ok lib') :
    Leads c s (.release p) lib' (Function.update ledger p none) := by
  by_cases null : p = NULL
  · subst null
    rw [LibFreeGuard.xxfree, if_pos rfl] at ok
    cases ok
    refine ⟨pool, entries, s, ⟨sees.tended, sees.stores, fun r k entry => ?_⟩, .releaseNull⟩
    rw [Function.update_apply] at entry
    split_ifs at entry
    exact sees.covers r k entry
  · obtain ⟨l, atP, block, -⟩ := exists_block sees (legal null)
    obtain ⟨pool', entries', tended, shrunk⟩ := sees.tended.free thread block ok
    exact ⟨pool', entries', _, shrinks sees tended shrunk, .release (atP ▸ Option.some_ne_none l)⟩

omit thread in
/-- A block that a reallocation keeps. -/
theorem kept_leads {sz old : size_t} (holds : ledger p ≠ none) (positive : sz ≠ 0)
    (sized : lib.oldSize c.heap p = .ok old) (enough : sz ≤ old) :
    Leads c s (.resize p sz.toNat p) lib
      (Function.update (Function.update ledger p none) p (some sz.toNat)) := by
  obtain ⟨l, atP, block, -⟩ := exists_block sees holds
  obtain ⟨old', sized', -, least⟩ := sees.tended.held.oldSize sees.tended.inside block
  obtain rfl := Except.ok.inj (sized.symm.trans sized')
  have fits : sz.toNat ≤ l.length := (BitVec.le_def.mp enough).trans least
  have some : 0 < sz.toNat := Nat.pos_of_ne_zero fun zero => positive (BitVec.eq_of_toNat_eq zero)
  refine ⟨pool, entries, s, ⟨sees.tended, sees.stores, fun r k entry => ?_⟩, .stays atP some fits⟩
  rw [Function.update_idem, Function.update_apply] at entry
  split_ifs at entry with same
  · subst same
    exact ⟨l, atP, Option.some.inj entry ▸ fits⟩
  · exact sees.covers r k entry

/-- A block that a reallocation moves. -/
theorem moved_leads {sz old : size_t} {mid : LibFreeGuard} (holds : ledger p ≠ none)
    (supplied : Supplied lib sz inputs.supply) (fits : Fits c lib threadIndex sz inputs)
    (sized : lib.oldSize c.heap p = .ok old) (short : old < sz)
    (ran : lib.xxmalloc c.heap threadIndex sz inputs = .ok (q, mid))
    (freed : (mid.memcpy q p old.toNat).xxfree c.heap threadIndex p = .ok lib') :
    Leads c s (.resize p sz.toNat q) lib'
      (Function.update (Function.update ledger p none) q (some sz.toNat)) := by
  obtain ⟨l, atP, block, bytes⟩ := exists_block sees holds
  obtain ⟨pool₁, entries₁, tended, grown⟩ := sees.tended.malloc thread supplied fits.2 ran
  have enough := Config.size_le_usableSize_iff.mpr fits.1
  have room : old.toNat < sz.toNat := BitVec.lt_def.mp short
  obtain ⟨copied, grown'⟩ := @copied _ _ _ _ p _ _ _ _ tended grown (room.le.trans enough)
  obtain ⟨fresh, sees'⟩ := grows sees copied grown' enough
  have still := (grown'.blocks p l.length).mpr (.inl block)
  obtain ⟨pool₂, entries₂, tended₂, shrunk⟩ := copied.free thread still freed
  have other : p ≠ q := fun same => grown.fresh _ (same ▸ block)
  have whole := sees.tended.oldSize_eq block (copied.ne_heapEnd thread still freed) sized
  refine ⟨pool₂, entries₂, _, Function.update_comm other .. ▸ shrinks sees' tended₂ shrunk,
    .moves fresh atP (whole ▸ room) ?_ grown.nonnull (by simpa using enough)⟩
  refine prefix_bytes (by omega) fun i below => ?_
  have copy : (mid.memcpy q p old.toNat).small.mem (q + i) = lib.small.mem (p + i) :=
    (ReallocContents.memcpy_inside (whole ▸ below)).trans (grown.contents p _ i block below)
  rw [List.getElem_of_eq bytes below, LibFreeGuard.getElem_bytes]
  exact copy

end Calls

/-- Every step of a legal program is one of the store. -/
theorem step_leads (sees : Sees c lib ledger pool entries s) (legal : Legal c (lib, ledger) e)
    (step : CallStep c.heap lib e lib') : Leads c s (observe e) lib' (ledger.next e) := by
  cases step with
  | malloc thread supplied ok =>
    obtain ⟨fresh, pool', entries', after, nonnull, enough⟩ := malloc_leads sees thread supplied legal ok
    exact ⟨pool', entries', _, after, .alloc fresh nonnull enough⟩
  | calloc thread supplied ok => exact calloc_leads sees thread legal.1 supplied legal.2 ok
  | free thread ok => exact free_leads sees thread legal ok
  | store =>
    obtain ⟨p, n, entry, first, last⟩ := legal
    obtain ⟨l, atP, enough⟩ := sees.covers p n entry
    have block := ((sees.stores p l).mp atP).1
    obtain ⟨i, rfl⟩ := Nat.exists_eq_add_of_le first
    have below : i < l.length := by omega
    refine ⟨pool, entries, _, ⟨sees.tended.withMem block fun a off => ?_,
      sees.stores.write sees.tended block below, sees.covers.write p i _⟩, .store atP below⟩
    exact Function.update_of_ne (fun same => off ⟨by omega, by omega⟩) ..
  | load =>
    obtain ⟨p, n, entry, first, last⟩ := legal
    obtain ⟨l, atP, enough⟩ := sees.covers p n entry
    obtain ⟨i, rfl⟩ := Nat.exists_eq_add_of_le first
    refine ⟨pool, entries, s, sees, .load atP ?_⟩
    have bytes := ((sees.stores p l).mp atP).2
    rw [List.getElem?_eq_getElem (by omega), List.getElem_of_eq bytes (by omega),
      LibFreeGuard.getElem_bytes]
  | @realloc threadIndex ptr result sz inputs _ thread supplied ok =>
    rw [Ledger.next, observe]
    cases xxrealloc_cases ok with
    | fresh null ok =>
      obtain ⟨fresh, pool', entries', after, nonnull, enough⟩ :=
        malloc_leads sees thread supplied (legal.2 (.inl null)) ok
      subst null
      rw [if_pos rfl]
      exact ⟨pool', entries', _, after, .resizeNull fresh nonnull enough⟩
    | freed nonnull zero ok =>
      obtain ⟨l, atP, block, -⟩ := exists_block sees (legal.1 nonnull)
      obtain ⟨pool', entries', tended, shrunk⟩ := sees.tended.free thread block ok
      rw [if_neg nonnull, if_pos zero]
      subst zero
      exact ⟨pool', entries', _, shrinks sees tended shrunk, .resizeZero (atP ▸ Option.some_ne_none l)⟩
    | unknown nonnull _ unknown =>
      obtain ⟨l, -, block, -⟩ := exists_block sees (legal.1 nonnull)
      obtain ⟨old, sized, known, -⟩ := sees.tended.held.oldSize sees.tended.inside block
      exact absurd (Except.ok.inj (sized.symm.trans unknown)) known
    | kept nonnull positive sized _ enough =>
      rw [if_neg nonnull, if_neg positive]
      exact kept_leads sees (legal.1 nonnull) positive sized enough
    | moved nonnull positive sized known short ran freed =>
      rw [if_neg nonnull, if_neg positive]
      have fits := legal.2 (.inr ⟨positive, _, sized, known, short⟩)
      exact moved_leads sees thread (legal.1 nonnull) supplied fits sized short ran freed

/-! ## Runs -/

/-- A program that frees what it holds and accesses what it asked for, with its ledger. -/
abbrev LegalStep (c : Config) : LibFreeGuard × Ledger → CallEvent → LibFreeGuard × Ledger → Prop :=
  Guarded (Legal c) (Recorded (fun _ e ledger => ledger.next e) (CallStep c.heap))

theorem sees_boot (c : Config) : Sees c c.boot (fun _ => none) SlotPool.fresh [] .empty where
  tended :=
    { held := c.booted.consistent
      inside := heldInside_fresh
      own := own_fresh
      intact := fun _ y broken => y.not_live_start broken.1 }
  stores p l := by
    refine iff_of_false (fun none => by cases none) fun both => ?_
    rcases c.booted.consistent.block_iff.mp both.1 with ⟨x, live, -⟩ | ⟨st, member, -⟩
    · exact absurd live (Set.notMem_empty x)
    · exact absurd member List.not_mem_nil
  covers p n entry := by cases entry

/-- Along a run of a legal program there is a store for every state. -/
theorem exists_store {lib' : LibFreeGuard} {ledger' : Ledger} {events : List CallEvent}
    (run : Run (LegalStep c) (lib, ledger) events (lib', ledger')) (sees : Sees c lib ledger pool entries s) :
    ∃ t, Run (BlockStore.Step NULL) s (events.map observe) t ∧
      ∃ (pool : Pool c) (entries : Entries), Sees c lib' ledger' pool entries t :=
  run.relabeling observe
    (fun a t => ∃ (pool : Pool c) (entries : Entries), Sees c a.1 a.2 pool entries t)
    (fun _ _ _ _ ⟨_, _, sees⟩ ⟨legal, step, next⟩ =>
      let ⟨pool, entries, t, after, move⟩ := step_leads sees legal step
      ⟨t, move, pool, entries, next ▸ after⟩)
    ⟨_, _, sees⟩

/-- What the program holds is in the store, byte by byte. -/
def Shows (lib : LibFreeGuard) (ledger : Ledger) (t : BlockStore UInt8) : Prop :=
  ∀ p n, ledger p = some n → ∃ l, t.blocks p = some l ∧ n ≤ l.length ∧ l = lib.bytes p l.length

/-! ## No false report -/

/-- The calls that a program may make return; an allocation at the big heap does unless `mmap` fails. -/
structure Answers (c : Config) (lib : LibFreeGuard) (ledger : Ledger) (threadIndex : ℕ) : Prop where
  malloc : ∀ size inputs, (c.build.IF_CANARY_CONDITION size = true → inputs.supply.mmap ≠ none) →
    ∃ p lib', lib.xxmalloc c.heap threadIndex size inputs = .ok (p, lib')
  free : ∀ p, ledger p ≠ none → p ≠ c.heap._heapEnd →
    ∃ lib', lib.xxfree c.heap threadIndex p = .ok lib'
  realloc : ∀ p sz inputs, ledger p ≠ none → p ≠ c.heap._heapEnd → Supplied lib sz inputs.supply →
    Fits c lib threadIndex sz inputs →
    (c.build.IF_CANARY_CONDITION sz = true → inputs.supply.mmap ≠ none) →
    ∃ q lib', lib.xxrealloc c.heap threadIndex p sz inputs = .ok (q, lib')

theorem malloc_answers (lib : LibFreeGuard) (threadIndex : ℕ) {size : size_t} {inputs : Inputs}
    (mapped : c.build.IF_CANARY_CONDITION size = true → inputs.supply.mmap ≠ none) :
    ∃ p lib', lib.xxmalloc c.heap threadIndex size inputs = .ok (p, lib') := by
  cases ran : lib.xxmalloc c.heap threadIndex size inputs with
  | ok result => exact ⟨result.1, result.2, rfl⟩
  | error stop =>
    obtain ⟨large, none⟩ := xxmalloc_error_iff.mp ⟨stop, ran⟩
    exact absurd none (mapped large)

theorem realloc_answers (sees : Sees c lib ledger pool entries s) (thread : threadIndex < MAX_ALIVE_THREADS)
    {sz : size_t} {inputs : Inputs} (holds : ledger p ≠ none) (placed : p ≠ c.heap._heapEnd)
    (supplied : Supplied lib sz inputs.supply) (fits : Fits c lib threadIndex sz inputs)
    (mapped : c.build.IF_CANARY_CONDITION sz = true → inputs.supply.mmap ≠ none) :
    ∃ q lib', lib.xxrealloc c.heap threadIndex p sz inputs = .ok (q, lib') := by
  obtain ⟨l, -, block, -⟩ := exists_block sees holds
  obtain ⟨tended, -, -⟩ := sees
  have nonnull := tended.held.block_ne_null block
  by_cases zero : sz = 0
  · obtain ⟨lib', ok⟩ : ∃ last, lib.xxfree c.heap threadIndex p = .ok last :=
      AlignedFree.xxfree_returns tended.held tended.inside tended.intact block placed
    refine ⟨NULL, lib', ?_⟩
    rw [LibFreeGuard.xxrealloc, if_neg nonnull, if_pos zero, ok]
    rfl
  obtain ⟨old, sized, known, least⟩ := tended.held.oldSize tended.inside block
  by_cases enough : sz ≤ old
  · exact ⟨p, lib, xxrealloc_kept nonnull zero sized known enough⟩
  obtain ⟨q, mid, ran⟩ := malloc_answers lib threadIndex mapped
  obtain ⟨pool₁, entries₁, tended₁, grown⟩ := tended.malloc thread supplied fits.2 ran
  have room := Config.size_le_usableSize_iff.mpr fits.1
  have short : old < sz := BitVec.not_le.mp enough
  have below := BitVec.lt_def.mp short
  obtain ⟨copied, grown'⟩ := @copied _ _ _ _ p _ _ _ _ tended₁ grown (below.le.trans room)
  have still := (grown'.blocks p _).mpr (.inl block)
  obtain ⟨lib', ok⟩ : ∃ last, (mid.memcpy q p old.toNat).xxfree c.heap threadIndex p = .ok last :=
    AlignedFree.xxfree_returns copied.held copied.inside copied.intact still placed
  refine ⟨q, lib', ?_⟩
  rw [xxrealloc_moved nonnull zero sized known short, ran]
  change ((mid.memcpy q p old.toNat).xxfree c.heap threadIndex p >>= _) = _
  rw [ok]
  rfl

end FreeGuard.Soundness.BlockSafety
