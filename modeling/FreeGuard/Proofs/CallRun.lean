import FreeGuard.Machine.BlockStore
import FreeGuard.Model.CallRun
import FreeGuard.Proofs.BlockMoves

/-! # The calls on the blocks that the program sees

A state is tended when nothing is amiss in either heap and every canary is in place. From such a state an
allocation adds one block, a deallocation of a block takes it away, and every other block keeps its bytes.
`Stores` relates the state to a store of blocks with the same bytes.
-/

namespace FreeGuard.Model

open Machine

variable {c : Config} {lib mid lib' : LibFreeGuard} {pool pool' : Pool c} {entries entries' : Entries}
  {threadIndex p q r m n : ℕ} {size : size_t} {inputs : Inputs} {s : BlockStore UInt8}

/-- Nothing is amiss in either heap. -/
structure Tended (c : Config) (lib : LibFreeGuard) (pool : Pool c) (entries : Entries) : Prop where
  held : Consistent c lib pool entries
  inside : HeldInside pool
  own : Own pool
  intact : c.build.canary = true → ∀ y : Slot c, ¬y.Broken lib.small

/-- A block has been added where there was none. -/
structure Grown (c : Config) (lib : LibFreeGuard) (q m : ℕ) (lib' : LibFreeGuard) : Prop where
  blocks : ∀ r n, Block c lib' r n ↔ Block c lib r n ∨ r = q ∧ n = m
  fresh : ∀ n, ¬Block c lib q n
  contents : ∀ r n i, Block c lib r n → i < n → lib'.small.mem (r + i) = lib.small.mem (r + i)
  nonnull : q ≠ NULL

/-- A block has been taken away. -/
structure Shrunk (c : Config) (lib : LibFreeGuard) (p : ℕ) (lib' : LibFreeGuard) : Prop where
  blocks : ∀ r n, Block c lib' r n ↔ Block c lib r n ∧ r ≠ p
  contents : ∀ r n i, Block c lib r n → r ≠ p → i < n →
    lib'.small.mem (r + i) = lib.small.mem (r + i)

/-- The bytes of memory are no part of what stands for a block. -/
theorem block_withMem {mem : ℕ → UInt8} : Block c (lib.withMem mem) p n ↔ Block c lib p n := by
  constructor
  · rintro (⟨x, live⟩ | found)
    · exact .small x live
    · exact .large found
  · rintro (⟨x, live⟩ | found)
    · exact .small x live
    · exact @Block.large c (lib.withMem mem) _ _ found

/-! ## What the calls do to the blocks -/

/-- A large object that a deallocation releases is not taken for a small one. -/
theorem Freed.large_not_small {st : ℕ} (held : Consistent c lib pool entries) (inside : HeldInside pool)
    (found : lib.big._xmap.find p sizeofPointer = some st)
    (move : Freed c threadIndex p lib pool entries lib' pool' entries') :
    c.heap.isSmallObject p = false := by
  cases move with
  | ignored none =>
    rcases none with null | ⟨notSmall, -⟩
    · exact absurd null (held.block_ne_null (.large found))
    · exact notSmall
  | small isSmall ran step =>
    cases step with
    | release live leads =>
      have atEnd := held.large_at_end found isSmall
      exact absurd live (inside.end_not_live (atEnd ▸ leads))
  | large notSmall => exact notSmall

namespace Tended

variable (tended : Tended c lib pool entries)
include tended

/-- Two blocks share no byte. -/
theorem apart (first : Block c lib p n) (second : Block c lib q m) (other : p ≠ q) :
    Region.Apart ⟨p, n⟩ ⟨q, m⟩ := fun _ inFirst inSecond =>
  other (tended.held.owns_unique tended.inside (first.owns inFirst.1 inFirst.2)
    (second.owns inSecond.1 inSecond.2))

/-- The block at an address has one size. -/
theorem size_unique (first : Block c lib p n) (second : Block c lib p m) : n = m := by
  have within {x : Slot c} (mark : x.Live lib.small) : x.heap < BIBOP_NUM_HEAPS :=
    tended.inside x (.inl (tended.held.small.live_iff.mpr mark))
  rcases tended.held.block_iff.mp first with ⟨x, live, place, rfl⟩ | ⟨st, member, rfl⟩
  · rcases tended.held.block_iff.mp second with ⟨y, -, same, rfl⟩ | ⟨st, member, rfl⟩
    · obtain rfl := Slot.addr_inj (place.trans same.symm)
      rfl
    · have found := tended.held.find_iff.mpr member
      exact absurd place.symm (tended.held.large_ne_slot found (tended.inside x (.inl live)))
  · have found := tended.held.find_iff.mpr member
    rcases tended.held.block_iff.mp second with ⟨y, live, place, rfl⟩ | ⟨st', member', rfl⟩
    · exact absurd place.symm (tended.held.large_ne_slot found (tended.inside y (.inl live)))
    · obtain rfl := Option.some.inj (found.symm.trans (tended.held.find_iff.mpr member'))
      rfl

/-- No byte of a block is a canary. -/
theorem canary_ne {i : ℕ} (canary : c.build.canary = true) (block : Block c lib p n) (below : i < n)
    {y : Slot c} (mark : y.Live lib.small) : y.canary ≠ p + i := by
  intro same
  have positive := classSize_pos y.bag
  have atY : Owns c lib y.addr (p + i) :=
    .small y mark (by rw [← same, Slot.canary]; omega) (by rw [← same, Slot.canary]; omega)
  have atP := block.owns (Nat.le_add_right ..) (Nat.add_lt_add_left below p)
  obtain rfl := tended.held.owns_unique tended.inside atY atP
  have whole : n = classSize y.bag - 1 := by
    have size := tended.size_unique block (.small y mark)
    rwa [Build.canaryBytes, canary, if_pos rfl] at size
  rw [Slot.canary] at same
  omega

/-- Writing to one block leaves everything else. -/
theorem withMem {mem : ℕ → UInt8} (block : Block c lib p n)
    (outside : ∀ a, ¬(p ≤ a ∧ a < p + n) → mem a = lib.small.mem a) :
    Tended c (lib.withMem mem) pool entries where
  held := tended.held.withMem mem
  inside := tended.inside
  own := tended.own
  intact canary y broken := by
    have mark : y.Live lib.small := broken.1
    refine tended.intact canary y ⟨mark, fun intact => broken.2 ?_⟩
    refine (outside _ ?_).trans intact
    rintro ⟨first, last⟩
    have place : y.canary = p + (y.canary - p) := by omega
    exact tended.canary_ne canary block (by omega) mark place

/-- An allocation that returns. -/
theorem malloc (thread : threadIndex < MAX_ALIVE_THREADS) (supplied : Supplied lib size inputs.supply)
    (bumps : BumpsInside c lib threadIndex size inputs)
    (ok : lib.xxmalloc c.heap threadIndex size inputs = .ok (q, lib')) :
    ∃ pool' entries', Tended c lib' pool' entries' ∧ Grown c lib q (c.usableSize size) lib' := by
  obtain ⟨held, inside, own, intact⟩ := tended
  obtain ⟨pool', entries', move, after⟩ := held.xxmalloc thread supplied ok
  have inside' := inside.malloc held.small bumps move
  refine ⟨pool', entries', ⟨after, inside', own.malloc move, fun canary => ?_⟩, ?_, ?_, ?_, move.nonnull⟩
  · exact move.intact held after own canary thread (intact canary)
  · exact fun r n => move.block_iff held after own supplied.objStatus
  · exact fun n => move.fresh held after own inside'
  · exact fun r n i block below => move.contents held after own inside' thread supplied.objStatus block below

/-- A deallocation of a block that returns. -/
theorem free (thread : threadIndex < MAX_ALIVE_THREADS) (block : Block c lib p n)
    (ok : lib.xxfree c.heap threadIndex p = .ok lib') :
    ∃ pool' entries', Tended c lib' pool' entries' ∧ Shrunk c lib p lib' := by
  obtain ⟨held, inside, own, intact⟩ := tended
  obtain ⟨pool', entries', move, after⟩ := held.xxfree thread ok
  have freed := move.at_block held inside block
  have slot (isSmall : c.heap.isSmallObject p = true) : ∃ x : Slot c, x.addr = p := by
    cases block with
    | small x => exact ⟨x, rfl⟩
    | large found => cases isSmall.symm.trans (move.large_not_small held inside found)
  refine ⟨pool', entries', ⟨after, inside.free move, own.free slot move, fun canary y broken => ?_⟩, ?_, ?_⟩
  · cases freed with
    | small x place live ran same released =>
      subst same
      have mark := released.live ▸ after.small.live_iff.mpr broken.1
      refine intact canary y ⟨held.small.live_iff.mp mark.1, ?_⟩
      rw [← Slot.canary_freed canary x.leadsTo_addr ran y]
      exact broken.2
    | large _ same =>
      subst same
      exact intact canary y broken
  · exact fun r n => freed.block_iff held after inside
  · intro r n i other apart below
    refine freed.frame held fun owns => apart ?_
    exact held.owns_unique inside (other.owns (Nat.le_add_right ..) (Nat.add_lt_add_left below r)) owns

/-- The deallocation of a block at the end of the small heap does not return. -/
theorem ne_heapEnd (thread : threadIndex < MAX_ALIVE_THREADS) (block : Block c lib p n)
    (ok : lib.xxfree c.heap threadIndex p = .ok lib') : p ≠ c.heap._heapEnd := by
  rintro rfl
  obtain ⟨pool', entries', move, -⟩ := tended.held.xxfree thread ok
  have first : c.heap._heapBegin ≤ c.heap._heapEnd := by
    rw [Config.heap_heapEnd]
    exact Nat.le_add_right ..
  generalize place : c.heap._heapEnd = a at block move
  cases block with
  | small x mark =>
    have within := tended.inside x (.inl (tended.held.small.live_iff.mpr mark))
    exact absurd place (Slot.addr_lt_heapEnd_iff.mpr within).ne'
  | large found =>
    have notSmall := move.large_not_small tended.held tended.inside found
    rw [isSmallObject_iff.mpr ⟨place ▸ first, place.ge⟩] at notSmall
    cases notSmall

/-- Elsewhere the size reported is that of the block. -/
theorem oldSize_eq {old : size_t} (block : Block c lib p n) (placed : p ≠ c.heap._heapEnd)
    (sized : lib.oldSize c.heap p = .ok old) : old.toNat = n := by
  cases block with
  | small x mark =>
    have within := tended.inside x (.inl (tended.held.small.live_iff.mpr mark))
    rw [Slot.oldSize_addr (Slot.isSmallObject_addr within)] at sized
    rw [← Except.ok.inj sized, Config.reportedSize_toNat x.bag_lt]
  | large found =>
    have notSmall : c.heap.isSmallObject p = false :=
      Bool.eq_false_iff.mpr fun isSmall => placed (tended.held.large_at_end found isSmall)
    have isLarge : lib.big.isLargeObject p = true := by
      rw [BigHeap.isLargeObject, found]
      rfl
    rw [LibFreeGuard.oldSize, notSmall, isLarge, BigHeap.getObjectSize, found] at sized
    rw [← Except.ok.inj sized]

end Tended

/-- The new block may be written to. -/
theorem Grown.withMem {mem : ℕ → UInt8} (grown : Grown c lib q m mid) (tended : Tended c mid pool entries)
    (outside : ∀ a, ¬(q ≤ a ∧ a < q + m) → mem a = mid.small.mem a) :
    Grown c lib q m (mid.withMem mem) where
  blocks r n := block_withMem.trans (grown.blocks r n)
  fresh := grown.fresh
  contents r n i old below := by
    refine (outside _ fun within => ?_).trans (grown.contents r n i old below)
    refine tended.apart ((grown.blocks r n).mpr (.inl old)) ((grown.blocks q m).mpr (.inr ⟨rfl, rfl⟩)) ?_
      (r + i) ⟨Nat.le_add_right .., Nat.add_lt_add_left below r⟩ within
    rintro rfl
    exact grown.fresh _ old
  nonnull := grown.nonnull

theorem Grown.block (grown : Grown c lib q m lib') : Block c lib' q m :=
  (grown.blocks q m).mpr (.inr ⟨rfl, rfl⟩)

/-! ## The store of the blocks -/

/-- The bytes of a range. -/
def LibFreeGuard.bytes (lib : LibFreeGuard) (p n : ℕ) : List UInt8 :=
  List.ofFn fun i : Fin n => lib.small.mem (p + i)

@[simp] theorem LibFreeGuard.length_bytes (lib : LibFreeGuard) (p n : ℕ) : (lib.bytes p n).length = n :=
  List.length_ofFn

@[simp] theorem LibFreeGuard.getElem_bytes (lib : LibFreeGuard) (p n : ℕ) {i : ℕ}
    (below : i < (lib.bytes p n).length) : (lib.bytes p n)[i] = lib.small.mem (p + i) :=
  List.getElem_ofFn below

theorem bytes_congr (same : ∀ i < n, lib'.small.mem (p + i) = lib.small.mem (p + i)) :
    lib'.bytes p n = lib.bytes p n := by
  apply List.ext_getElem (by simp)
  intro i below _
  simpa using same i (by simpa using below)

theorem prefix_bytes {l : List UInt8} (fits : l.length ≤ n)
    (same : ∀ i (below : i < l.length), lib.small.mem (p + i) = l[i]) : l <+: lib.bytes p n := by
  rw [List.prefix_iff_getElem?]
  intro i below
  rw [List.getElem?_eq_getElem (by simpa using Nat.lt_of_lt_of_le below fits), LibFreeGuard.getElem_bytes,
    same i below]

/-- The blocks of a state and their bytes. -/
def Stores (c : Config) (lib : LibFreeGuard) (s : BlockStore UInt8) : Prop :=
  ∀ p l, s.blocks p = some l ↔ Block c lib p l.length ∧ l = lib.bytes p l.length

namespace Stores

variable (stores : Stores c lib s)
include stores

theorem of_block (block : Block c lib p n) : s.blocks p = some (lib.bytes p n) :=
  (stores p _).mpr (by simpa using block)

theorem absent (vacant : ∀ n, ¬Block c lib p n) : s.blocks p = none := by
  cases atP : s.blocks p with
  | none => rfl
  | some l => exact absurd ((stores p l).mp atP).1 (vacant _)

theorem fresh (grown : Grown c lib q m lib') (tended : Tended c lib' pool entries) : s.Fresh q m := by
  refine ⟨stores.absent grown.fresh, fun r l atR => ?_⟩
  have old := ((stores r l).mp atR).1
  refine tended.apart ((grown.blocks q m).mpr (.inr ⟨rfl, rfl⟩)) ((grown.blocks r _).mpr (.inl old)) ?_
  rintro rfl
  exact grown.fresh _ old

/-- An allocation inserts its block. -/
theorem insert (grown : Grown c lib q m lib') (fresh : s.Fresh q (lib'.bytes q m).length) :
    Stores c lib' (s.insert q (lib'.bytes q m) fresh) := by
  intro r l
  rw [BlockStore.insert_apply, grown.blocks]
  split_ifs with same
  · subst same
    rw [Option.some.injEq, or_iff_right (grown.fresh _)]
    constructor
    · rintro rfl
      simp
    · rintro ⟨⟨-, size⟩, bytes⟩
      rw [bytes, size]
  · rw [stores, or_iff_left fun both => same both.1]
    refine and_congr_right fun block => ?_
    rw [bytes_congr fun i below => grown.contents r _ i block below]

/-- A deallocation erases its block. -/
theorem erase (shrunk : Shrunk c lib p lib') : Stores c lib' (s.erase p) := by
  intro r l
  rw [BlockStore.erase_apply, shrunk.blocks]
  split_ifs with same
  · exact iff_of_false (fun none => by cases none) fun both => both.1.2 same
  · rw [stores, and_iff_left same]
    refine and_congr_right fun block => ?_
    rw [bytes_congr fun i below => shrunk.contents r _ i block same below]

/-- A store to a block writes its byte. -/
theorem write (tended : Tended c lib pool entries) {i : ℕ} {value : UInt8} (block : Block c lib p n)
    (below : i < n) :
    Stores c (lib.withMem (Function.update lib.small.mem (p + i) value)) (s.write p i value) := by
  have other {r m j : ℕ} (old : Block c lib r m) (apart : r ≠ p) (inside : j < m) : r + j ≠ p + i :=
    fun same => tended.apart old block apart (r + j) ⟨Nat.le_add_right .., Nat.add_lt_add_left inside r⟩
      (same ▸ ⟨Nat.le_add_right .., Nat.add_lt_add_left below p⟩)
  have same : (lib.withMem (Function.update lib.small.mem (p + i) value)).bytes p n =
      (lib.bytes p n).set i value := by
    apply List.ext_getElem (by simp)
    intro j first _
    simp only [LibFreeGuard.getElem_bytes, List.getElem_set, LibFreeGuard.withMem]
    by_cases here : i = j
    · simp [here]
    · rw [if_neg here, Function.update_of_ne (by omega)]
  intro r l
  rw [block_withMem, BlockStore.write, Option.map_eq_some_iff]
  constructor
  · rintro ⟨m, atR, rfl⟩
    obtain ⟨old, bytes⟩ := (stores r m).mp atR
    split_ifs with here
    · subst here
      obtain size := tended.size_unique old block
      rw [List.length_set, size, same, ← size, ← bytes]
      exact ⟨size ▸ block, rfl⟩
    · refine ⟨old, bytes.trans (bytes_congr fun j inside => ?_).symm⟩
      exact Function.update_of_ne (other old here inside) ..
  · rintro ⟨old, bytes⟩
    refine ⟨lib.bytes r l.length, stores.of_block old, ?_⟩
    split_ifs with here
    · subst here
      obtain size := tended.size_unique old block
      rw [size, ← same, ← size, ← bytes]
    · rw [bytes, LibFreeGuard.length_bytes]
      refine (bytes_congr fun j inside => ?_).symm
      exact Function.update_of_ne (other old here inside) ..

end Stores

end FreeGuard.Model
