import FreeGuard.Proofs.BlockMoves
import FreeGuard.Soundness.CanaryCheck

/-! # Reallocation keeps contents

`xxrealloc` of a live block keeps it when the size reported is enough, and else allocates, copies the
reported size and frees. The copy fits the new block and reads only the old one, and no other block is
touched, in any combination of the two heaps. What breaks this is a block that the size lookup does not
know: an object handed out past the end of the small heap.
-/

namespace FreeGuard.Soundness.ReallocContents

open Machine Model

variable {c : Config} {lib lib' mid : LibFreeGuard} {pool pool' : Pool c} {entries entries' : Entries}
  {threadIndex p q r m n count : ℕ} {sz old : size_t} {inputs : Inputs}

/-- What a reallocation of `p` that returns `q` promises. -/
structure Preserved (c : Config) (lib : LibFreeGuard) (p : ℕ) (sz : size_t) (q : ℕ)
    (lib' : LibFreeGuard) : Prop where
  live : ∃ n, Block c lib' q n ∧ sz.toNat ≤ n ∧ ∀ i < n, lib'.mapped (q + i) = true
  contents : ∃ old, lib.oldSize c.heap p = .ok old ∧
    ∀ i < min old.toNat sz.toNat, lib'.small.mem (q + i) = lib.small.mem (p + i)
  released : (∃ n, Block c lib' p n) ↔ q = p
  others : ∀ r n, Block c lib r n → r ≠ p →
    Block c lib' r n ∧ ∀ i < n, lib'.small.mem (r + i) = lib.small.mem (r + i)

/-- A reallocation that stays changes nothing. -/
theorem preserved_kept (held : Consistent c lib pool entries) (inside : HeldInside pool)
    (block : Block c lib p m) (sized : lib.oldSize c.heap p = .ok old) (enough : sz ≤ old)
    (least : old.toNat ≤ m) : Preserved c lib p sz p lib where
  live := ⟨m, block, (BitVec.le_def.mp enough).trans least, fun _ below =>
    held.owns_mapped inside (block.owns (Nat.le_add_right ..) (Nat.add_lt_add_left below _))⟩
  contents := ⟨old, sized, fun _ _ => rfl⟩
  released := iff_of_true ⟨m, block⟩ rfl
  others _ _ other _ := ⟨other, fun _ _ => rfl⟩

/-- Copying changes no byte outside the destination. -/
theorem memcpy_outside {a : ℕ} (outside : ¬(q ≤ a ∧ a < q + count)) :
    (lib.memcpy q p count).small.mem a = lib.small.mem a := if_neg outside

theorem memcpy_inside {i : ℕ} (below : i < count) :
    (lib.memcpy q p count).small.mem (q + i) = lib.small.mem (p + i) := by
  have inside : q ≤ q + i ∧ q + i < q + count := ⟨Nat.le_add_right .., Nat.add_lt_add_left below q⟩
  apply (if_pos inside).trans
  simp only [Nat.add_sub_cancel_left, Nat.add_comm]

/-- A reallocation that moves copies the old block into the new one and releases it. -/
theorem preserved_moved (held : Consistent c lib pool entries) (inside : HeldInside pool)
    (own : Own pool) (thread : threadIndex < MAX_ALIVE_THREADS)
    (supplied : Supplied lib sz inputs.supply) (bumps : BumpsInside c lib threadIndex sz inputs)
    (block : Block c lib p m) (top : sz ≠ -1) (sized : lib.oldSize c.heap p = .ok old)
    (least : old.toNat ≤ m) (short : old < sz)
    (ran : lib.xxmalloc c.heap threadIndex sz inputs = .ok (q, mid))
    (freed : (mid.memcpy q p old.toNat).xxfree c.heap threadIndex p = .ok lib') :
    Preserved c lib p sz q lib' := by
  obtain ⟨pool₁, entries₁, move, between⟩ := held.xxmalloc thread supplied ran
  have inside₁ := inside.malloc held.small bumps move
  have copied : Consistent c (mid.memcpy q p old.toNat) pool₁ entries₁ := between.withMem _
  obtain ⟨pool₂, entries₂, release, after⟩ := copied.xxfree thread freed
  have grown (r n : ℕ) : Block c (mid.memcpy q p old.toNat) r n ↔
      Block c lib r n ∨ r = q ∧ n = c.usableSize sz := by
    rw [← move.block_iff held between own supplied.objStatus, copied.block_iff, between.block_iff]
    rfl
  have atBlock := release.at_block copied inside₁ ((grown p m).mpr (.inl block))
  have inside₂ := inside₁.free release
  have shrunk (r n : ℕ) : Block c lib' r n ↔
      (Block c lib r n ∨ r = q ∧ n = c.usableSize sz) ∧ r ≠ p := by
    simp only [atBlock.block_iff copied after inside₁, grown]
  have fresh {n : ℕ} : ¬Block c lib q n := move.fresh held between own inside₁
  have moved : q ≠ p := by
    rintro rfl
    exact fresh block
  have fits : sz.toNat ≤ c.usableSize sz :=
    Config.size_le_usableSize_iff.mpr fun both => top both.2
  have newBlock : Block c lib' q (c.usableSize sz) := (shrunk _ _).mpr ⟨.inr ⟨rfl, rfl⟩, moved⟩
  -- a byte of an old block is written neither by the allocation, nor by the copy, nor by the free
  have size : old.toNat < c.usableSize sz := Nat.lt_of_lt_of_le (BitVec.lt_def.mp short) fits
  have allocated {r n i : ℕ} (old : Block c lib r n) (below : i < n) :
      mid.small.mem (r + i) = lib.small.mem (r + i) :=
    move.contents held between own inside₁ thread supplied.objStatus old below
  have ownsNew {i : ℕ} (below : i < c.usableSize sz) :
      Owns c (mid.memcpy q p old.toNat) q (q + i) :=
    ((grown _ _).mpr (.inr ⟨rfl, rfl⟩)).owns (Nat.le_add_right ..) (Nat.add_lt_add_left below q)
  have released {r a : ℕ} (owns : Owns c (mid.memcpy q p old.toNat) r a) (other : r ≠ p) :
      lib'.small.mem a = (mid.memcpy q p old.toNat).small.mem a :=
    atBlock.frame copied fun atOld => other (copied.owns_unique inside₁ owns atOld)
  refine ⟨⟨_, newBlock, fits, fun i below => ?_⟩, ⟨old, sized, fun i below => ?_⟩, ?_, ?_⟩
  · exact after.owns_mapped inside₂
      (newBlock.owns (Nat.le_add_right ..) (Nat.add_lt_add_left below q))
  · have first := Nat.lt_of_lt_of_le below (Nat.min_le_left ..)
    rw [released (ownsNew (first.trans size)) moved, memcpy_inside first,
      allocated block (Nat.lt_of_lt_of_le first least)]
  · refine iff_of_false ?_ moved
    rintro ⟨n, still⟩
    exact ((shrunk p n).mp still).2 rfl
  · intro r n other different
    refine ⟨(shrunk r n).mpr ⟨.inl other, different⟩, fun i below => ?_⟩
    have owns : Owns c (mid.memcpy q p old.toNat) r (r + i) :=
      ((grown r n).mpr (.inl other)).owns (Nat.le_add_right ..) (Nat.add_lt_add_left below r)
    rw [released owns different, memcpy_outside, allocated other below]
    rintro ⟨lower, upper⟩
    have within : r + i - q < c.usableSize sz := by omega
    have also := ownsNew within
    rw [Nat.add_sub_cancel' lower] at also
    obtain rfl := copied.owns_unique inside₁ owns also
    exact fresh other

end FreeGuard.Soundness.ReallocContents
