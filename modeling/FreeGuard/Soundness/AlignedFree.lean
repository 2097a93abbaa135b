import FreeGuard.Proofs.BlockMoves

/-! # Freeing aligned blocks

`xxfree` finds a block from the address where it starts. The address that `xxmemalign` returns is that of
the inner object when this is already aligned, and then the block is released; every other address fails
the class check, is not known to the map, or leads to something else.
-/

namespace FreeGuard.Soundness.AlignedFree

open Machine Model

variable {c : Config} {lib mid lib' : LibFreeGuard} {pool pool' : Pool c} {entries entries' : Entries}
  {threadIndex releaser p q n object : ℕ} {alignment size : size_t} {inputs : Inputs}

/-- The block at `object` is released, and no other: a small one waits in a list of its bag, the region
of a large one is unmapped. -/
structure Releases (c : Config) (mid : LibFreeGuard) (object : ℕ) (lib' : LibFreeGuard) : Prop where
  blocks : ∀ r n, Block c lib' r n ↔ Block c mid r n ∧ r ≠ object
  small : ∀ x : Slot c, x.addr = object → x.Live mid.small → Waits lib'.small x.bagRef x.entry
  large : ∀ st, mid.big._xmap.find object sizeofPointer = some st →
    lib'.mapped = mid.mapped.unmap (mid.big.status st).region.start (mid.big.status st).region.length

/-- Freeing the result releases exactly the block of the inner allocation. -/
def FreesInner (c : Config) (threadIndex releaser : ℕ) (alignment size : size_t) (inputs : Inputs)
    (lib : LibFreeGuard) (q : ℕ) (mid : LibFreeGuard) : Prop :=
  ∃ object last, lib.xxmalloc c.heap threadIndex (alignment + size) inputs = .ok (object, mid) ∧
    mid.xxfree c.heap releaser q = .ok last ∧ Releases c mid object last

/-! ## At the object -/

/-- A deallocation at the heap of a block releases it. -/
theorem releases_of_freed (held : Consistent c mid pool entries)
    (after : Consistent c lib' pool' entries') (inside : HeldInside pool)
    (freed : FreedBlock c releaser object mid lib' pool pool' entries entries') :
    Releases c mid object lib' := by
  refine ⟨fun r n => freed.block_iff held after inside, ?_, ?_⟩
  · rintro y rfl mark
    cases freed with
    | small x place live ran same released kept =>
      obtain rfl := Slot.addr_inj place
      obtain ⟨guards, -⟩ := held.small.freeSmallObject x.heapBegin_le ran
      have position := (freeSmallObject_frame ran).2
      subst same
      exact held.small.waits_of_released after.small live released position guards
    | large freed =>
      have within := inside y (.inl (held.small.live_iff.mpr mark))
      exact absurd rfl (held.large_ne_slot freed.found within)
  · intro st found
    cases freed with
    | small x place live =>
      exact absurd place.symm (held.large_ne_slot found (inside x (.inl live)))
    | large freed same =>
      subst same
      obtain rfl := Option.some.inj (found.symm.trans freed.found)
      exact freed.mapping

/-- Freeing a block that is not at the end of the heap returns, when nothing is broken. -/
theorem xxfree_returns (held : Consistent c mid pool entries) (inside : HeldInside pool)
    (intact : c.build.canary = true → ∀ y : Slot c, ¬y.Broken mid.small) (block : Block c mid object n)
    (placed : object ≠ c.heap._heapEnd) :
    ∃ last, mid.xxfree c.heap releaser object = .ok last := by
  cases block with
  | small x mark =>
    have live := held.small.live_iff.mpr mark
    have isSmall := Slot.isSmallObject_addr (inside x (.inl live))
    obtain ⟨small, -, ok, -⟩ : ∃ small pool', mid.xxfree c.heap releaser x.addr = _ ∧ _ :=
      xxfree_slot held.small isSmall live fun canary y _ => intact canary y
    exact ⟨_, ok⟩
  | @large object st found =>
    have nonnull := held.block_ne_null (.large found)
    have isLarge : mid.big.isLargeObject object = true := by
      rw [BigHeap.isLargeObject, found]
      rfl
    have notSmall : ¬c.heap.isSmallObject object = true := fun isSmall =>
      placed (held.large_at_end found isSmall)
    obtain ⟨big, ok⟩ := @BigHeap.deallocate_found mid.big mid.mapped _ _ found
    rw [LibFreeGuard.xxfree, if_neg nonnull, if_neg notSmall, if_pos isLarge, ok]
    exact ⟨_, rfl⟩

/-! ## Elsewhere -/

/-- Through its own bag only the address of a slot leads to it. -/
theorem addr_of_leadsTo {x : Slot c} (leads : c.LeadsTo q x.bagRef x) : q = x.addr :=
  (leads.encode x.bag_lt).symm.trans x.getAddrFromShadowInfo_entry

/-- Freeing another address does not release a block. -/
theorem not_releases (held : Consistent c mid pool entries) (after : Consistent c lib' pool' entries')
    (inside : HeldInside pool) (block : Block c mid object n)
    (move : Freed c releaser q mid pool entries lib' pool' entries') (other : q ≠ object) :
    ¬Releases c mid object lib' := by
  intro releases
  have gone (n : ℕ) : ¬Block c lib' object n := fun still => ((releases.blocks _ _).mp still).2 rfl
  cases move with
  | ignored none => exact gone n block
  | large notSmall freed split =>
    have freedBlock : FreedBlock c releaser q mid _ pool pool entries _ :=
      .large freed rfl split rfl rfl
    exact gone n ((freedBlock.block_iff held after inside).mpr ⟨block, other.symm⟩)
  | small isSmall ran step =>
    cases step with
    | @release _ _ _ x' bag _ live leads released guards returned =>
      cases block with
      | large found => exact gone _ (.large found)
      | small x mark =>
        have wasLive := held.small.live_iff.mpr mark
        rcases eq_or_ne x x' with rfl | different
        · -- the entry went to a list of its own bag, so the address was that of the slot
          obtain ⟨list, ofBag, queued⟩ := after.small.waits_iff.mp (releases.small x rfl mark)
          rcases released.queued list x queued with ⟨-, through⟩ | ⟨r, -, old⟩
          · rw [← through, ofBag] at leads
            exact other (addr_of_leadsTo leads)
          · exact held.small.partition.queued_not_live r x old wasLive
        · apply gone _ (.small x (after.small.live_iff.mp _))
          rw [released.live]
          exact ⟨wasLive, different⟩

/-- A block at the end of the heap is not freed there. -/
theorem not_freed_at_end (held : Consistent c mid pool entries) (inside : HeldInside pool)
    (block : Block c mid object n) (last : object = c.heap._heapEnd) :
    ¬Freed c releaser object mid pool entries lib' pool' entries' := by
  intro move
  have isSmall : c.heap.isSmallObject object = true := by
    apply isSmallObject_iff.mpr
    rw [last, Config.heap_heapEnd]
    exact ⟨Nat.le_add_right .., le_rfl⟩
  cases move with
  | ignored none =>
    rcases none with null | ⟨notSmall, -⟩
    · exact held.block_ne_null block null
    · cases isSmall.symm.trans notSmall
  | small _ ran step =>
    cases step with
    | @release _ _ _ x bag _ live leads released guards returned =>
      exact inside.end_not_live (last ▸ leads) live
  | large notSmall => cases isSmall.symm.trans notSmall

end FreeGuard.Soundness.AlignedFree
