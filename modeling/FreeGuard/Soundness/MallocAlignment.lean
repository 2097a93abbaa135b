import FreeGuard.Proofs.LibRun

/-! # The alignment of allocations

Objects of the small heap start at a multiple of their class size, whichever list or bump pointer they
come from. An object of the big heap ends with the last page of its mapping, so it is aligned exactly as
its size is.
-/

namespace FreeGuard.Soundness.MallocAlignment

open Machine Model

variable {c : Config} {threadIndex p : ℕ} {size : size_t} {inputs : Inputs} {lib' : LibFreeGuard}

/-- In every state that a run reaches, the pointer of an allocation is a multiple of the smallest class
exactly when the request goes to the small heap or is itself such a multiple. -/
theorem malloc_aligned_iff (c : Config) {s t : LibSystem} {events : List LibEvent}
    (booted : Booted c s.lib) (run : Run (LibStep c.heap) s events t)
    (thread : threadIndex < MAX_ALIVE_THREADS) (supplied : Supplied t.lib size inputs.supply)
    (ok : t.lib.xxmalloc c.heap threadIndex size inputs = .ok (p, lib')) :
    BIBOP_MIN_BLOCK_SIZE ∣ p ↔
      c.build.IF_CANARY_CONDITION size = false ∨ BIBOP_MIN_BLOCK_SIZE ∣ size.toNat := by
  obtain ⟨pool, entries, held⟩ := exists_consistent booted run
  obtain ⟨pool', entries', move, -⟩ := held.xxmalloc thread supplied ok
  cases routed : c.build.IF_CANARY_CONDITION size with
  | false =>
    obtain ⟨x, -, i, -, rfl⟩ := move.block routed
    exact iff_of_true (Config.block_aligned ..) (.inl rfl)
  | true =>
    cases move with
    | small small => cases routed.symm.trans small
    | @large ptr _ _ _ _ promise made =>
      obtain ⟨-, last⟩ := made.placed promise.some
      have page : BIBOP_MIN_BLOCK_SIZE ∣ PageSize := by decide
      have sum : BIBOP_MIN_BLOCK_SIZE ∣ p + size.toNat := by
        rw [last]
        exact Nat.dvd_add (page.trans promise.aligned) (page.trans (BigHeap.pageUpSize_dvd size))
      simp only [Bool.true_eq_false, false_or]
      constructor
      · exact fun own => (Nat.dvd_add_right own).mp sum
      · exact fun own => (Nat.dvd_add_left own).mp sum

/-- The first request of 15 bytes in the default build is aligned. -/
theorem first_block_aligned :
    BIBOP_MIN_BLOCK_SIZE ∣
      (Config.makefile.heap.allocateSmallObject 0 15 plainInputs.draws Config.makefile.start).1 :=
  (malloc_aligned_iff Config.makefile Config.makefile.booted (.nil Config.makefile.library) (by decide)
    (supplied_plain _ _) (xxmalloc_small _ _ _ (by decide))).mpr (.inl (by decide))

/-- In the default build a request of one byte more than the threshold is odd. -/
theorem odd_large_object : ∃ lib',
    Supplied Config.makefile.boot 0x400001 mappedInputs.supply ∧
    Config.makefile.boot.xxmalloc Config.makefile.heap 0 0x400001 mappedInputs =
      .ok (0x300000000fff, lib') ∧ ¬BIBOP_MIN_BLOCK_SIZE ∣ 0x300000000fff := by
  have diff : 0x300000000000 + (BigHeap.pageUpSize 0x400001 - 0x400001).toNat = 0x300000000fff := by
    decide
  have routed : Config.makefile.build.IF_CANARY_CONDITION 0x400001 = true := by decide
  have result : mappedInputs.supply.mmap = some 0x300000000000 := rfl
  obtain ⟨big, mapped, ok⟩ := xxmalloc_large Config.makefile.boot 0 routed result
  rw [diff] at ok
  exact ⟨_, supplied_mapped _ (by decide) (by decide), ok, by decide⟩

end FreeGuard.Soundness.MallocAlignment
