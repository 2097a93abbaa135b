import FreeGuard.Soundness.ShadowBijection

/-! # The shadow mapping is too short

Shadow entries are indexed with the rounded shadow size of a heap, but the mapping has the exact size
of every heap. The entries of the last heaps therefore lie past its end. An entry is inside exactly
when the ranks of its place, counted with the rounded size, are below the number of objects.
-/

namespace FreeGuard.Soundness.ShadowBounds

open Model ShadowBijection

variable {c : Config}

/-- The entry of a slot is inside the shadow mapping exactly when its rank, counted from the first heap
with the rounded size of a heap, is below the number of all objects. -/
theorem entry_in_mapping_iff (c : Config) {h t b i : ℕ} (heap : h < BIBOP_NUM_HEAPS)
    (slot : IsSlot c.heap t b i) :
    (c.heap._shadowMemBegin ≤ c.heap.getShadowObjectInfoIn (slotAddr c.heap h t b i) (t, b) ∧
      c.heap.getShadowObjectInfoIn (slotAddr c.heap h t b i) (t, b) +
        c.heap._shadowObjectInfoSize ≤ c.heap._shadowMemEnd) ↔
    h * (MAX_ALIVE_THREADS * 2 ^ (c.bagPower - 3)) +
        (t * c.objectsPerThread + (c.objectsBefore b + i)) + 1 ≤
      BIBOP_NUM_HEAPS * (MAX_ALIVE_THREADS * c.objectsPerThread) := by
  obtain ⟨x, rfl, rfl, rfl, rfl, addr⟩ := exists_slot slot h
  rw [← addr, x.getShadowObjectInfoIn_addr, Slot.entry, Config.entryAt, Config.ceil_eq,
    Config.heap_shadowMemBegin, Config.heap_shadowMemEnd, Config.heap_shadowObjectInfoSize]
  change _ ↔ x.heap * _ + x.rank + 1 ≤ _
  generalize MAX_ALIVE_THREADS * 2 ^ (c.bagPower - 3) = rounded
  generalize MAX_ALIVE_THREADS * c.objectsPerThread = exact
  calc
    _ ↔ x.heap * (rounded * c.infoSize) + x.rank * c.infoSize + c.infoSize ≤
        BIBOP_NUM_HEAPS * (exact * c.infoSize) := by omega
    _ ↔ (x.heap * rounded + x.rank + 1) * c.infoSize ≤ BIBOP_NUM_HEAPS * exact * c.infoSize := by
      simp only [Nat.add_mul, Nat.one_mul, Nat.mul_assoc]
    _ ↔ _ := Nat.mul_le_mul_right_iff c.infoSize_pos

/-- The first slot of the first heap is covered. -/
theorem first_entry_covered :
    (Config.makefile.heap._shadowMemBegin ≤ Config.makefile.heap.getShadowObjectInfoIn
        (slotAddr Config.makefile.heap 0 0 0 0) (0, 0) ∧
      Config.makefile.heap.getShadowObjectInfoIn (slotAddr Config.makefile.heap 0 0 0 0) (0, 0) +
        Config.makefile.heap._shadowObjectInfoSize ≤ Config.makefile.heap._shadowMemEnd) ↔
    0 * (MAX_ALIVE_THREADS * 2 ^ (Config.makefile.bagPower - 3)) +
        (0 * Config.makefile.objectsPerThread + (Config.makefile.objectsBefore 0 + 0)) + 1 ≤
      BIBOP_NUM_HEAPS * (MAX_ALIVE_THREADS * Config.makefile.objectsPerThread) :=
  entry_in_mapping_iff Config.makefile (by decide) (isSlot_first Config.makefile)

/-- In the default build the first entry of heap 1023 lies past the end of the mapping. -/
theorem last_heap_uncovered :
    IsSlot Config.makefile.heap 0 0 0 ∧
    Config.makefile.heap._shadowMemEnd < Config.makefile.heap.getShadowObjectInfoIn
      (slotAddr Config.makefile.heap 1023 0 0 0) (0, 0) := by
  refine ⟨isSlot_first _, ?_⟩
  obtain ⟨x, heap, thread, bag, index, addr⟩ := exists_slot (isSlot_first Config.makefile) 1023
  have rank : x.rank = 0 := by
    rw [Slot.rank, thread, bag, index]
    rfl
  have entry := x.getShadowObjectInfoIn_addr
  rw [thread, bag] at entry
  rw [← addr, entry, Slot.entry, rank, heap, Config.entryAt, Config.ceil_eq, Config.heap_shadowMemEnd]
  decide +kernel

end FreeGuard.Soundness.ShadowBounds
