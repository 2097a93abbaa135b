import FreeGuard.Proofs.Slots

/-! # Addresses and shadow entries

Every object slot of the heap has a shadow entry that both decoders find from its address, that the
encoder takes back to the address, and that overlaps the entry of no other slot.
-/

namespace FreeGuard.Soundness.ShadowBijection

open Model

/-- A thread, a usable bag and an index below the object count of that thread's bag. -/
def IsSlot (heap : BibopHeap) (t b i : ℕ) : Prop :=
  t < MAX_ALIVE_THREADS ∧ b < heap._numUsableBags ∧ i < (heap._threadBag (t, b)).numObjects

/-- The address of a slot, in the fields of the heap. -/
def slotAddr (heap : BibopHeap) (h t b i : ℕ) : ℕ :=
  heap._heapBegin + h * heap.BIBOP_HEAP_SIZE + (heap._threadBag (t, b)).startOffset +
    i * (heap._threadBag (t, b)).classSize

/-- The fields of the heap describe exactly the slots. -/
theorem exists_slot {c : Config} {t b i : ℕ} (slot : IsSlot c.heap t b i) (h : ℕ) :
    ∃ x : Slot c, x.heap = h ∧ x.thread = t ∧ x.bag = b ∧ x.index = i ∧
      x.addr = slotAddr c.heap h t b i := by
  obtain ⟨thread, usable, index⟩ := slot
  rw [Config.heap_numUsableBags] at usable
  rw [Config.heap_threadBag thread usable] at index
  refine ⟨⟨h, t, b, i, thread, usable, index⟩, rfl, rfl, rfl, rfl, ?_⟩
  rw [slotAddr, Config.heap_threadBag thread usable, Config.heap_heapBegin, Config.heap_heapSize]
  rfl

/-- Every configuration has the first slot of the first thread. -/
theorem isSlot_first (c : Config) : IsSlot c.heap 0 0 0 := by
  have thread : 0 < MAX_ALIVE_THREADS := by decide
  refine ⟨thread, by rw [Config.heap_numUsableBags]; exact c.usable_pos, ?_⟩
  rw [Config.heap_threadBag thread c.usable_pos]
  exact c.numObjects_pos 0

/-- Every slot is decoded to its own bag, item and entry, encoding returns its address, and its entry
lies apart from the entry of every other slot. -/
theorem address_shadow_bijection (c : Config) {h t b i : ℕ} (slot : IsSlot c.heap t b i) :
    c.heap.getShadowObjectInfo (slotAddr c.heap h t b i) =
        .ok ((t, b), h &&& c.build.BIBOP_BAG_SET_MASK,
          c.heap.getShadowObjectInfoIn (slotAddr c.heap h t b i) (t, b)) ∧
      c.heap.getAddrFromShadowInfo
        (c.heap.getShadowObjectInfoIn (slotAddr c.heap h t b i) (t, b)) (t, b) =
          slotAddr c.heap h t b i ∧
      ∀ h' t' b' i', IsSlot c.heap t' b' i' → (h', t', b', i') ≠ (h, t, b, i) →
        c.heap.getShadowObjectInfoIn (slotAddr c.heap h t b i) (t, b) +
            c.heap._shadowObjectInfoSize ≤
          c.heap.getShadowObjectInfoIn (slotAddr c.heap h' t' b' i') (t', b') ∨
        c.heap.getShadowObjectInfoIn (slotAddr c.heap h' t' b' i') (t', b') +
            c.heap._shadowObjectInfoSize ≤
          c.heap.getShadowObjectInfoIn (slotAddr c.heap h t b i) (t, b) := by
  obtain ⟨x, rfl, rfl, rfl, rfl, addr⟩ := exists_slot slot h
  have mask : x.heap &&& c.build.BIBOP_BAG_SET_MASK = x.heap % c.items := by
    rw [Build.BIBOP_BAG_SET_MASK, Build.BIBOP_BAG_SET_SIZE, Nat.and_two_pow_sub_one_eq_mod]
    rfl
  rw [← addr, x.getShadowObjectInfoIn_addr, mask]
  refine ⟨x.getShadowObjectInfo_addr, x.getAddrFromShadowInfo_entry, ?_⟩
  intro h' t' b' i' other different
  obtain ⟨y, rfl, rfl, rfl, rfl, addr'⟩ := exists_slot other h'
  rw [← addr', y.getShadowObjectInfoIn_addr, Config.heap_shadowObjectInfoSize]
  refine c.entryAt_apart x.rank_fits y.rank_fits fun same => different ?_
  obtain ⟨heap, rank⟩ := Prod.mk.inj same
  rw [Slot.eq_of_rank heap rank]

/-- The first slot of heap 1023 in the default build. -/
theorem first_slot_bijection :
    Config.makefile.heap.getAddrFromShadowInfo (Config.makefile.heap.getShadowObjectInfoIn
      (slotAddr Config.makefile.heap 1023 0 0 0) (0, 0)) (0, 0) =
        slotAddr Config.makefile.heap 1023 0 0 0 :=
  (address_shadow_bijection Config.makefile (isSlot_first _)).2.1

end FreeGuard.Soundness.ShadowBijection
