import FreeGuard.Proofs.LibRun

/-! # A sufficient block for every request

`xxmalloc` tests a request against the threshold, adds the canary, takes a class and rounds up to pages,
all modulo `2 ^ 64`. The block that it returns holds the request except in one case: in a build with
canaries the largest request of all wraps to an empty one and gets an object of the first class.
-/

namespace FreeGuard.Soundness.SufficientBlock

open Machine Model

variable {c : Config} {threadIndex p : ℕ} {size : size_t} {inputs : Inputs} {lib lib' : LibFreeGuard}

/-- The bytes of a request lie in the one block reserved for it: in the object of a usable bag of the
calling thread, short of its canary, or in the mapping. -/
def Sufficient (c : Config) (threadIndex : ℕ) (size : size_t) (inputs : Inputs) (p : ℕ)
    (lib' : LibFreeGuard) : Prop :=
  if c.build.IF_CANARY_CONDITION size then
    ∃ ptr, inputs.supply.mmap = some ptr ∧ ptr ≤ p ∧
      p + size.toNat ≤ ptr + (BigHeap.pageUpSize size).toNat
  else
    ∃ x : Slot c, x.addr = p ∧ x.Live lib'.small ∧ x.heap < BIBOP_NUM_HEAPS ∧
      x.thread = threadIndex ∧ x.bag < c.heap._numUsableBags ∧
      p + size.toNat + c.build.canaryBytes ≤ x.addr + classSize x.bag

/-- The object that an allocation takes has the bytes of its class, the mapping those of its pages. -/
theorem sufficient_iff {pool pool' : Pool c} {entries entries' : Entries}
    (held : Consistent c lib pool entries) (after : Consistent c lib' pool' entries') (own : Own pool)
    (inside : HeldInside pool')
    (move : Malloced c threadIndex size inputs lib pool entries p lib' pool' entries') :
    Sufficient c threadIndex size inputs p lib' ↔ size.toNat ≤ c.usableSize size := by
  rw [Sufficient, Config.usableSize]
  cases routed : c.build.IF_CANARY_CONDITION size with
  | true =>
    cases move with
    | small small => cases routed.symm.trans small
    | @large ptr _ _ _ _ promise made =>
      obtain ⟨first, last⟩ := made.placed promise.some
      exact iff_of_true ⟨ptr, made.result, first, last.le⟩ le_rfl
  | false =>
    obtain ⟨x, rfl, -, live, bag⟩ := move.slot own held routed
    have member : x ∈ pool'.live := live ▸ Set.mem_insert ..
    have canary : c.build.canaryBytes ≤ classSize (c.bagNumOf size) := by
      have positive := classSize_pos (c.bagNumOf size)
      rw [Build.canaryBytes]
      split <;> omega
    obtain ⟨thread, number⟩ := Prod.mk.inj bag
    simp only [Bool.false_eq_true, if_false]
    constructor
    · rintro ⟨y, same, -, -, -, -, fits⟩
      obtain rfl := Slot.addr_inj same
      rw [number] at fits
      omega
    · intro enough
      refine ⟨x, rfl, after.small.live_iff.mp member, inside x (.inl member), thread, ?_, ?_⟩
      · rw [Config.heap_numUsableBags]
        exact x.bag_lt
      · rw [number]
        omega

end FreeGuard.Soundness.SufficientBlock
