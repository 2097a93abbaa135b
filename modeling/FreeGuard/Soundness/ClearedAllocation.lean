import FreeGuard.Proofs.Allocation
import FreeGuard.Proofs.LibRun

/-! # Cleared allocations

`xxcalloc` multiplies its arguments in `size_t` and clears as many bytes as it has asked for. The array
is covered, and nothing outside it touched, exactly when neither the product nor the canary that is added
to it wraps.
-/

namespace FreeGuard.Soundness.ClearedAllocation

open Machine Model

variable {c : Config} {lib lib' : LibFreeGuard} {threadIndex p : ℕ} {nelem elsize : size_t}
  {inputs : Inputs}

/-- The block has the bytes of the whole array, all of them zero; clearing it has changed no other byte,
and the canary of no object. -/
structure ClearedArray (c : Config) (threadIndex : ℕ) (nelem elsize : size_t) (inputs : Inputs)
    (lib : LibFreeGuard) (p : ℕ) (lib' : LibFreeGuard) : Prop where
  enough : nelem.toNat * elsize.toNat ≤ c.usableSize (nelem * elsize)
  zero : ∀ a, p ≤ a → a < p + nelem.toNat * elsize.toNat → lib'.small.mem a = 0
  kept : ∃ mid, lib.xxmalloc c.heap threadIndex (nelem * elsize) inputs = .ok (p, mid) ∧
    (∀ a, ¬(p ≤ a ∧ a < p + nelem.toNat * elsize.toNat) → lib'.small.mem a = mid.small.mem a) ∧
    (c.build.canary = true → ∀ x : Slot c, x.heap < BIBOP_NUM_HEAPS →
      lib'.small.mem x.canary = mid.small.mem x.canary)

/-- The bytes of an array fit exactly when nothing wraps. -/
theorem fits_iff : nelem.toNat * elsize.toNat ≤ c.usableSize (nelem * elsize) ↔
    nelem.toNat * elsize.toNat < 2 ^ 64 ∧ ¬(c.build.canary = true ∧ nelem * elsize = -1) := by
  have product : (nelem * elsize).toNat = nelem.toNat * elsize.toNat % 2 ^ 64 :=
    BitVec.toNat_mul ..
  have bound := (nelem * elsize).isLt
  rw [← Config.size_le_usableSize_iff]
  constructor
  · intro fits
    have whole : nelem.toNat * elsize.toNat < 2 ^ 64 := by
      rcases c.usableSize_cases (nelem * elsize) with small | same
      · omega
      · omega
    rw [Nat.mod_eq_of_lt whole] at product
    exact ⟨whole, product ▸ fits⟩
  · rintro ⟨whole, fits⟩
    rw [Nat.mod_eq_of_lt whole] at product
    exact product ▸ fits

end FreeGuard.Soundness.ClearedAllocation
