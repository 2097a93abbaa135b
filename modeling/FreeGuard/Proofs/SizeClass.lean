import FreeGuard.Model.SmallHeap
import FreeGuard.Proofs.Layout

/-! # Size classes

A request that `xxmalloc` routes to the small heap gets a usable bag whose class holds it and its
canary. Adding the canary wraps, so the largest request of all is taken for an empty one.
-/

namespace FreeGuard.Model

variable {c : Config} {b : ℕ} {size : size_t}

/-- A request with its canary, in the wrapping arithmetic of `size_t`. -/
def Build.padded (build : Build) (size : size_t) : size_t :=
  if build.canary then size + 1 else size

/-- The bytes that the canary takes at the end of an object. -/
def Build.canaryBytes (build : Build) : ℕ := if build.canary then 1 else 0

namespace Config

/-- The bag number that `allocateSmallObject` computes for a request. -/
def bagNumOf (c : Config) (size : size_t) : ℕ := c.heap.getBagNum (classSizeOf c.build size)

theorem condition_iff (build : Build) (size : size_t) :
    build.IF_CANARY_CONDITION size = false ↔ (build.padded size).toNat ≤ build.LARGE_OBJECT_THRESHOLD := by
  rw [Build.IF_CANARY_CONDITION, Build.padded]
  split <;> simp

theorem getBagNum_classSize (b : ℕ) : c.heap.getBagNum (classSize b) = b := by
  rw [BibopHeap.getBagNum, heap_firstBagPower, classSize, LOG2, Nat.log2_two_pow,
    Nat.add_sub_cancel]

theorem bagNumOf_eq {size : size_t} {b : ℕ} (computed : classSizeOf c.build size = classSize b) :
    c.bagNumOf size = b := by
  simp only [bagNumOf, computed, getBagNum_classSize]

/-- The class of a request that fits the largest class. -/
theorem exists_class {padded : size_t} (small : padded.toNat ≤ 2 ^ (c.usable + 3)) :
    ∃ b < c.usable, (if padded.toNat ≤ BIBOP_MIN_BLOCK_SIZE then BIBOP_MIN_BLOCK_SIZE
      else (1 <<< 32) >>> builtin_clz (padded - 1)) = classSize b ∧ padded.toNat ≤ classSize b := by
  have most := c.usable_le
  by_cases least : padded.toNat ≤ BIBOP_MIN_BLOCK_SIZE
  · exact ⟨0, c.usable_pos, if_pos least, least⟩
  · rw [if_neg least]
    change ¬padded.toNat ≤ 16 at least
    have limit : 2 ^ (c.usable + 3) ≤ 2 ^ 22 := Nat.pow_le_pow_right (by decide) (by omega)
    have pred : (padded - 1).toNat = padded.toNat - 1 := by
      rw [BitVec.toNat_sub_of_le (BitVec.le_def.mpr (by change 1 ≤ _; omega))]
      rfl
    have low : ((padded - 1).setWidth 32).toNat = padded.toNat - 1 := by
      rw [BitVec.toNat_setWidth, pred, Nat.mod_eq_of_lt (by omega)]
    generalize bits : Nat.size (padded.toNat - 1) = n
    have above : padded.toNat - 1 < 2 ^ n := bits ▸ Nat.lt_size_self _
    have lower : 5 ≤ n := by
      rw [← bits]
      exact Nat.lt_size.mpr (by change 16 ≤ _; omega)
    have upper : n ≤ c.usable + 3 := by
      rw [← bits]
      exact Nat.size_le.mpr (by omega)
    refine ⟨n - 4, by omega, ?_, ?_⟩
    · rw [builtin_clz, low, bits, Nat.one_shiftLeft, Nat.shiftRight_eq_div_pow,
        Nat.pow_div (by omega) (by decide), classSize]
      congr 1
      omega
    · rw [classSize, show n - 4 + 4 = n by omega]
      omega

variable (routed : c.build.IF_CANARY_CONDITION size = false)
include routed

/-- A request for the small heap gets a usable bag, whose class holds it with its canary. -/
theorem bagNumOf_spec : c.bagNumOf size < c.usable ∧
    classSizeOf c.build size = classSize (c.bagNumOf size) ∧
    (c.build.padded size).toNat ≤ classSize (c.bagNumOf size) := by
  have small := (condition_iff c.build size).mp routed
  rw [threshold_eq] at small
  obtain ⟨b, usable, same, holds⟩ := exists_class small
  have computed : classSizeOf c.build size = classSize b := same
  rw [bagNumOf_eq computed]
  exact ⟨usable, computed, holds⟩

theorem bagNumOf_lt : c.bagNumOf size < c.usable := (bagNumOf_spec routed).1

omit routed

/-- A request for the big heap is larger than an object of any usable bag. -/
theorem class_lt_of_condition (usable : b < c.usable) (large : c.build.IF_CANARY_CONDITION size = true) :
    classSize b - c.build.canaryBytes < size.toNat := by
  have fits : classSize b ≤ c.build.LARGE_OBJECT_THRESHOLD := by
    rw [threshold_eq]
    exact Nat.pow_le_pow_right (by decide) (by omega)
  have positive := classSize_pos b
  rw [Build.IF_CANARY_CONDITION] at large
  rw [Build.canaryBytes]
  split at large
  · rename_i canary
    have above := of_decide_eq_true large
    rw [BitVec.toNat_add, show (1 : size_t).toNat = 1 from rfl] at above
    rw [if_pos canary]
    omega
  · rename_i plain
    have above := of_decide_eq_true large
    rw [if_neg plain]
    omega

/-- The bytes that an allocation has for its caller: those of its class but the canary, or those up to
the end of its mapping. -/
def usableSize (c : Config) (size : size_t) : ℕ :=
  if c.build.IF_CANARY_CONDITION size then size.toNat
  else classSize (c.bagNumOf size) - c.build.canaryBytes

/-- A block is small or has the bytes of its request. -/
theorem usableSize_cases (c : Config) (request : size_t) :
    c.usableSize request ≤ 2 ^ 22 ∨ c.usableSize request = request.toNat := by
  rw [usableSize]
  split
  · exact .inr rfl
  · rename_i routed
    have number := bagNumOf_lt (c := c) (Bool.eq_false_iff.mpr routed)
    have most := c.usable_le
    have small : classSize (c.bagNumOf request) ≤ 2 ^ 22 :=
      Nat.pow_le_pow_right (by decide) (by omega)
    exact .inl ((Nat.sub_le ..).trans small)

/-- Every request but the one that the canary wraps gets the bytes it asks for. -/
theorem size_le_usableSize_iff :
    size.toNat ≤ c.usableSize size ↔ ¬(c.build.canary = true ∧ size = -1) := by
  have bound := size.isLt
  cases routed : c.build.IF_CANARY_CONDITION size with
  | true =>
    rw [usableSize, routed, if_pos rfl]
    apply iff_of_true le_rfl
    rintro ⟨canary, rfl⟩
    rw [Build.IF_CANARY_CONDITION, canary, if_pos rfl] at routed
    exact absurd (of_decide_eq_true routed) (Nat.not_lt_zero _)
  | false =>
    obtain ⟨usable, -, holds⟩ := bagNumOf_spec routed
    have large : classSize (c.bagNumOf size) ≤ 2 ^ 22 := by
      have most := c.usable_le
      exact Nat.pow_le_pow_right (by decide) (by omega)
    rw [usableSize, routed, if_neg Bool.false_ne_true, Build.canaryBytes]
    rw [Build.padded] at holds
    cases canary : c.build.canary with
    | false =>
      rw [canary, if_neg Bool.false_ne_true] at holds
      simpa using holds
    | true =>
      rw [canary, if_pos rfl] at holds
      simp only [if_true, true_and]
      rcases eq_or_ne size (-1) with rfl | wraps
      · refine iff_of_false ?_ (not_not.mpr rfl)
        have top : (-1 : size_t).toNat = 2 ^ 64 - 1 := rfl
        omega
      · refine iff_of_true ?_ wraps
        have below : size.toNat ≠ 2 ^ 64 - 1 := fun same => wraps (BitVec.eq_of_toNat_eq same)
        have sum : (size + 1).toNat = size.toNat + 1 := by
          rw [BitVec.toNat_add, show (1 : size_t).toNat = 1 from rfl]
          omega
        omega

end Config

end FreeGuard.Model
