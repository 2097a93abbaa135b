import FreeGuard.Model.Sse2rng
import FreeGuard.ToMathlib.Congruential

/-! # The four generators of `rand_sse`

One call multiplies and adds in every lane on its own, modulo `2 ^ 32`, and gives of every lane the bits
from 16 up to 31.
-/

namespace FreeGuard.Model

namespace M128i

@[simp] theorem lane_map (f : BitVec 32 → BitVec 32) (a : M128i) (i : ℕ) :
    (a.map f).lane i = f (a.lane i) := by
  rcases i with _ | _ | _ | i <;> rfl

@[simp] theorem lane_zip (f : BitVec 32 → BitVec 32 → BitVec 32) (a b : M128i) (i : ℕ) :
    (a.zip f b).lane i = f (a.lane i) (b.lane i) := by
  rcases i with _ | _ | _ | i <;> rfl

theorem lane_ext {a b : M128i} (lanes : ∀ i, a.lane i = b.lane i) : a = b :=
  M128i.ext (lanes 0) (lanes 1) (lanes 2) (lanes 3)

/-- The low halves of the products of the even lanes, and of the odd lanes shuffled there and back, are
the products of all four lanes. -/
theorem mul_split (a b : M128i) :
    _mm_or_si128 (_mm_and_si128 (_mm_mul_epu32 a b) ⟨0xFFFFFFFF, 0, 0xFFFFFFFF, 0⟩)
      (_mm_shuffle_epi32 (_mm_and_si128
        (_mm_mul_epu32 (_mm_shuffle_epi32 a (_MM_SHUFFLE 2 3 0 1))
          (_mm_shuffle_epi32 b (_MM_SHUFFLE 2 3 0 1)))
        ⟨0xFFFFFFFF, 0, 0xFFFFFFFF, 0⟩) (_MM_SHUFFLE 2 3 0 1)) =
      a.zip (· * ·) b := by
  have ones (x : BitVec 32) : x &&& 0xFFFFFFFF#32 = x := BitVec.and_allOnes
  have low (x y : BitVec 32) : (x.setWidth 64 * y.setWidth 64).setWidth 32 = x * y := by
    rw [BitVec.setWidth_mul _ _ (by decide), BitVec.setWidth_setWidth_of_le _ (by decide),
      BitVec.setWidth_setWidth_of_le _ (by decide), BitVec.setWidth_eq, BitVec.setWidth_eq]
  simp [_mm_or_si128, _mm_and_si128, _mm_mul_epu32, _mm_shuffle_epi32, _MM_SHUFFLE, zip, lane, low, ones]

end M128i

/-- The seed that a call leaves. -/
theorem rand_sse_seed (s : M128i) :
    (rand_sse s).2 = (s.zip (· * ·) ⟨214013, 17405, 214013, 69069⟩).zip (· + ·)
      ⟨2531011, 10395331, 13737667, 1⟩ := by
  rw [← M128i.mul_split]
  rfl

/-- The results of a call are made of the seed that it leaves. -/
theorem rand_sse_results (s : M128i) :
    (rand_sse s).1 = (rand_sse s).2.map fun x => x.sshiftRight 16 &&& 0x00007FFF := rfl

/-- The sign does not reach the bits that the mask keeps. -/
theorem toNat_result (x : BitVec 32) :
    (x.sshiftRight 16 &&& 0x00007FFF).toNat = x.toNat / 2 ^ 16 % 2 ^ 15 := by
  have mask : (0x00007FFF : BitVec 32).toNat = 2 ^ 15 - 1 := rfl
  apply Nat.eq_of_testBit_eq
  intro i
  rw [BitVec.toNat_and, Nat.testBit_and, mask, Nat.testBit_two_pow_sub_one, Nat.testBit_mod_two_pow,
    Nat.testBit_div_two_pow, BitVec.testBit_toNat, BitVec.testBit_toNat, BitVec.getLsbD_sshiftRight]
  rcases Nat.lt_or_ge i 15 with kept | masked
  · have inside : 16 + i < 32 := by omega
    have width : ¬32 ≤ i := by omega
    rw [if_pos inside, Nat.add_comm 16 i]
    simp [kept, width]
  · have out : ¬i < 15 := by omega
    simp [out]

theorem toNat_step (a c x : BitVec 32) :
    (x * a + c).toNat = Congruential.reduced a.toNat c.toNat 32 x.toNat := by
  rw [BitVec.toNat_add, BitVec.toNat_mul, Nat.mod_add_mod, Nat.mul_comm]
  rfl

end FreeGuard.Model
