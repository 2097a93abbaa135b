import FreeGuard.Model.SmallHeap

/-! # The random numbers of `sse2rng.c`

A vector register is its four lanes of 32 bits, lane 0 the lowest. Every thread has a seed of its own.
`COMPATABILITY` is defined, so what `rand_sse` does after its first `return` is left out.
-/

namespace FreeGuard.Model

/-- `__m128i`. -/
@[ext]
structure M128i where
  lane0 : BitVec 32
  lane1 : BitVec 32
  lane2 : BitVec 32
  lane3 : BitVec 32
deriving DecidableEq, Repr

namespace M128i

def map (f : BitVec 32 → BitVec 32) (a : M128i) : M128i := ⟨f a.lane0, f a.lane1, f a.lane2, f a.lane3⟩

def zip (f : BitVec 32 → BitVec 32 → BitVec 32) (a b : M128i) : M128i :=
  ⟨f a.lane0 b.lane0, f a.lane1 b.lane1, f a.lane2 b.lane2, f a.lane3 b.lane3⟩

def lane (a : M128i) : ℕ → BitVec 32
  | 0 => a.lane0
  | 1 => a.lane1
  | 2 => a.lane2
  | _ => a.lane3

end M128i

def _mm_set_epi32 (e3 e2 e1 e0 : BitVec 32) : M128i := ⟨e0, e1, e2, e3⟩

def _MM_SHUFFLE (z y x w : ℕ) : ℕ := z <<< 6 ||| y <<< 4 ||| x <<< 2 ||| w

def _mm_shuffle_epi32 (a : M128i) (imm : ℕ) : M128i :=
  ⟨a.lane (imm &&& 3), a.lane (imm >>> 2 &&& 3), a.lane (imm >>> 4 &&& 3), a.lane (imm >>> 6 &&& 3)⟩

/-- The products of the even lanes, 64 bits each. -/
def _mm_mul_epu32 (a b : M128i) : M128i :=
  let low := a.lane0.setWidth 64 * b.lane0.setWidth 64
  let high := a.lane2.setWidth 64 * b.lane2.setWidth 64
  ⟨low.setWidth 32, (low >>> 32).setWidth 32, high.setWidth 32, (high >>> 32).setWidth 32⟩

def _mm_and_si128 (a b : M128i) : M128i := a.zip (· &&& ·) b
def _mm_or_si128 (a b : M128i) : M128i := a.zip (· ||| ·) b
def _mm_add_epi32 (a b : M128i) : M128i := a.zip (· + ·) b
def _mm_srai_epi32 (a : M128i) (count : ℕ) : M128i := a.map (·.sshiftRight count)

/-- The seed of a thread after `srand_sse`. -/
def srand_sse (seed : BitVec 32) : M128i := _mm_set_epi32 seed (seed + 1) seed (seed + 1)

/-- The four results, and the seed that they leave. -/
def rand_sse (cur_seed : M128i) : M128i × M128i :=
  let adder : M128i := ⟨2531011, 10395331, 13737667, 1⟩
  let multiplier : M128i := ⟨214013, 17405, 214013, 69069⟩
  let mod_mask : M128i := ⟨0xFFFFFFFF, 0, 0xFFFFFFFF, 0⟩
  let sra_mask : M128i := ⟨0x00007FFF, 0x00007FFF, 0x00007FFF, 0x00007FFF⟩
  let cur_seed_split := _mm_shuffle_epi32 cur_seed (_MM_SHUFFLE 2 3 0 1)
  let cur_seed := _mm_mul_epu32 cur_seed multiplier
  let multiplier := _mm_shuffle_epi32 multiplier (_MM_SHUFFLE 2 3 0 1)
  let cur_seed_split := _mm_mul_epu32 cur_seed_split multiplier
  let cur_seed := _mm_and_si128 cur_seed mod_mask
  let cur_seed_split := _mm_and_si128 cur_seed_split mod_mask
  let cur_seed_split := _mm_shuffle_epi32 cur_seed_split (_MM_SHUFFLE 2 3 0 1)
  let cur_seed := _mm_or_si128 cur_seed cur_seed_split
  let cur_seed := _mm_add_epi32 cur_seed adder
  let sseresult := _mm_srai_epi32 cur_seed 16
  let sseresult := _mm_and_si128 sseresult sra_mask
  (sseresult, cur_seed)

/-- `getRandomNumber` of a build with `SSE2RNG`, and the seed that it leaves. -/
def getRandomNumber (cur_seed : M128i) : BitVec 32 × M128i :=
  let (randNum, cur_seed) := rand_sse cur_seed
  (randNum.lane0, cur_seed)

end FreeGuard.Model
