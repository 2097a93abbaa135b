import FreeGuard.Model.Chacha
import FreeGuard.ToMathlib.BlockStream
import Mathlib.Data.Nat.ModEq

/-! # The keystream of the cipher

The words `j12` and `j13` count the blocks, and the loop writes one block after the other.
-/

namespace FreeGuard.Model

variable {j : Vector u32 16} {n m bytes : ℕ}

/-! ## Bytes and words -/

/-- A byte placed in a word is that byte of it, and nothing of the others. -/
theorem getLsbD_placed (x : BitVec 8) {m k i : ℕ} (word : k < 4) (byte : i < 8) :
    (x.setWidth 32 <<< (8 * m)).getLsbD (8 * k + i) = (decide (m = k) && x.getLsbD i) := by
  have inside : 8 * k + i < 32 := by omega
  rw [BitVec.getLsbD_shiftLeft, BitVec.getLsbD_setWidth]
  rcases Nat.lt_trichotomy m k with less | rfl | more
  · have above : 8 ≤ 8 * k + i - 8 * m := by omega
    have other : m ≠ k := by omega
    simp [other, BitVec.getLsbD_of_ge x _ above]
  · have at_i : 8 * m + i - 8 * m = i := by omega
    have later : ¬8 * m + i < 8 * m := by omega
    have width : i < 32 := by omega
    simp [inside, later, at_i, width]
  · have before : 8 * k + i < 8 * m := by omega
    have other : m ≠ k := by omega
    simp [before, other]

theorem getLsbD_word (p : List u8) {k i : ℕ} (word : k < 4) (byte : i < 8) :
    (U8TO32_LITTLE p 0).getLsbD (8 * k + i) = (p.getD k 0).toBitVec.getLsbD i := by
  have placed (m : ℕ) := @getLsbD_placed (p.getD (0 + m) 0).toBitVec m k i word byte
  have zero := placed 0
  rw [Nat.mul_zero, BitVec.shiftLeft_zero] at zero
  simp only [U8TO32_LITTLE, BitVec.getLsbD_or, zero, placed 1, placed 2, placed 3]
  obtain rfl | rfl | rfl | rfl : k = 0 ∨ k = 1 ∨ k = 2 ∨ k = 3 := by omega
  all_goals simp

/-- A word of four bytes has them back. -/
theorem toBytes_toWord {p : List u8} (four : p.length = 4) : U32TO8_LITTLE (U8TO32_LITTLE p 0) = p := by
  have byte {k : ℕ} (word : k < 4) :
      (U8TO32_LITTLE p 0 >>> (8 * k)).setWidth 8 = (p.getD k 0).toBitVec := by
    apply BitVec.eq_of_getLsbD_eq
    intro i inside
    rw [BitVec.getLsbD_setWidth, BitVec.getLsbD_ushiftRight, getLsbD_word p word inside]
    simp [inside]
  have first := @byte 0 (by decide)
  rw [Nat.mul_zero, BitVec.ushiftRight_zero] at first
  rw [U32TO8_LITTLE, first, @byte 1 (by decide), @byte 2 (by decide), @byte 3 (by decide)]
  obtain ⟨a, b, c, d, rfl⟩ := List.length_eq_four.mp four
  rfl

/-! ## The block counter -/

@[simp] theorem j12_setCounter (j : Vector u32 16) (low high : u32) : j12 (setCounter j low high) = low := by
  simp [j12, setCounter]

@[simp] theorem j13_setCounter (j : Vector u32 16) (low high : u32) : j13 (setCounter j low high) = high := by
  simp [j13, setCounter]

theorem setCounter_self (j : Vector u32 16) : setCounter j (j12 j) (j13 j) = j := by
  simp [setCounter, j12, j13]

theorem nextBlock_setCounter (j : Vector u32 16) (low high : u32) :
    nextBlock (setCounter j low high) =
      if low + 1 = 0 then setCounter j (low + 1) (high + 1) else setCounter j (low + 1) high := by
  have first : j12 ((setCounter j low high).set 12 (low + 1)) = low + 1 := Vector.getElem_set_self _
  have second : j13 ((setCounter j low high).set 12 (low + 1)) = high := by
    rw [j13, Vector.getElem_set_ne _ _ (by decide)]
    exact j13_setCounter ..
  rw [nextBlock, j12_setCounter]
  simp only [first, second]
  split_ifs <;> refine Vector.ext fun i inside => ?_ <;>
    simp only [setCounter, Vector.getElem_set] <;> split_ifs <;> first | rfl | omega

/-- The number of the next block. -/
def counter (j : Vector u32 16) : ℕ := (j12 j).toNat + 2 ^ 32 * (j13 j).toNat

def withCounter (j : Vector u32 16) (n : ℕ) : Vector u32 16 :=
  setCounter j (BitVec.ofNat 32 n) (BitVec.ofNat 32 (n / 2 ^ 32))

theorem counter_withCounter (j : Vector u32 16) (n : ℕ) : counter (withCounter j n) = n % 2 ^ 64 := by
  rw [counter, withCounter, j12_setCounter, j13_setCounter, BitVec.toNat_ofNat, BitVec.toNat_ofNat]
  omega

theorem withCounter_counter (j : Vector u32 16) : withCounter j (counter j) = j := by
  have low := (j12 j).isLt
  have high := (j13 j).isLt
  have first : BitVec.ofNat 32 (counter j) = j12 j := by
    apply BitVec.eq_of_toNat_eq
    rw [BitVec.toNat_ofNat, counter]
    omega
  have second : BitVec.ofNat 32 (counter j / 2 ^ 32) = j13 j := by
    apply BitVec.eq_of_toNat_eq
    rw [BitVec.toNat_ofNat, counter]
    omega
  rw [withCounter, first, second, setCounter_self]

/-- The carry makes one counter of the two words. -/
theorem nextBlock_withCounter (j : Vector u32 16) (n : ℕ) :
    nextBlock (withCounter j n) = withCounter j (n + 1) := by
  have step : BitVec.ofNat 32 n + 1 = BitVec.ofNat 32 (n + 1) := (BitVec.ofNat_add n 1).symm
  have wraps : BitVec.ofNat 32 (n + 1) = 0 ↔ (n + 1) % 2 ^ 32 = 0 := by
    rw [← BitVec.toNat_inj, BitVec.toNat_ofNat]
    rfl
  rw [withCounter, nextBlock_setCounter, step, withCounter]
  simp only [wraps]
  split_ifs with carry
  · have quotient : (n + 1) / 2 ^ 32 = n / 2 ^ 32 + 1 := by omega
    rw [quotient, BitVec.ofNat_add (n / 2 ^ 32) 1]
    rfl
  · have quotient : (n + 1) / 2 ^ 32 = n / 2 ^ 32 := by omega
    rw [quotient]

theorem iterate_nextBlock (j : Vector u32 16) (n : ℕ) :
    nextBlock^[n] j = withCounter j (counter j + n) := by
  induction n with
  | zero => exact (withCounter_counter j).symm
  | succ n ih => rw [Function.iterate_succ_apply', ih, nextBlock_withCounter, Nat.add_assoc]

theorem withCounter_congr (same : n ≡ m [MOD 2 ^ 64]) : withCounter j n = withCounter j m := by
  have low : BitVec.ofNat 32 n = BitVec.ofNat 32 m := by
    apply BitVec.eq_of_toNat_eq
    rw [BitVec.toNat_ofNat, BitVec.toNat_ofNat]
    exact same.of_dvd (pow_dvd_pow 2 (by decide))
  have high : BitVec.ofNat 32 (n / 2 ^ 32) = BitVec.ofNat 32 (m / 2 ^ 32) := by
    apply BitVec.eq_of_toNat_eq
    rw [Nat.ModEq] at same
    rw [BitVec.toNat_ofNat, BitVec.toNat_ofNat]
    omega
  rw [withCounter, withCounter, low, high]

/-- The words come again after `2 ^ 64` blocks. -/
theorem iterate_nextBlock_eq_iff (j : Vector u32 16) (n m : ℕ) :
    nextBlock^[n] j = nextBlock^[m] j ↔ n ≡ m [MOD 2 ^ 64] := by
  rw [iterate_nextBlock, iterate_nextBlock]
  constructor
  · intro same
    have counters := congrArg counter same
    rw [counter_withCounter, counter_withCounter] at counters
    exact Nat.ModEq.add_left_cancel' _ counters
  · exact fun same => withCounter_congr (same.add_left _)

/-! ## The loop -/

theorem length_chachaBlock (j : Vector u32 16) : (chachaBlock j).length = 64 := by
  have word : (fun v => (U32TO8_LITTLE v).length) = fun _ => 4 := rfl
  rw [chachaBlock, List.length_flatMap, word, List.map_const', List.sum_replicate_nat, Vector.length_toList]

/-- The blocks from some words on. -/
def chachaBlocks (j : Vector u32 16) (i : ℕ) : List u8 := chachaBlock (nextBlock^[i] j)

theorem encryptLoop_eq (j : Vector u32 16) (positive : 0 < bytes) :
    encryptLoop j bytes =
      (BlockStream.slice (chachaBlocks j) 64 0 bytes, nextBlock^[(bytes + 63) / 64] j) := by
  have first : BlockStream.slice (chachaBlocks j) 64 0 64 = chachaBlock j :=
    @BlockStream.slice_block _ _ (chachaBlocks j) 64 0 (length_chachaBlock _)
  fun_induction encryptLoop j bytes with
  | case1 j bytes c last =>
    have blocks : (bytes + 63) / 64 = 1 := by omega
    obtain ⟨m, whole⟩ := Nat.exists_eq_add_of_le last
    rw [blocks, ← @BlockStream.take_slice _ _ (chachaBlocks j) 64 0 bytes m, ← whole, first]
    rfl
  | case2 j bytes c more rest left eq ih =>
    have next : BlockStream.slice (chachaBlocks (nextBlock j)) 64 0 (bytes - 64) =
        BlockStream.slice (chachaBlocks j) 64 (0 + 64) (bytes - 64) :=
      @BlockStream.slice_shift _ _ (chachaBlocks j) 64 (by decide) 1 0 (bytes - 64)
    have blocks : (bytes + 63) / 64 = (bytes - 64 + 63) / 64 + 1 := by omega
    have count : 64 + (bytes - 64) = bytes := by omega
    have whole := BlockStream.slice_append (chachaBlocks j) 64 0 64 (bytes - 64)
    rw [ih (by omega) (@BlockStream.slice_block _ _ (chachaBlocks (nextBlock j)) 64 0 (length_chachaBlock _)),
      Prod.mk.injEq] at eq
    rw [count, first, ← next, eq.1] at whole
    rw [whole, blocks, Function.iterate_succ_apply, eq.2]

/-- The keystream of a context. -/
def keystream (x : ChachaCtx) (start count : ℕ) : List u8 :=
  BlockStream.slice (chachaBlocks x.input) 64 start count

/-- The context some blocks on. -/
def ChachaCtx.advance (x : ChachaCtx) (blocks : ℕ) : ChachaCtx := ⟨nextBlock^[blocks] x.input⟩

/-- As many bytes of the keystream as are asked for; the last block counts as a whole one. -/
theorem chacha_encrypt_bytes_eq (x : ChachaCtx) (bytes : ℕ) :
    chacha_encrypt_bytes x bytes = (keystream x 0 bytes, x.advance ((bytes + 63) / 64)) := by
  rw [chacha_encrypt_bytes]
  split_ifs with none
  · rw [none]
    rfl
  · rw [encryptLoop_eq _ (Nat.pos_of_ne_zero none), ChachaCtx.advance, iterate_nextBlock]
    simp only [withCounter, j12_setCounter, j13_setCounter]
    rfl

end FreeGuard.Model
