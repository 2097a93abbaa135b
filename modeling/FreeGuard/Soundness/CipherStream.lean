import FreeGuard.Proofs.Chacha

/-! # The stream of a context

Calls of `chacha_encrypt_bytes` write one stream, in pieces, as long as each but the last ends with a block.
-/

namespace FreeGuard.Soundness.CipherStream

open Model

theorem keystream_advance (x : ChachaCtx) (blocks start count : ℕ) :
    keystream (x.advance blocks) start count = keystream x (64 * blocks + start) count := by
  have shifted : chachaBlocks (x.advance blocks).input = fun i => chachaBlocks x.input (i + blocks) := by
    funext i
    rw [chachaBlocks, chachaBlocks, Function.iterate_add_apply]
    rfl
  rw [keystream, shifted, BlockStream.slice_shift (by decide), Nat.mul_comm]
  rfl

theorem advance_advance (x : ChachaCtx) (n m : ℕ) : (x.advance n).advance m = x.advance (m + n) := by
  simp only [ChachaCtx.advance, Function.iterate_add_apply]

theorem advance_eq_iff (x : ChachaCtx) (n m : ℕ) : x.advance n = x.advance m ↔ n ≡ m [MOD 2 ^ 64] := by
  rw [← iterate_nextBlock_eq_iff x.input]
  exact ChachaCtx.mk.injEq .. ▸ Iff.rfl

/-- A call after one that ended with a block goes on where that one stopped. -/
theorem encrypt_add (x : ChachaCtx) {a : ℕ} (whole : 64 ∣ a) (b : ℕ) :
    chacha_encrypt_bytes x (a + b) =
      ((chacha_encrypt_bytes x a).1 ++ (chacha_encrypt_bytes (chacha_encrypt_bytes x a).2 b).1,
        (chacha_encrypt_bytes (chacha_encrypt_bytes x a).2 b).2) := by
  obtain ⟨blocks, rfl⟩ := whole
  have first : (64 * blocks + 63) / 64 = blocks := by omega
  have second : (64 * blocks + b + 63) / 64 = (b + 63) / 64 + blocks := by omega
  simp only [chacha_encrypt_bytes_eq, first, second, keystream_advance, advance_advance, Nat.add_zero]
  rw [keystream, keystream, keystream, ← BlockStream.slice_append, Nat.zero_add]

/-- A context gives one stream of blocks with a counter of 64 bits: a call writes as many bytes of it as it is
asked for and moves on by whole blocks, calls that end with a block continue the stream, and the context
comes again after `2 ^ 64` blocks, that is `2 ^ 70` bytes, and no sooner. -/
theorem cipher_stream (x : ChachaCtx) :
    (∀ bytes, chacha_encrypt_bytes x bytes = (keystream x 0 bytes, x.advance ((bytes + 63) / 64))) ∧
    (∀ i, keystream x (64 * i) 64 = chachaBlock (x.advance i).input) ∧
    (∀ a b, 64 ∣ a → chacha_encrypt_bytes x (a + b) =
      ((chacha_encrypt_bytes x a).1 ++ (chacha_encrypt_bytes (chacha_encrypt_bytes x a).2 b).1,
        (chacha_encrypt_bytes (chacha_encrypt_bytes x a).2 b).2)) ∧
    (∀ n m, x.advance n = x.advance m ↔ n ≡ m [MOD 2 ^ 64]) := by
  refine ⟨chacha_encrypt_bytes_eq x, fun i => ?_, fun a b whole => encrypt_add x whole b, advance_eq_iff x⟩
  rw [keystream, Nat.mul_comm]
  exact @BlockStream.slice_block _ _ (chachaBlocks x.input) 64 i (length_chachaBlock _)

/-- In two pieces, the first of two blocks. -/
theorem cipher_stream_pieces :
    chacha_encrypt_bytes ⟨Vector.replicate 16 0⟩ (128 + 10) =
      ((chacha_encrypt_bytes ⟨Vector.replicate 16 0⟩ 128).1 ++
        (chacha_encrypt_bytes (chacha_encrypt_bytes ⟨Vector.replicate 16 0⟩ 128).2 10).1,
        (chacha_encrypt_bytes (chacha_encrypt_bytes ⟨Vector.replicate 16 0⟩ 128).2 10).2) :=
  (cipher_stream ⟨Vector.replicate 16 0⟩).2.2.1 128 10 (by decide)

end FreeGuard.Soundness.CipherStream
