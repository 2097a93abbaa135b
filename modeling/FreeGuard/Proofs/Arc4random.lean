import FreeGuard.Machine.KeyStreams
import FreeGuard.Model.Arc4random
import FreeGuard.Proofs.Chacha
import Mathlib.Data.Fin.VecNotation

/-! # The buffer of `arc4random.c`

A block of keystream is 1024 bytes: the next key, which replaces the cipher's state, and the 984 bytes that
are given out. What has been given out is overwritten at once, so the buffer holds zeros and then the bytes
still to be given.
-/

namespace FreeGuard.Model

open Machine

namespace Arc4

variable {a : Arc4} {st : KeyStream (List u8)} {key : List u8} {n m : ℕ}

/-- The context of a key and its initialization vector. -/
def setup (key : List u8) : ChachaCtx :=
  chacha_ivsetup (chacha_keysetup ⟨Vector.replicate 16 0⟩ key (BitVec.ofNat 32 (KEYSZ * 8))) (key.drop KEYSZ)

theorem foldl_set {n : ℕ} (words : Fin n → u32) (l : List (Fin n)) (x : Vector u32 n) (i : Fin n) :
    (l.foldl (fun x k => x.set k.val (words k) k.isLt) x).get i = if i ∈ l then words i else x.get i := by
  induction l generalizing x with
  | nil => rfl
  | cons k l ih =>
    rw [List.foldl_cons, ih]
    by_cases among : i ∈ l
    · rw [if_pos among, if_pos (List.mem_cons_of_mem _ among)]
    · rcases eq_or_ne i k with rfl | other
      · rw [if_neg among, if_pos List.mem_cons_self]
        exact Vector.getElem_set_self _
      · rw [if_neg among, if_neg (by simp [other, among])]
        exact Vector.getElem_set_ne _ _ fun same => other (Fin.ext same.symm)

/-- The words of a context, as `chacha_keysetup` and `chacha_ivsetup` set them. -/
def words (key : List u8) : Fin 16 → u32 :=
  ![U8TO32_LITTLE sigma 0, U8TO32_LITTLE sigma 4, U8TO32_LITTLE sigma 8, U8TO32_LITTLE sigma 12,
    U8TO32_LITTLE key 0, U8TO32_LITTLE key 4, U8TO32_LITTLE key 8, U8TO32_LITTLE key 12,
    U8TO32_LITTLE (key.drop 16) 0, U8TO32_LITTLE (key.drop 16) 4, U8TO32_LITTLE (key.drop 16) 8,
    U8TO32_LITTLE (key.drop 16) 12, 0, 0, U8TO32_LITTLE (key.drop KEYSZ) 0, U8TO32_LITTLE (key.drop KEYSZ) 4]

/-- All words of the context are set. -/
theorem setup_eq (x : ChachaCtx) (key : List u8) :
    chacha_ivsetup (chacha_keysetup x key (BitVec.ofNat 32 (KEYSZ * 8))) (key.drop KEYSZ) = setup key := by
  let order : List (Fin 16) := [4, 5, 6, 7, 8, 9, 10, 11, 0, 1, 2, 3, 12, 13, 14, 15]
  have every (x : ChachaCtx) :
      chacha_ivsetup (chacha_keysetup x key (BitVec.ofNat 32 (KEYSZ * 8))) (key.drop KEYSZ) =
        ⟨order.foldl (fun x k => x.set k.val (words key k) k.isLt) x.input⟩ := rfl
  rw [setup, every, every]
  refine congrArg ChachaCtx.mk (Vector.ext fun i inside => ?_)
  have all : ∀ k : Fin 16, k ∈ order := by decide
  have left := foldl_set (words key) order x.input ⟨i, inside⟩
  have right := foldl_set (words key) order (Vector.replicate 16 0) ⟨i, inside⟩
  rw [if_pos (all _)] at left right
  exact left.trans right.symm

/-- What a key gives: the next key, and the bytes to give out. -/
def expand (key : List u8) : List u8 × List u8 :=
  let block := (chacha_encrypt_bytes (setup key) RSBUFSZ).1
  (block.take (KEYSZ + IVSZ), block.drop (KEYSZ + IVSZ))

theorem length_block (x : ChachaCtx) : (chacha_encrypt_bytes x RSBUFSZ).1.length = RSBUFSZ := by
  rw [chacha_encrypt_bytes_eq, keystream, BlockStream.length_slice]

/-- The generator as a scheme of keys. -/
def scheme : KeyScheme (Vector u8 (KEYSZ + IVSZ)) (List u8) u8 where
  expand := expand
  size := RSBUFSZ - KEYSZ - IVSZ
  length_expand key := by rw [expand, List.length_drop, length_block]; rfl
  start rnd := rnd.toList
  mix rnd next := List.zipWith (· ^^^ ·) next rnd.toList
  limit := 1600000

theorem length_next (key : List u8) : (expand key).1.length = KEYSZ + IVSZ := by
  rw [expand, List.length_take, length_block]
  rfl

/-! ## New blocks -/

/-- The bytes not yet given. -/
def unread (a : Arc4) : List u8 := a.rsx.rs_buf.drop (RSBUFSZ - a.rs.rs_have)

theorem rs_init_eq {buf : List u8} (whole : buf.length = KEYSZ + IVSZ) (a : Arc4) :
    _rs_init buf a = { a with rsx := { a.rsx with rs_chacha := setup buf } } := by
  rw [_rs_init, if_neg (by omega)]
  simp only [setup_eq]

/-- The next block of a key, with the bytes `dat` mixed into the key after it. -/
theorem rs_rekey_eq (keyed : a.rsx.rs_chacha = setup key) {dat : List u8}
    (shape : dat = [] ∨ dat.length = KEYSZ + IVSZ) :
    _rs_rekey dat a = {
      rs := { a.rs with rs_have := RSBUFSZ - KEYSZ - IVSZ }
      rsx := {
        rs_chacha := setup (if dat = [] then (expand key).1
          else List.zipWith (· ^^^ ·) (expand key).1 dat)
        rs_buf := List.replicate (KEYSZ + IVSZ) 0 ++ (expand key).2 } } := by
  have length := length_next key
  generalize cut : chacha_encrypt_bytes (setup key) RSBUFSZ = result at *
  obtain ⟨block, ctx⟩ := result
  have parts : expand key = (block.take (KEYSZ + IVSZ), block.drop (KEYSZ + IVSZ)) := by rw [expand, cut]
  rw [parts] at length ⊢
  rw [_rs_rekey, keyed, cut]
  rcases shape with rfl | whole
  · have same : List.zipWith (· ^^^ ·) (block.take 0) [] ++ block.drop 0 = block := rfl
    simp only [List.length_nil, Nat.zero_min, same]
    rw [rs_init_eq length, if_pos trivial]
  · have some : dat ≠ [] := List.ne_nil_of_length_pos (by rw [whole]; decide)
    have mixed : (List.zipWith (· ^^^ ·) (block.take (KEYSZ + IVSZ)) dat).length = KEYSZ + IVSZ := by
      rw [List.length_zipWith, length, whole, Nat.min_self]
    simp only [whole, Nat.min_self, List.take_left' mixed, if_neg some]
    rw [rs_init_eq mixed]
    simp only [List.drop_left' mixed]

/-! ## The bytes given out -/

/-- The buffer holds what a stream has still to give. -/
structure Holds (a : Arc4) (st : KeyStream (List u8)) : Prop where
  keyed : a.rsx.rs_chacha = setup (BlockStream.keyAfter expand st.key st.made)
  room : a.rs.rs_have ≤ RSBUFSZ
  buffer : a.rsx.rs_buf = List.replicate (RSBUFSZ - a.rs.rs_have) 0 ++ a.unread
  length : a.unread.length = a.rs.rs_have
  reads : BlockStream.Reads expand scheme.size st.key st.made st.position a.unread

namespace Holds

theorem rekey (holds : Holds a st) : Holds (_rs_rekey [] a)
    { st with made := st.made + 1, position := st.position + a.rs.rs_have } := by
  have next : (expand (BlockStream.keyAfter expand st.key st.made)).2.length = RSBUFSZ - KEYSZ - IVSZ :=
    scheme.length_expand _
  have zeros : (List.replicate (KEYSZ + IVSZ) (0 : u8)).length = RSBUFSZ - (RSBUFSZ - KEYSZ - IVSZ) := by
    rw [List.length_replicate]
    rfl
  have rest : (_rs_rekey [] a).unread = (expand (BlockStream.keyAfter expand st.key st.made)).2 := by
    rw [rs_rekey_eq holds.keyed (.inl rfl), unread]
    exact List.drop_left' zeros
  have reads := holds.reads.refill scheme.length_expand
  rw [holds.length] at reads
  refine ⟨?_, ?_, ?_, ?_, ?_⟩
  · rw [rs_rekey_eq holds.keyed (.inl rfl), if_pos rfl, BlockStream.keyAfter_succ]
  · rw [rs_rekey_eq holds.keyed (.inl rfl)]
    exact (Nat.sub_le ..).trans (Nat.sub_le ..)
  · rw [rest, rs_rekey_eq holds.keyed (.inl rfl)]
    rfl
  · rw [rest, next, rs_rekey_eq holds.keyed (.inl rfl)]
  · rwa [rest]

theorem rekey_rs (holds : Holds a st) : (_rs_rekey [] a).rs = ⟨RSBUFSZ - KEYSZ - IVSZ, a.rs.rs_count⟩ := by
  rw [rs_rekey_eq holds.keyed (.inl rfl)]

/-- What is taken is the next of the stream, and is overwritten. -/
theorem take (holds : Holds a st) {m : ℕ} (enough : m ≤ a.rs.rs_have) :
    (a.take m).1 = BlockStream.slice (BlockStream.blocks expand st.key) scheme.size st.position m ∧
      Holds (a.take m).2 { st with position := st.position + m } ∧
      (a.take m).2.rs.rs_have = a.rs.rs_have - m := by
  have room := holds.room
  have length := holds.length
  obtain ⟨given, reads⟩ := holds.reads.take (length ▸ enough)
  have start : RSBUFSZ - (a.rs.rs_have - m) = RSBUFSZ - a.rs.rs_have + m := by omega
  have zeros : (List.replicate (RSBUFSZ - a.rs.rs_have) (0 : u8)).length = RSBUFSZ - a.rs.rs_have :=
    List.length_replicate
  have before : a.rsx.rs_buf.take (RSBUFSZ - a.rs.rs_have) = List.replicate (RSBUFSZ - a.rs.rs_have) 0 := by
    rw [holds.buffer, List.take_left' zeros]
  have after : a.rsx.rs_buf.drop (RSBUFSZ - a.rs.rs_have + m) = a.unread.drop m := by
    rw [unread, List.drop_drop]
  have buffer : (a.take m).2.rsx.rs_buf =
      List.replicate (RSBUFSZ - a.rs.rs_have + m) 0 ++ a.unread.drop m := by
    rw [Arc4.take, List.replicate_add]
    simp only [before, after]
  have rest : (a.take m).2.unread = a.unread.drop m := by
    rw [unread, buffer]
    exact List.drop_left' (by rw [List.length_replicate, ← start]; rfl)
  refine ⟨given, ⟨holds.keyed, ?_, ?_, ?_, ?_⟩, rfl⟩
  · exact (Nat.sub_le ..).trans room
  · rw [rest, buffer, ← start]
    rfl
  · rw [rest, List.length_drop, length]
    rfl
  · rwa [rest]

/-- The bytes made are those of whole blocks. -/
theorem position_le (holds : Holds a st) : st.position ≤ st.made * scheme.size :=
  holds.reads.whole ▸ Nat.le_add_right ..

/-- A word passes over what is left of a block if that is less. -/
theorem word (holds : Holds a st) : ∃ start made, st.position ≤ start ∧ st.made ≤ made ∧
    start + 4 ≤ made * scheme.size ∧
    U32TO8_LITTLE a.word.1 =
      BlockStream.slice (BlockStream.blocks expand st.key) scheme.size start 4 ∧
    Holds a.word.2 { st with made := made, position := start + 4 } ∧
    a.word.2.rs.rs_count = a.rs.rs_count := by
  by_cases short : a.rs.rs_have < 4
  · have filled := holds.rekey
    have length : 4 ≤ (_rs_rekey [] a).rs.rs_have := by
      rw [holds.rekey_rs]
      exact (by decide : 4 ≤ RSBUFSZ - KEYSZ - IVSZ)
    obtain ⟨given, rest, -⟩ := filled.take length
    rw [Arc4.word, if_pos short]
    have count : (_rs_rekey [] a).rs.rs_count = a.rs.rs_count := by rw [holds.rekey_rs]
    refine ⟨_, _, Nat.le_add_right .., Nat.le_succ _, rest.position_le, ?_, rest, count⟩
    rw [← given, toBytes_toWord]
    rw [given, BlockStream.length_slice]
  · obtain ⟨given, rest, -⟩ := holds.take (Nat.not_lt.mp short)
    rw [Arc4.word, if_neg short]
    refine ⟨_, _, Nat.le_refl _, Nat.le_refl _, rest.position_le, ?_, rest, rfl⟩
    rw [← given, toBytes_toWord]
    rw [given, BlockStream.length_slice]

/-- A block is made where nothing is left. -/
theorem refilled (holds : Holds a st) : ∃ made, st.made ≤ made ∧
    Holds (if a.rs.rs_have = 0 then _rs_rekey [] a else a) { st with made := made } ∧
    (if a.rs.rs_have = 0 then _rs_rekey [] a else a).rs.rs_have ≠ 0 ∧
    (if a.rs.rs_have = 0 then _rs_rekey [] a else a).rs.rs_count = a.rs.rs_count := by
  by_cases none : a.rs.rs_have = 0
  · have filled := holds.rekey
    rw [none, Nat.add_zero] at filled
    have size : RSBUFSZ - KEYSZ - IVSZ ≠ 0 := by decide
    rw [if_pos none, holds.rekey_rs]
    exact ⟨_, Nat.le_succ _, filled, size, rfl⟩
  · rw [if_neg none]
    exact ⟨_, le_rfl, holds, none, rfl⟩

/-- The turns of the loop give one slice, and there are enough of them. -/
theorem fill {fuel n : ℕ} (holds : Holds a st)
    (enough : n + (if a.rs.rs_have = 0 then 1 else 0) ≤ fuel ∨ n = 0) : ∃ made, st.made ≤ made ∧
      (a.fill fuel n).1 = BlockStream.slice (BlockStream.blocks expand st.key) scheme.size st.position n ∧
      Holds (a.fill fuel n).2 { st with made := made, position := st.position + n } ∧
      (a.fill fuel n).2.rs.rs_count = a.rs.rs_count := by
  induction fuel generalizing a st n with
  | zero =>
    obtain rfl : n = 0 := by omega
    exact ⟨st.made, le_rfl, rfl, holds, rfl⟩
  | succ fuel ih =>
    by_cases none : n = 0
    · subst none
      exact ⟨st.made, le_rfl, rfl, holds, rfl⟩
    rw [Arc4.fill, if_neg none]
    by_cases some : 0 < a.rs.rs_have
    · obtain ⟨given, rest, -⟩ := holds.take (Nat.min_le_right n _)
      obtain ⟨made, more, filled, left, count⟩ := rest.refilled
      simp only [if_pos some]
      have fewer : n - min n a.rs.rs_have ≤ fuel := by omega
      obtain ⟨made', more', given', last, count'⟩ := @ih _ _ (n - min n a.rs.rs_have) filled
        (.inl (by rw [if_neg left]; exact fewer))
      have whole : min n a.rs.rs_have + (n - min n a.rs.rs_have) = n := by omega
      refine ⟨made', more.trans more', ?_, ?_, count'.trans count⟩
      · rw [given, given', BlockStream.slice_append, whole]
      · rwa [Nat.add_assoc, whole] at last
    · have empty : a.rs.rs_have = 0 := by omega
      obtain ⟨made, more, filled, left, count⟩ := holds.refilled
      simp only [if_neg some]
      rw [if_pos empty] at enough
      obtain ⟨made', more', given', last, count'⟩ := @ih _ _ (n - 0) filled
        (.inl (by rw [if_neg left]; omega))
      exact ⟨made', more.trans more', given', last, count'.trans count⟩

end Holds

/-! ## Seeds -/

/-- The buffer is cleared, and the stream begins. -/
theorem holds_start {b : Arc4} (keyed : b.rsx.rs_chacha = setup key) (seed : ℕ) :
    Holds { rs := ⟨0, 1600000⟩, rsx := { b.rsx with rs_buf := List.replicate RSBUFSZ 0 } }
      ⟨seed, key, 0, 0, 0⟩ := by
  have length : (List.replicate RSBUFSZ (0 : u8)).length = RSBUFSZ := List.length_replicate
  have nothing : (List.replicate RSBUFSZ (0 : u8)).drop RSBUFSZ = [] := List.drop_of_length_le length.le
  refine ⟨keyed, Nat.zero_le _, ?_, ?_, ?_⟩
  · simp only [unread, Nat.sub_zero, nothing, List.append_nil]
  · simp only [unread, Nat.sub_zero, nothing, List.length_nil]
  · simp only [unread, Nat.sub_zero, nothing]
    exact .start ..

/-- A seed starts a stream from its beginning. -/
theorem rs_stir_ok {inputs : Arc4Inputs} {old : Option Arc4} {st : Option (KeyStream (List u8))}
    (stirred : _rs_stir inputs old = .ok a) (unborn : old = none → st = none)
    (keyed : ∀ b, old = some b → ∃ s, st = some s ∧
      b.rsx.rs_chacha = setup (BlockStream.keyAfter expand s.key s.made)) (seed : ℕ) :
    ∃ rnd, inputs.entropy = some rnd ∧ a.rs.rs_count = 1600000 ∧
      Holds a ⟨seed, scheme.newKey rnd st, 0, 0, 0⟩ := by
  cases drawn : inputs.entropy with
  | none => simp [_rs_stir, drawn] at stirred
  | some rnd =>
    refine ⟨rnd, rfl, ?_⟩
    have whole : rnd.toList.length = KEYSZ + IVSZ := Vector.length_toList
    cases old with
    | none =>
      have init := rs_init_eq whole fresh
      rw [unborn rfl]
      simp only [_rs_stir, drawn] at stirred
      split_ifs at stirred with mapped
      · cases stirred
        exact ⟨rfl, holds_start (by rw [init]; rfl) seed⟩
      · exact nomatch stirred
    | some b =>
      obtain ⟨s, rfl, ctx⟩ := keyed b rfl
      have some : rnd.toList ≠ [] := List.ne_nil_of_length_pos (by rw [whole]; decide)
      have rekey := rs_rekey_eq ctx (.inr whole)
      rw [if_neg some] at rekey
      simp only [_rs_stir, drawn] at stirred
      cases stirred
      refine ⟨rfl, holds_start ?_ seed⟩
      rw [rekey, KeyScheme.newKey, BlockStream.keyAfter_succ]
      rfl

/-! ## Requests -/

theorem spend_count (a : Arc4) (len : ℕ) : (a.spend len).rs.rs_count = a.rs.rs_count - len := by
  simp only [spend]
  split_ifs <;> omega

theorem Holds.spend (holds : Holds a st) (len : ℕ) : Holds (a.spend len) st :=
  ⟨holds.keyed, holds.room, holds.buffer, holds.length, holds.reads⟩

/-- A request is served from a new seed, or from a generator of a thread that was not forked, which has
enough left to count. -/
theorem stir_if_needed_ok {len _rs_pid pid : ℕ} {inputs : Arc4Inputs} {thread : Arc4Thread}
    (served : _rs_stir_if_needed len inputs _rs_pid thread = .ok (pid, a)) :
    (∃ old b, old.map Arc4.rsx = thread.rs.map Arc4.rsx ∧ _rs_stir inputs old = .ok b ∧ a = b.spend len) ∨
      ∃ b, thread.rs = some b ∧ thread._rs_forked = false ∧ len < b.rs.rs_count ∧ a = b.spend len := by
  obtain ⟨old, forked⟩ := thread
  have stirs {old' : Option Arc4} {p : ℕ} (same : old'.map Arc4.rsx = old.map Arc4.rsx)
      (stirred : (_rs_stir inputs old' >>= fun b => Except.ok (p, b.spend len)) = Except.ok (pid, a)) :
      ∃ old' b, old'.map Arc4.rsx = old.map Arc4.rsx ∧ _rs_stir inputs old' = .ok b ∧ a = b.spend len := by
    cases result : _rs_stir inputs old' with
    | error stop =>
      rw [result] at stirred
      exact nomatch stirred
    | ok b =>
      rw [result] at stirred
      cases stirred
      exact ⟨old', b, same, result, rfl⟩
  rw [_rs_stir_if_needed, _rs_forkdetect] at served
  split_ifs at served with detected
  · left
    cases old with
    | none => exact stirs rfl served
    | some b => exact @stirs (some { b with rs := ⟨0, 0⟩ }) inputs.pid rfl served
  · cases old with
    | none => exact .inl (stirs rfl served)
    | some b =>
      by_cases spent : b.rs.rs_count ≤ len
      · simp only [if_pos spent] at served
        exact .inl (stirs rfl served)
      · simp only [if_neg spent] at served
        cases served
        have kept : forked = false := by
          by_contra set
          exact detected (.inr (.inr (.inr (eq_true_of_ne_false set))))
        exact .inr ⟨b, rfl, kept, Nat.not_le.mp spent, rfl⟩

end Arc4

end FreeGuard.Model
