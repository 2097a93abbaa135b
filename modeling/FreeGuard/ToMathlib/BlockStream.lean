import Mathlib.Data.List.GetD
import Mathlib.Data.List.Range
import Mathlib.Logic.Function.Iterate

/-! # Streams made of blocks

A sequence of blocks of one size is read as one stream. In a stream that erases its keys every block comes
with the key of the next one, so that the key in hand tells nothing of what came before it. A reader takes
bytes off the block last made, and makes the next one when nothing is left.
-/

namespace FreeGuard.BlockStream

variable {B : Type*} [Inhabited B] {block : ℕ → List B} {size a b n m i : ℕ}

/-- Byte `n` of the stream. -/
def byte (block : ℕ → List B) (size n : ℕ) : B := (block (n / size)).getD (n % size) default

/-- Some bytes of the stream. -/
def slice (block : ℕ → List B) (size start count : ℕ) : List B :=
  (List.range count).map fun i => byte block size (start + i)

@[simp] theorem length_slice : (slice block size a n).length = n := by simp [slice]

@[simp] theorem slice_zero : slice block size a 0 = [] := rfl

theorem slice_append (block : ℕ → List B) (size a n m : ℕ) :
    slice block size a n ++ slice block size (a + n) m = slice block size a (n + m) := by
  simp only [slice, List.range_add, List.map_append, List.map_map, Function.comp_def, Nat.add_assoc]

theorem take_slice (n m : ℕ) : (slice block size a (n + m)).take n = slice block size a n := by
  rw [← slice_append, List.take_left' length_slice]

theorem drop_slice (n m : ℕ) : (slice block size a (n + m)).drop n = slice block size (a + n) m := by
  rw [← slice_append, List.drop_left' length_slice]

/-- A whole block. -/
theorem slice_block (len : (block i).length = size) : slice block size (i * size) size = block i := by
  apply List.ext_getElem (by rw [length_slice, len])
  intro k inSlice inBlock
  rw [length_slice] at inSlice
  have quotient : (i * size + k) / size = i := by
    rw [Nat.mul_comm, Nat.mul_add_div (Nat.zero_lt_of_lt inSlice), Nat.div_eq_of_lt inSlice, Nat.add_zero]
  have remainder : (i * size + k) % size = k := by
    rw [Nat.mul_comm, Nat.mul_add_mod, Nat.mod_eq_of_lt inSlice]
  simp only [slice, List.getElem_map, List.getElem_range, byte, quotient, remainder]
  exact List.getD_eq_getElem _ _ inBlock

/-- The stream without its first blocks. -/
theorem slice_shift (positive : 0 < size) (k a n : ℕ) :
    slice (fun i => block (i + k)) size a n = slice block size (k * size + a) n := by
  refine List.map_congr_left fun i _ => ?_
  have place : k * size + a + i = a + i + size * k := by rw [Nat.mul_comm, Nat.add_assoc, Nat.add_comm]
  rw [byte, byte, place, Nat.add_mul_div_left _ _ positive, Nat.add_mul_mod_self_left]

/-! ## Keys that are erased -/

variable {K : Type*} {expand : K → K × List B} {key : K} {unread : List B}

/-- The keys, each made with the block before it. -/
def keyAfter (expand : K → K × List B) (key : K) (i : ℕ) : K := (fun k => (expand k).1)^[i] key

/-- The stream of a key. -/
def blocks (expand : K → K × List B) (key : K) (i : ℕ) : List B := (expand (keyAfter expand key i)).2

/-- What a reader has in hand after some bytes of the stream: the rest of the block last made. -/
structure Reads (expand : K → K × List B) (size : ℕ) (key : K) (made position : ℕ) (unread : List B) :
    Prop where
  stream : unread = slice (blocks expand key) size position unread.length
  whole : position + unread.length = made * size

namespace Reads

theorem start (expand : K → K × List B) (size : ℕ) (key : K) : Reads expand size key 0 0 [] :=
  ⟨rfl, by rw [Nat.zero_mul, List.length_nil]⟩

/-- The bytes in hand are the next ones of the stream. -/
theorem take (reads : Reads expand size key i a unread) (enough : n ≤ unread.length) :
    unread.take n = slice (blocks expand key) size a n ∧
      Reads expand size key i (a + n) (unread.drop n) := by
  obtain ⟨stream, whole⟩ := reads
  obtain ⟨m, length⟩ := Nat.exists_eq_add_of_le enough
  rw [length] at stream whole
  have rest : unread.drop n = slice (blocks expand key) size (a + n) m := by rw [stream, drop_slice]
  refine ⟨by rw [stream, take_slice], ⟨?_, ?_⟩⟩
  · rw [rest, length_slice]
  · rw [rest, length_slice, Nat.add_assoc, whole]

/-- The bytes in hand are passed over, and the next block is made. -/
theorem refill (len : ∀ k, (expand k).2.length = size) (reads : Reads expand size key i a unread) :
    Reads expand size key (i + 1) (a + unread.length) (expand (keyAfter expand key i)).2 := by
  refine ⟨?_, ?_⟩
  · rw [len, reads.whole]
    exact (@slice_block _ _ (blocks expand key) _ _ (len _)).symm
  · rw [len, reads.whole, Nat.succ_mul]

end Reads

omit [Inhabited B] in
theorem keyAfter_succ (expand : K → K × List B) (key : K) (i : ℕ) :
    keyAfter expand key (i + 1) = (expand (keyAfter expand key i)).1 := by
  rw [keyAfter, keyAfter, Function.iterate_succ_apply']

end FreeGuard.BlockStream
