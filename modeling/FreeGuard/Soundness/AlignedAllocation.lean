import FreeGuard.Proofs.Allocation
import FreeGuard.Proofs.LibRun

/-! # Aligned allocations

`xxmemalign` asks its inner allocation for `alignment + size` bytes and then adds the residue of the
object's address instead of what is missing to the next multiple. The result is a multiple of the
alignment when twice the object's address is, and it has its bytes when neither the sum nor the canary
that is added to it wraps.
-/

namespace FreeGuard.Soundness.AlignedAllocation

open Machine Model

variable {c : Config} {lib lib' : LibFreeGuard} {threadIndex q : ℕ} {alignment size : size_t}
  {inputs : Inputs}

/-- The result is a multiple of the alignment, and its bytes are usable bytes of the block that the
inner allocation returned. -/
structure AlignedBlock (c : Config) (threadIndex : ℕ) (alignment size : size_t) (inputs : Inputs)
    (lib : LibFreeGuard) (q : ℕ) : Prop where
  multiple : alignment.toNat ∣ q
  within : ∃ object lib', lib.xxmalloc c.heap threadIndex (alignment + size) inputs =
    .ok (object, lib') ∧ object ≤ q ∧ q + size.toNat ≤ object + c.usableSize (alignment + size)

/-- The bytes fit behind any residue exactly when nothing wraps. -/
theorem fits_iff (c : Config) (size : size_t) {power : ℕ} (isPower : alignment.toNat = 2 ^ power)
    (object : ℕ) :
    object + object % alignment.toNat + size.toNat ≤ object + c.usableSize (alignment + size) ↔
      alignment.toNat + size.toNat < 2 ^ 64 ∧
        ¬(c.build.canary = true ∧ alignment + size = -1) := by
  have bound := alignment.isLt
  have positive : 0 < alignment.toNat := isPower ▸ Nat.two_pow_pos _
  have residue := Nat.mod_lt object positive
  -- a power of two below `2 ^ 64` is at most half of it
  have half : alignment.toNat ≤ 2 ^ 63 := by
    rw [isPower] at bound ⊢
    have := (Nat.pow_lt_pow_iff_right (by decide : 1 < 2)).mp bound
    exact Nat.pow_le_pow_right (by decide) (by omega)
  have sum : (alignment + size).toNat = (alignment.toNat + size.toNat) % 2 ^ 64 :=
    BitVec.toNat_add ..
  rw [← Config.size_le_usableSize_iff]
  constructor
  · intro fits
    rcases c.usableSize_cases (alignment + size) with small | whole
    · refine ⟨by omega, Config.size_le_usableSize_iff.mpr ?_⟩
      rintro ⟨-, top⟩
      have last : (-1 : size_t).toNat = 2 ^ 64 - 1 := rfl
      rw [top] at sum
      omega
    · omega
  · rintro ⟨whole, enough⟩
    rw [Nat.mod_eq_of_lt whole] at sum
    omega

/-- Twice the address of the object that a request gets is a multiple of the alignment: the small heap's
objects are as aligned as its start, a large object ends with its mapping. -/
def DoubleAligned (c : Config) (alignment request : size_t) (inputs : Inputs) : Prop :=
  if c.build.IF_CANARY_CONDITION request then
    ∀ ptr, inputs.supply.mmap = some ptr →
      alignment.toNat ∣ 2 * (ptr + (BigHeap.pageUpSize request - request).toNat)
  else alignment.toNat ∣ 2 * c.heapBegin

/-- A power of two that leaves room in a class divides every distance in the small heap. -/
theorem dvd_block_iff {power b : ℕ} (usable : b < c.usable) (room : 2 ^ power < classSize b)
    (h t i : ℕ) :
    2 ^ power ∣ 2 * (c.bagBegin h t b + i * classSize b) ↔ 2 ^ power ∣ 2 * c.heapBegin := by
  have ofClass : 2 ^ power ∣ classSize b :=
    Nat.pow_dvd_pow 2 ((Nat.pow_lt_pow_iff_right (by decide)).mp room).le
  have ofBag : 2 ^ power ∣ c.bagSize :=
    ofClass.trans (Nat.pow_dvd_pow 2 (Config.power_le usable))
  have split : 2 * (c.bagBegin h t b + i * classSize b) = 2 * c.heapBegin +
      2 * (h * c.heapSize + (t * c.threadSize + b * c.bagSize) + i * classSize b) := by
    rw [Config.bagBegin, Config.startOffset]
    omega
  have ofHeap : 2 ^ power ∣ h * c.heapSize := (ofBag.mul_left _).mul_left h
  have ofThread : 2 ^ power ∣ t * c.threadSize := (ofBag.mul_left _).mul_left t
  rw [split]
  apply (Nat.dvd_add_iff_left _).symm
  apply Dvd.dvd.mul_left
  exact Nat.dvd_add (Nat.dvd_add ofHeap (Nat.dvd_add ofThread (ofBag.mul_left b)))
    (ofClass.mul_left i)

/-- After any run, a block that `xxmemalign` or `xxposix_memalign` returns is aligned and large enough
exactly when the sum does not wrap, is not the request that its canary wraps, and twice the address of
the inner object is a multiple of the alignment. -/
theorem aligned_block_iff (c : Config) {s t : LibSystem} {events : List LibEvent}
    (booted : Booted c s.lib) (run : Run (LibStep c.heap) s events t)
    (thread : threadIndex < MAX_ALIVE_THREADS) {power : ℕ} (isPower : alignment.toNat = 2 ^ power)
    (nonzero : size ≠ 0) (supplied : Supplied t.lib (alignment + size) inputs.supply)
    (ok : t.lib.xxmemalign c.heap threadIndex alignment size inputs = .ok (q, lib') ∨
      t.lib.xxposix_memalign c.heap threadIndex alignment size inputs = .ok (0, q, lib')) :
    AlignedBlock c threadIndex alignment size inputs t.lib q ↔
      alignment.toNat + size.toNat < 2 ^ 64 ∧
        ¬(c.build.canary = true ∧ alignment + size = -1) ∧
        DoubleAligned c alignment (alignment + size) inputs := by
  obtain ⟨object, inner, rfl⟩ := xxmemalign_cases nonzero (ok.elim id xxposix_memalign_cases)
  obtain ⟨pool, entries, held⟩ := exists_consistent booted run
  obtain ⟨pool', entries', move, -⟩ := held.xxmalloc thread supplied inner
  have fits := fits_iff c size isPower object
  have double (whole : alignment.toNat + size.toNat < 2 ^ 64)
      (holds : (alignment + size).toNat ≤ c.usableSize (alignment + size)) :
      alignment.toNat ∣ 2 * object ↔ DoubleAligned c alignment (alignment + size) inputs := by
    rw [DoubleAligned]
    cases routed : c.build.IF_CANARY_CONDITION (alignment + size) with
    | true =>
      cases move with
      | small small => cases routed.symm.trans small
      | @large ptr _ _ _ _ promise made =>
        rw [made.start, made.result, if_pos rfl]
        simp only [Option.some.injEq, forall_eq']
    | false =>
      obtain ⟨x, -, i, -, rfl⟩ := move.block routed
      rw [Config.usableSize, routed, if_neg Bool.false_ne_true, BitVec.toNat_add,
        Nat.mod_eq_of_lt whole, isPower] at holds
      have some : size.toNat ≠ 0 := fun zero => nonzero (BitVec.eq_of_toNat_eq zero)
      have room : 2 ^ power < classSize (c.bagNumOf (alignment + size)) := by omega
      rw [if_neg Bool.false_ne_true, isPower]
      exact dvd_block_iff (Config.bagNumOf_lt routed) room ..
  constructor
  · rintro ⟨multiple, object', last, again, -, inside⟩
    obtain ⟨rfl, -⟩ := Prod.mk.inj (Except.ok.inj (inner.symm.trans again))
    obtain ⟨whole, unwrapped⟩ := fits.mp inside
    have holds := Config.size_le_usableSize_iff.mpr unwrapped
    exact ⟨whole, unwrapped, (double whole holds).mp ((dvd_add_mod_iff ..).mp multiple)⟩
  · rintro ⟨whole, unwrapped, aligned⟩
    have holds := Config.size_le_usableSize_iff.mpr unwrapped
    exact ⟨(dvd_add_mod_iff ..).mpr ((double whole holds).mpr aligned), object, lib', inner,
      Nat.le_add_right .., fits.mpr ⟨whole, unwrapped⟩⟩

/-- The first request of 15 bytes at a multiple of 16 in the default build. -/
theorem first_memalign_aligned : ∃ q lib',
    Config.makefile.boot.xxmemalign Config.makefile.heap 0 16 15 plainInputs = .ok (q, lib') ∧
    AlignedBlock Config.makefile 0 16 15 plainInputs Config.makefile.boot q := by
  have routed : Config.makefile.build.IF_CANARY_CONDITION (16 + 15) = false := by decide
  have small : ¬Config.makefile.build.IF_CANARY_CONDITION (16 + 15) = true := by decide
  have isPower : (16 : size_t).toNat = 2 ^ 4 := rfl
  have ok := xxmemalign_ok (by decide) (xxmalloc_small Config.makefile.boot 0 plainInputs routed)
  refine ⟨_, _, ok, ?_⟩
  apply (aligned_block_iff Config.makefile Config.makefile.booted (.nil Config.makefile.library)
    (by decide) isPower (by decide) (supplied_plain _ _) (.inl ok)).mpr
  refine ⟨by decide, by decide, ?_⟩
  rw [DoubleAligned, if_neg small]
  decide

/-- In the default build a first block of `0x400001` bytes at a multiple of 32 is not at one. -/
theorem large_memalign_odd : ∃ lib',
    Supplied Config.makefile.boot (32 + 0x400001) mappedInputs.supply ∧
    Config.makefile.boot.xxmemalign Config.makefile.heap 0 32 0x400001 mappedInputs =
      .ok (0x300000000ffe, lib') ∧
    ¬AlignedBlock Config.makefile 0 32 0x400001 mappedInputs Config.makefile.boot 0x300000000ffe := by
  have routed : Config.makefile.build.IF_CANARY_CONDITION (32 + 0x400001) = true := by decide
  have result : mappedInputs.supply.mmap = some 0x300000000000 := rfl
  obtain ⟨big, mapped, inner⟩ := xxmalloc_large Config.makefile.boot 0 routed result
  have place : 0x300000000000 + (BigHeap.pageUpSize (32 + 0x400001) - (32 + 0x400001)).toNat =
      0x300000000fdf := by decide
  rw [place] at inner
  refine ⟨_, supplied_mapped _ (by decide) (by decide), xxmemalign_ok (by decide) inner, ?_⟩
  exact fun aligned => absurd aligned.multiple (by decide)

end FreeGuard.Soundness.AlignedAllocation
