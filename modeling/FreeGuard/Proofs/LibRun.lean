import FreeGuard.Machine.Run
import FreeGuard.Proofs.Library

/-! # Runs of the library

A discipline says which allocations and which deallocations a run makes; a reallocation makes one of
each. An invariant that the moves of the two heaps preserve under a discipline holds along every run
under it. Two invariants serve most results: under the discipline that keeps the bump pointers in the
heap, every live or queued slot is in one of its heaps; under the one that also frees only where a slot
starts, every queued slot is in a list of its own bag.
-/

namespace FreeGuard.Model

open Machine

variable {c : Config} {s t : LibSystem} {event : LibEvent} {events : List LibEvent}

/-- Which allocations and which deallocations a run makes. -/
structure Discipline where
  alloc : LibFreeGuard → ℕ → size_t → Inputs → Prop
  free : ℕ → Prop

/-- The calls that an event gets to follow the discipline. -/
def Discipline.Meets (d : Discipline) (heap : BibopHeap) (system : LibSystem) : LibEvent → Prop
  | .malloc threadIndex size inputs => d.alloc system.lib threadIndex size inputs
  | .free _ ptr => d.free ptr
  | .realloc threadIndex ptr sz inputs =>
    (Reallocates heap ptr sz system.lib → d.alloc system.lib threadIndex sz inputs) ∧
      (ptr ≠ NULL → sz = 0 ∨ Reallocates heap ptr sz system.lib → d.free ptr)
  | .store .. => True

/-- The moves preserve an invariant under a discipline. -/
structure Preserves (c : Config) (d : Discipline) (inv : LibSystem → Pool c → Entries → Prop) :
    Prop where
  malloc : ∀ {s : LibSystem} {pool pool' : Pool c} {entries entries' : Entries} {threadIndex p : ℕ}
    {size : size_t} {inputs : Inputs} {lib' : LibFreeGuard}, inv s pool entries →
    Consistent c s.lib pool entries → d.alloc s.lib threadIndex size inputs →
    Malloced c threadIndex size inputs s.lib pool entries p lib' pool' entries' →
    inv ⟨lib', (p, ownerOf c.heap.build size) :: s.live⟩ pool' entries'
  free : ∀ {s : LibSystem} {pool pool' : Pool c} {entries entries' : Entries} {threadIndex ptr : ℕ}
    {lib' : LibFreeGuard}, inv s pool entries → Consistent c s.lib pool entries → d.free ptr →
    Freed c threadIndex ptr s.lib pool entries lib' pool' entries' →
    inv ⟨lib', dropLive ptr s.live⟩ pool' entries'
  write : ∀ {s : LibSystem} {pool : Pool c} {entries : Entries} (mem : ℕ → UInt8),
    inv s pool entries → inv ⟨s.lib.withMem mem, s.live⟩ pool entries

namespace Preserves

variable {d : Discipline} {inv : LibSystem → Pool c → Entries → Prop}

/-- A step is the moves of the calls that it gets to. -/
theorem step (kept : Preserves c d inv) {pool : Pool c} {entries : Entries}
    (held : Consistent c s.lib pool entries) (start : inv s pool entries)
    (meets : d.Meets c.heap s event) (step : LibStep c.heap s event t) :
    ∃ pool' entries', Consistent c t.lib pool' entries' ∧ inv t pool' entries' := by
  cases step with
  | malloc thread supplied ok =>
    obtain ⟨pool', entries', move, after⟩ := held.xxmalloc thread supplied ok
    exact ⟨pool', entries', after, kept.malloc start held meets move⟩
  | free thread ok =>
    obtain ⟨pool', entries', move, after⟩ := held.xxfree thread ok
    exact ⟨pool', entries', after, kept.free start held meets move⟩
  | store => exact ⟨pool, entries, held.withMem _, kept.write _ start⟩
  | @realloc threadIndex ptr result sz inputs lib thread supplied ok =>
    cases xxrealloc_cases ok with
    | fresh null ok =>
      obtain ⟨pool', entries', move, after⟩ := held.xxmalloc thread supplied ok
      rw [liveAfterRealloc, if_pos null]
      exact ⟨pool', entries', after, kept.malloc start held (meets.1 (.inl null)) move⟩
    | freed nonnull zero ok =>
      obtain ⟨pool', entries', move, after⟩ := held.xxfree thread ok
      rw [liveAfterRealloc, if_neg nonnull, if_pos zero]
      exact ⟨pool', entries', after, kept.free start held (meets.2 nonnull (.inl zero)) move⟩
    | unknown nonnull nonzero sized =>
      rw [liveAfterRealloc, if_neg nonnull, if_neg nonzero, sized]
      exact ⟨pool, entries, held, start⟩
    | kept nonnull nonzero sized known enough =>
      rw [liveAfterRealloc, if_neg nonnull, if_neg nonzero, sized]
      simp only [ge_iff_le, enough, or_true, if_true]
      exact ⟨pool, entries, held, start⟩
    | @moved oldSize q mid lib nonnull nonzero sized known short ok freed =>
      have reallocates : Reallocates c.heap ptr sz s.lib := .inr ⟨nonzero, _, sized, known, short⟩
      obtain ⟨pool₁, entries₁, move, between⟩ := held.xxmalloc thread supplied ok
      have copied := between.withMem (mid.memcpy result ptr oldSize.toNat).small.mem
      obtain ⟨pool₂, entries₂, release, after⟩ := copied.xxfree thread freed
      have first := kept.malloc start held (meets.1 reallocates) move
      have second := kept.write (mid.memcpy result ptr oldSize.toNat).small.mem first
      have last := kept.free second copied (meets.2 nonnull (.inr reallocates)) release
      have unfit : ¬(oldSize = -1 ∨ oldSize ≥ sz) := not_or.mpr ⟨known, BitVec.not_le.mpr short⟩
      rw [liveAfterRealloc, if_neg nonnull, if_neg nonzero, sized]
      simp only [if_neg unfit]
      exact ⟨pool₂, entries₂, after, last⟩

/-- Every run under the discipline keeps the invariant. -/
theorem run (kept : Preserves c d inv)
    (run : Run (Guarded (d.Meets c.heap) (LibStep c.heap)) s events t)
    (start : ∃ pool entries, Consistent c s.lib pool entries ∧ inv s pool entries) :
    ∃ pool entries, Consistent c t.lib pool entries ∧ inv t pool entries := by
  apply run.invariant (fun s => ∃ pool entries, Consistent c s.lib pool entries ∧ inv s pool entries)
    _ start
  rintro s event t ⟨pool, entries, held, inv⟩ ⟨meets, step⟩
  exact kept.step held inv meets step

end Preserves

/-! ## Disciplines -/

/-- Any calls. -/
def Discipline.any : Discipline := ⟨fun _ _ _ _ => True, fun _ => True⟩

theorem preserves_true (c : Config) : Preserves c .any fun _ _ _ => True where
  malloc _ _ _ _ := trivial
  free _ _ _ _ := trivial
  write _ _ := trivial

/-- Every state that a run reaches is consistent. -/
theorem exists_consistent (booted : Booted c s.lib) (run : Run (LibStep c.heap) s events t) :
    ∃ pool entries, Consistent c t.lib pool entries := by
  have guarded : Run (Guarded (Discipline.any.Meets c.heap) (LibStep c.heap)) s events t := by
    apply run.mono
    intro a e b step
    refine ⟨?_, step⟩
    cases e with
    | malloc | free | store => trivial
    | realloc => exact ⟨fun _ => trivial, fun _ _ => trivial⟩
  obtain ⟨pool, entries, held, -⟩ :=
    (preserves_true c).run guarded ⟨_, _, booted.consistent, trivial⟩
  exact ⟨pool, entries, held⟩

/-- Bump pointers stay in the heap. -/
def Discipline.inside (c : Config) : Discipline := ⟨BumpsInside c, fun _ => True⟩

/-- Bump pointers stay in the heap, and deallocations at the small heap are of addresses where an
object starts. -/
def Discipline.orderly (c : Config) : Discipline :=
  ⟨BumpsInside c, fun ptr => c.heap.isSmallObject ptr = true → ∃ x : Slot c, x.addr = ptr⟩

/-- Every live or queued slot is in one of the heaps. -/
def HeldInside (pool : Pool c) : Prop := ∀ x : Slot c, pool.Held x → x.heap < BIBOP_NUM_HEAPS

theorem heldInside_fresh : HeldInside (SlotPool.fresh : Pool c) := by
  rintro x (live | ⟨q, queued⟩)
  · exact absurd live (Set.notMem_empty x)
  · exact absurd queued List.not_mem_nil

section Moves

variable {lib lib' : LibFreeGuard} {pool pool' : Pool c} {entries entries' : Entries}
  {threadIndex ptr p : ℕ} {size : size_t} {inputs : Inputs}

theorem HeldInside.malloc (inside : HeldInside pool) (rep : Represents c lib.small pool)
    (bumps : BumpsInside c lib threadIndex size inputs)
    (move : Malloced c threadIndex size inputs lib pool entries p lib' pool' entries') :
    HeldInside pool' := by
  cases move with
  | large => exact inside
  | small routed ran step =>
    intro y held
    rcases step.held held with old | ⟨_, _, _, thread, _, same, l, lane, uses, rfl, -⟩
    · exact inside y old
    · cases same
      subst lane
      have below := bumps routed uses
      have position := (rep.lanes (c.laneOf thread routed inputs.draws)).position
      rw [← Slot.addr_lt_heapEnd_iff, ← position]
      exact below

theorem HeldInside.free (inside : HeldInside pool)
    (move : Freed c threadIndex ptr lib pool entries lib' pool' entries') : HeldInside pool' := by
  cases move with
  | ignored => exact inside
  | large => exact inside
  | small isSmall ran step =>
    intro y held
    rcases step.held held with old | ⟨_, _, _, _, _, same, _⟩
    · exact inside y old
    · cases same

theorem Own.malloc (own : Own pool)
    (move : Malloced c threadIndex size inputs lib pool entries p lib' pool' entries') :
    Own pool' := by
  cases move with
  | large => exact own
  | small routed ran step =>
    have frees : FreesSlot c (.malloc threadIndex size inputs.draws) := trivial
    exact own.step frees step

theorem Own.free (own : Own pool)
    (slot : c.heap.isSmallObject ptr = true → ∃ x : Slot c, x.addr = ptr)
    (move : Freed c threadIndex ptr lib pool entries lib' pool' entries') : Own pool' := by
  cases move with
  | ignored => exact own
  | large => exact own
  | small isSmall ran step =>
    have frees : FreesSlot c (.free threadIndex ptr) := slot isSmall
    exact own.step frees step

end Moves

theorem preserves_inside (c : Config) :
    Preserves c (.inside c) fun _ pool _ => HeldInside pool where
  malloc inside held bumps move := inside.malloc held.small bumps move
  free inside _ _ move := inside.free move
  write _ inside := inside

theorem preserves_orderly (c : Config) :
    Preserves c (.orderly c) fun _ pool _ => HeldInside pool ∧ Own pool where
  malloc both held bumps move :=
    ⟨(preserves_inside c).malloc both.1 held bumps move, both.2.malloc move⟩
  free both held slot move :=
    ⟨(preserves_inside c).free both.1 held trivial move, both.2.free slot move⟩
  write _ both := both

/-- Every state that an orderly run reaches is consistent, its slots in the heap and in their own lists. -/
theorem exists_orderly (booted : Booted c s.lib)
    (run : Run (Guarded ((Discipline.orderly c).Meets c.heap) (LibStep c.heap)) s events t) :
    ∃ pool entries, Consistent c t.lib pool entries ∧ HeldInside pool ∧ Own pool :=
  (preserves_orderly c).run run ⟨_, _, booted.consistent, heldInside_fresh, own_fresh⟩

/-- What is supplied does not depend on the small heap. -/
theorem Supplied.withSmall {lib : LibFreeGuard} {size : size_t} {supply : Supply}
    (supplied : Supplied lib size supply) (small : HeapState) :
    Supplied { lib with small := small } size supply :=
  ⟨supplied.objStatus, supplied.entry, supplied.mmap⟩

/-- Allocations at the small heap are the library's. -/
theorem lift_allocations {a b : HeapSystem} {threadIndex n : ℕ} {size : size_t} {inputs : Inputs}
    (run : Run (HeapStep c.heap) a (List.replicate n (.malloc threadIndex size inputs.draws)) b)
    (routed : c.build.IF_CANARY_CONDITION size = false) (supplied : Supplied s.lib size inputs.supply)
    (small : s.lib.small = a.state) :
    ∃ t, Run (LibStep c.heap) s (List.replicate n (.malloc threadIndex size inputs)) t ∧
      t.lib = { s.lib with small := b.state } := by
  induction n generalizing s a with
  | zero =>
    cases run
    refine ⟨s, .nil s, ?_⟩
    rw [← small]
  | succ n ih =>
    rw [List.replicate_succ] at run
    cases run with
    | cons head rest =>
      cases head with
      | malloc thread =>
        have ok := xxmalloc_small s.lib threadIndex inputs routed
        have step := LibStep.malloc s thread supplied ok
        have still := supplied.withSmall
          (c.heap.allocateSmallObject threadIndex size inputs.draws s.lib.small).2
        obtain ⟨t, run, same⟩ := ih rest (s := ⟨_, _⟩) still (by rw [small]; rfl)
        exact ⟨t, List.replicate_succ ▸ .cons step run, same⟩

end FreeGuard.Model
