import Mathlib.Data.Finset.Card
import Mathlib.Data.Finset.Range
import Mathlib.Data.List.Pairwise
import Mathlib.Tactic.Common

/-! # Regions of an address space

Which bytes are mapped, and a list of regions that are mapped one apart from the other and away from
what is reserved. Mapping a region of fresh bytes adds it to the list, unmapping one of the list takes
it out. Regions of at least a unit below a bound are at most as many as units fit below it.
-/

namespace FreeGuard.Machine

/-- The mapped bytes of an address space. -/
abbrev Mapped := ℕ → Bool

namespace Mapped

/-- The bytes mapped after a range has been mapped. -/
def map (mapped : Mapped) (start length : ℕ) : Mapped :=
  fun a => mapped a || (start ≤ a && a < start + length)

/-- The bytes mapped after a range has been unmapped. -/
def unmap (mapped : Mapped) (start length : ℕ) : Mapped :=
  fun a => mapped a && !(start ≤ a && a < start + length)

variable {mapped : Mapped} {start length a : ℕ}

theorem map_iff : mapped.map start length a = true ↔ mapped a = true ∨ start ≤ a ∧ a < start + length := by
  simp [map]

theorem unmap_iff :
    mapped.unmap start length a = true ↔ mapped a = true ∧ ¬(start ≤ a ∧ a < start + length) := by
  simp only [unmap, Bool.and_eq_true, Bool.not_eq_true', Bool.and_eq_false_iff, decide_eq_false_iff_not]
  tauto

end Mapped

/-- A half-open range of addresses. -/
structure Region where
  start : ℕ
  length : ℕ
deriving DecidableEq, Repr

/-- The bytes of a region. -/
def Region.Covers (region : Region) (a : ℕ) : Prop :=
  region.start ≤ a ∧ a < region.start + region.length

/-- Two regions share no byte. -/
def Region.Apart (r s : Region) : Prop := ∀ a, r.Covers a → ¬s.Covers a

instance : Std.Symm Region.Apart := ⟨fun _ _ apart a second first => apart a first second⟩

/-- The regions are mapped, one apart from the other and from what is reserved, which is mapped too. -/
structure Regions (reserved : ℕ → Prop) (mapped : Mapped) (regions : List Region) : Prop where
  present : ∀ r ∈ regions, ∀ a, r.Covers a → mapped a = true
  apart : regions.Pairwise Region.Apart
  reserved_present : ∀ a, reserved a → mapped a = true
  unreserved : ∀ r ∈ regions, ∀ a, r.Covers a → ¬reserved a

namespace Regions

variable {reserved : ℕ → Prop} {mapped : Mapped} {regions other : List Region} {r : Region}

theorem perm (held : Regions reserved mapped regions) (same : regions.Perm other) :
    Regions reserved mapped other where
  present s member := held.present s (same.mem_iff.mpr member)
  apart := (same.pairwise_iff fun apart => Std.Symm.symm _ _ apart).mp held.apart
  reserved_present := held.reserved_present
  unreserved s member := held.unreserved s (same.mem_iff.mpr member)

/-- A byte lies in the region of one index only. -/
theorem eq_of_covers {ι : Type*} {region : ι → Region} {indices : List ι} {i j : ι} {a : ℕ}
    (held : Regions reserved mapped (indices.map region)) (first : i ∈ indices) (second : j ∈ indices)
    (covers : (region i).Covers a) (also : (region j).Covers a) : i = j := by
  by_contra different
  have symmetric : Std.Symm fun i j : ι => (region i).Apart (region j) :=
    ⟨fun _ _ apart => Std.Symm.symm _ _ apart⟩
  exact (List.pairwise_map.mp held.apart).forall first second different a covers also

/-- Mapping a region of fresh bytes. -/
theorem map (held : Regions reserved mapped regions) (fresh : ∀ a, r.Covers a → mapped a = false) :
    Regions reserved (mapped.map r.start r.length) (r :: regions) := by
  have unmapped : ∀ a, r.Covers a → ¬mapped a = true := by
    intro a covers busy
    rw [fresh a covers] at busy
    cases busy
  refine ⟨?_, ?_, ?_, ?_⟩
  · rintro s member a covers
    rcases List.mem_cons.mp member with rfl | old
    · exact Mapped.map_iff.mpr (.inr covers)
    · exact Mapped.map_iff.mpr (.inl (held.present s old a covers))
  · apply List.Pairwise.cons _ held.apart
    intro s member a covers again
    exact unmapped a covers (held.present s member a again)
  · intro a inside
    exact Mapped.map_iff.mpr (.inl (held.reserved_present a inside))
  · rintro s member a covers inside
    rcases List.mem_cons.mp member with rfl | old
    · exact unmapped a covers (held.reserved_present a inside)
    · exact held.unreserved s old a covers inside

/-- Unmapping a region of the list. -/
theorem unmap (held : Regions reserved mapped (r :: regions)) :
    Regions reserved (mapped.unmap r.start r.length) regions := by
  obtain ⟨first, rest⟩ := List.pairwise_cons.mp held.apart
  refine ⟨?_, rest, ?_, ?_⟩
  · intro s member a covers
    have present := held.present s (List.mem_cons_of_mem _ member) a covers
    exact Mapped.unmap_iff.mpr ⟨present, fun also => first s member a also covers⟩
  · intro a inside
    have unreserved := held.unreserved r (List.mem_cons_self ..) a
    exact Mapped.unmap_iff.mpr ⟨held.reserved_present a inside, fun also => unreserved also inside⟩
  · intro s member
    exact held.unreserved s (List.mem_cons_of_mem _ member)

/-- Regions of at least a unit below a bound start in different units. -/
theorem length_le (held : Regions reserved mapped regions) {size count : ℕ} (positive : 0 < size)
    (long : ∀ r ∈ regions, size ≤ r.length)
    (bounded : ∀ r ∈ regions, r.start + r.length ≤ count * size) : regions.length ≤ count := by
  have cells : (regions.map fun r => r.start / size).Nodup := by
    rw [List.Nodup, List.pairwise_map]
    apply held.apart.imp_of_mem
    intro r s inR inS apart same
    have longR := long r inR
    have longS := long s inS
    have atR := apart r.start ⟨le_rfl, by omega⟩
    have atS := fun covers => apart s.start covers ⟨le_rfl, by omega⟩
    simp only [Region.Covers, not_and, not_lt] at atR atS
    have quotR := Nat.div_add_mod r.start size
    have quotS := Nat.div_add_mod s.start size
    have remR := Nat.mod_lt r.start positive
    have remS := Nat.mod_lt s.start positive
    rw [same] at quotR
    rcases Nat.le_total r.start s.start with before | after
    · have := atS ⟨before, by omega⟩
      omega
    · have := atR after
      omega
  have below : (regions.map fun r => r.start / size).toFinset ⊆ Finset.range count := by
    intro cell member
    obtain ⟨r, inside, rfl⟩ := List.mem_map.mp (List.mem_toFinset.mp member)
    have longR := long r inside
    have top := bounded r inside
    exact Finset.mem_range.mpr ((Nat.div_lt_iff_lt_mul positive).mpr (by omega))
  have few := Finset.card_le_card below
  rwa [List.toFinset_card_of_nodup cells, List.length_map, Finset.card_range] at few

end Regions

end FreeGuard.Machine
