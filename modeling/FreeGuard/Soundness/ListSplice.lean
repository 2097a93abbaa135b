import FreeGuard.Model.List

/-! # Splicing and transferring circular lists

Two functions of `list.hh` that move whole lists. `listInsertList` reads `list->prev` and
`place->next` after it has overwritten both, so that the inserted chain still leads back to its own
first node and never on to the old successors. `listRetrieveAllItems` hands over the items of any list
that has one; from an empty list it takes the head for an item.
-/

namespace FreeGuard.Soundness.ListSplice

open Model LinkedPath

variable {α : Type*} [DecidableEq α] {links : Links α} {place list dest src : α} {items chain : List α}

/-! ## listInsertList -/

/-- The second link of `listInsertList` repeats the first. -/
theorem listInsertList_eq (links : Links α) (list place : α) :
    listInsertList links list place = listLink links place list := by
  simp [listInsertList, listLink, setNext, setPrev]

/-- The links of the inserted chain stay inside it. -/
theorem listInsertList_closed (inserted : IsRing links list chain) (apart : place ∉ list :: chain) :
    ∀ n ∈ list :: chain, (listInsertList links list place).next n ∈ list :: chain := by
  intro n member
  have notPlace : n ≠ place := fun same => apart (same ▸ member)
  simp only [listInsertList_eq, listLink, setNext, setPrev, Function.update_of_ne notPlace]
  exact inserted.next_mem member

/-- A walk from `place` enters the chain and never comes back. -/
theorem listInsertList_not_ring (inserted : IsRing links list chain) (apart : place ∉ list :: chain)
    (others : List α) : ¬IsRing (listInsertList links list place) place others := by
  intro ring
  have enters : (listInsertList links list place).next place = list := by
    simp [listInsertList_eq, listLink, setNext, setPrev]
  have walk := ring.next_head
  rw [enters] at walk
  exact apart (walk.stop_mem (listInsertList_closed inserted apart) (List.mem_cons_self ..))

/-- Whatever followed `place` before, the result does not go from it through the chain to there. -/
theorem listInsertList_never_splices (inserted : IsRing links list chain)
    (apart : ∀ n ∈ list :: chain, n ∉ place :: items) :
    ¬IsRing (listInsertList links list place) place (list :: chain ++ items) := by
  apply listInsertList_not_ring inserted
  exact fun member => apart place member (List.mem_cons_self ..)

/-- Two lists of two nodes each: 0 with 1, and 2 with 3. -/
def twoPairs : Links ℕ where
  prev := fun n => if n % 2 = 0 then n + 1 else n - 1
  next := fun n => if n % 2 = 0 then n + 1 else n - 1

theorem twoPairs_not_spliced : ¬IsRing (listInsertList twoPairs 2 0) 0 ([2, 3] ++ [1]) :=
  listInsertList_never_splices ⟨by decide, by decide, by decide⟩ (by decide)

/-- After the splice of the two pairs, node 3 leads back to node 2 and node 1 is not reached. -/
theorem twoPairs_loops :
    IsRing twoPairs 0 [1] ∧ IsRing twoPairs 2 [3] ∧
    ¬Path (listInsertList twoPairs 2 0).next 0 [0, 2, 3, 1] 0 ∧
    (listInsertList twoPairs 2 0).next 3 = 2 :=
  ⟨⟨by decide, by decide, by decide⟩, ⟨by decide, by decide, by decide⟩, by decide, by decide⟩

/-! ## listRetrieveAllItems -/

/-- `dest` heads a circular list of the items, `src` an empty one, and the emptiness test of `dest` says
whether there were none. -/
structure Transfers (links : Links α) (dest src : α) (items : List α) : Prop where
  ring : IsRing (listRetrieveAllItems links dest src) dest items
  left : IsRing (listRetrieveAllItems links dest src) src []
  empty : isListEmpty (listRetrieveAllItems links dest src) dest = true ↔ items = []

/-- The old head of an empty list is left under `dest`. -/
theorem listRetrieveAllItems_empty (ring : IsRing links src []) (distinct : dest ≠ src) :
    (listRetrieveAllItems links dest src).next dest = src := by
  have alone : links.next src = src := ring.next_head
  simp [listRetrieveAllItems, listInit, nodeInit, setNext, setPrev, alone, distinct]

theorem listRetrieveAllItems_transfers (ring : IsRing links src items) (nonempty : items ≠ [])
    (fresh : dest ∉ src :: items) : Transfers links dest src items := by
  have moved := ring.rehead nonempty fresh
  have distinct : src ≠ dest := fun same => fresh (same ▸ List.mem_cons_self ..)
  have srcOff : ∀ n ∈ dest :: items, n ≠ src := by
    intro n member same
    rcases List.mem_cons.mp member with rfl | member
    · exact distinct same.symm
    · exact ring.head_not_mem (same ▸ member)
  have whole : IsRing (listRetrieveAllItems links dest src) dest items := by
    apply moved.frame
    · intro n member
      simp [listRetrieveAllItems, listInit, nodeInit, setNext, setPrev, srcOff n member]
    · intro n member
      simp [listRetrieveAllItems, listInit, nodeInit, setNext, setPrev, srcOff n member]
  refine ⟨whole, IsRing.singleton ?_ ?_, isListEmpty_iff whole⟩
  · simp [listRetrieveAllItems, listInit, nodeInit, setNext, setPrev]
  · simp [listRetrieveAllItems, listInit, nodeInit, setNext, setPrev]

/-- The transfer is right exactly when the source list has an item. -/
theorem listRetrieveAllItems_transfers_iff (ring : IsRing links src items)
    (fresh : dest ∉ src :: items) : Transfers links dest src items ↔ items ≠ [] := by
  refine ⟨?_, fun nonempty => listRetrieveAllItems_transfers ring nonempty fresh⟩
  rintro transfers rfl
  have distinct : dest ≠ src := fun same => fresh (same ▸ List.mem_cons_self ..)
  have home : (listRetrieveAllItems links dest src).next dest = dest := transfers.ring.next_head
  rw [listRetrieveAllItems_empty ring distinct] at home
  exact distinct home.symm

/-- A list with one item, 1, under the head 0. -/
def oneItem : Links ℕ where
  prev := fun n => if n = 0 then 1 else 0
  next := fun n => if n = 0 then 1 else 0

theorem oneItem_transferred : Transfers oneItem 2 0 [1] ↔ [1] ≠ [] :=
  listRetrieveAllItems_transfers_iff ⟨by decide, by decide, by decide⟩ (by decide)

/-- From an empty list under 0, `dest` takes over the old head: it is not found empty, and a walk from
it does not return. -/
theorem empty_not_transferred :
    IsRing ⟨id, id⟩ 0 [] ∧ isListEmpty (listRetrieveAllItems ⟨id, id⟩ 1 0) 1 = false ∧
    (listRetrieveAllItems ⟨id, id⟩ 1 0).next 1 = 0 ∧
    (listRetrieveAllItems ⟨id, id⟩ 1 0).next 0 = 0 ∧ ¬Transfers ⟨id, id⟩ 1 0 [] := by
  refine ⟨⟨by decide, by decide, by decide⟩, by decide, by decide, by decide, fun transfers => ?_⟩
  have empty := transfers.empty.mpr rfl
  revert empty
  decide

end FreeGuard.Soundness.ListSplice
