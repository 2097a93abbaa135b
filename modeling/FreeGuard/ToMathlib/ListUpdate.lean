import Mathlib.Data.List.Basic
import Mathlib.Data.List.Nodup
import Mathlib.Data.List.Perm.Basic
import Mathlib.Data.List.Range

/-! # One changed element of a list

Replacing the element at one position, taking out an element, and changing a filter at one element, as
statements about the list around it.
-/

namespace List

variable {α β : Type*} {before after : List α} {x y : α}

/-- A list around one of its positions, before and after replacing the element there. -/
theorem exists_split_of_getElem? {xs : List α} {i : ℕ} {x : α} (found : xs[i]? = some x) :
    ∃ before after, xs = before ++ x :: after ∧ ∀ y, xs.set i y = before ++ y :: after := by
  obtain ⟨bound, rfl⟩ := List.getElem?_eq_some_iff.mp found
  refine ⟨xs.take i, xs.drop (i + 1), ?_, fun y => List.set_eq_take_append_cons_drop.trans ?_⟩
  · simp only [List.getElem_cons_drop, List.take_append_drop]
  · rw [if_pos bound]

/-- Replacing an element by one with the same image does not change the mapped list. -/
theorem filterMap_set_of_eq {f : α → Option β} {xs : List α} {i : ℕ} {x y : α}
    (found : xs[i]? = some x) (same : f y = f x) : (xs.set i y).filterMap f = xs.filterMap f := by
  obtain ⟨before, after, rfl, replaced⟩ := exists_split_of_getElem? found
  simp only [replaced, List.filterMap_append, List.filterMap_cons, same]

theorem mem_middle : y ∈ before ++ x :: after ↔ y = x ∨ y ∈ before ++ after := by
  simp only [List.mem_append, List.mem_cons, or_left_comm]

theorem middle_sublist (before after : List α) (x : α) :
    (before ++ after).Sublist (before ++ x :: after) :=
  (List.sublist_cons_self ..).append_left before

/-- The image of an element that has been taken out of a list with distinct images. -/
theorem map_notMem_of_nodup_middle {f : α → β} (nodup : ((before ++ x :: after).map f).Nodup) :
    f x ∉ (before ++ after).map f := by
  rw [List.map_append, List.map_cons] at nodup
  rw [List.map_append]
  exact (List.nodup_middle.mp nodup).notMem

theorem ne_of_nodup_middle {f : α → β} (nodup : ((before ++ x :: after).map f).Nodup)
    (member : y ∈ before ++ after) : f y ≠ f x := fun same =>
  map_notMem_of_nodup_middle nodup (same ▸ List.mem_map_of_mem member)

/-- Letting one more element through a filter adds that element. -/
theorem filter_perm_cons {p q : α → Bool} {xs : List α} {a : α} (nodup : xs.Nodup) (member : a ∈ xs)
    (off : p a = false) (on : q a = true) (same : ∀ b ≠ a, q b = p b) :
    (xs.filter q).Perm (a :: xs.filter p) := by
  have absent : a ∉ xs.filter p := fun inside => by
    rw [(List.mem_filter.mp inside).2] at off
    cases off
  rw [List.perm_ext_iff_of_nodup (nodup.filter q)
    (List.nodup_cons.mpr ⟨absent, nodup.filter p⟩)]
  intro b
  rw [List.mem_cons, List.mem_filter, List.mem_filter]
  rcases eq_or_ne b a with rfl | equal
  · simp [member, on]
  · simp [equal, same b equal]

end List
