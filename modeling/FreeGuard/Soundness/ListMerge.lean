import FreeGuard.Proofs.FreeList

/-! # Merging free lists

`FREELIST_MERGE` concatenates a cached chain and a free list. The walks of both versions end on every
null-terminated chain. The FIFO list returns at once when the chain is empty; the LIFO list looks for
the chain's last node in any case and writes through the null pointer that it finds.
-/

namespace FreeGuard.Soundness.ListMerge

open Model

variable {build : Build} {links : LinkWords} {slist : SList} {list : FreeList} {source nodes : List ℕ}

/-- The merge ends, the list then holds both sequences as `merged` orders them, and no other node's
link has been written. -/
def Concatenates (links : LinkWords) (slist : SList) (list : FreeList) (source nodes : List ℕ) : Prop :=
  ∃ fuel links' list', FREELIST_MERGE fuel links slist list = some (links', list') ∧
    list'.Holds links' (list.merged source nodes) ∧ ∀ a ∉ source ++ nodes, links' a = links a

/-- An empty chain leaves the FIFO list as it is. -/
theorem merge_empty_fifo (built : list.Built build) (fifo : build.fifo = true)
    (chain : Chain links slist.next []) (fuel : ℕ) :
    FREELIST_MERGE fuel links slist list = some (links, list) := by
  cases list with
  | sll target => exact absurd (fifo.symm.trans built) (by simp)
  | dll target => simp [FREELIST_MERGE, insertAllDLLTail, chain.head_null_iff.mpr rfl]

/-- An empty chain makes the LIFO list write through a null pointer. -/
theorem merge_empty_lifo (built : list.Built build) (lifo : build.fifo = false)
    (chain : Chain links slist.next []) (fuel : ℕ) :
    FREELIST_MERGE fuel links slist list = none := by
  cases list with
  | sll target =>
    simp [FREELIST_MERGE, insertAllSLLHead, getTailSLL, chain.head_null_iff.mpr rfl]
  | dll target => exact absurd (lifo.symm.trans built) (by simp)

/-- A merge concatenates in the FIFO build, and in the LIFO build when the chain has a node. -/
theorem merge_concatenates_iff (holds : list.Holds links nodes) (built : list.Built build)
    (chain : Chain links slist.next source) (apart : ∀ a ∈ source, a ∉ nodes) :
    Concatenates links slist list source nodes ↔ build.fifo = true ∨ source ≠ [] := by
  rcases eq_or_ne source [] with rfl | nonempty
  · refine ⟨fun merges => .inl ?_, fun fifo => ?_⟩
    · obtain ⟨fuel, _, _, ran, _⟩ := merges
      by_contra lifo
      rw [merge_empty_lifo built (Bool.eq_false_iff.mpr lifo) chain] at ran
      cases ran
    · have fifo := fifo.resolve_right (not_not.mpr rfl)
      refine ⟨0, links, list, merge_empty_fifo built fifo chain 0, ?_, fun _ _ => rfl⟩
      cases list with
      | sll target => exact holds
      | dll target => simpa [FreeList.merged] using holds
  · have nodup : (source ++ nodes).Nodup :=
      List.nodup_append.mpr ⟨chain.nodup, holds.nodup, fun a member b inside same =>
        apart a member (same ▸ inside)⟩
    obtain ⟨links', list', ran, merged, _, frame⟩ :=
      merge_holds holds built chain nonempty nodup (Nat.le_refl _)
    exact iff_of_true ⟨_, links', list', ran, merged, frame⟩ (.inr nonempty)

/-- Two cached nodes go behind the one queued, the first cached first. -/
theorem two_behind_one :
    Concatenates (fun a => if a = 16 then 8 else 0) ⟨16⟩ (.dll ⟨24, 24⟩) [16, 8] [24] ↔
      Build.makefile.fifo = true ∨ [16, 8] ≠ [] :=
  merge_concatenates_iff ⟨⟨⟨rfl, rfl⟩, by decide⟩, rfl⟩ rfl ⟨⟨rfl, rfl, rfl⟩, by decide⟩ (by decide)

/-- The default build with LIFO free lists. -/
def lifo : Build := { Build.makefile with fifo := false }

/-- Merging an empty chain into an empty LIFO list has no result. -/
theorem empty_into_lifo : FREELIST_INIT lifo = .sll initSLL ∧
    Chain (fun _ => NULL) initSLL.next [] ∧ FreeList.Holds (fun _ => NULL) [] (.sll initSLL) ∧
    ¬Concatenates (fun _ => NULL) initSLL (.sll initSLL) [] [] := by
  have chain : Chain (fun _ => NULL) initSLL.next [] := ⟨rfl, List.not_mem_nil⟩
  have built : FreeList.Built lifo (.sll initSLL) := rfl
  refine ⟨rfl, chain, chain, ?_⟩
  rintro ⟨fuel, links', list', ran, _⟩
  rw [merge_empty_lifo built rfl chain] at ran
  cases ran

end FreeGuard.Soundness.ListMerge
