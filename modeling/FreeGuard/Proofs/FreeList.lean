import FreeGuard.Model.FreeList
import FreeGuard.ToMathlib.LinkedPath

/-! # Free lists as node sequences

`FreeList.Holds` relates a list head and the link words to the sequence of nodes queued there: a
null-terminated path, whose last node the doubly linked head also records. Each macro acts on that
sequence as its name says and writes the links of no node outside it.
-/

namespace FreeGuard.Model

open LinkedPath

/-- A null-terminated chain of non-null nodes. -/
def Chain (links : LinkWords) (head : ℕ) (nodes : List ℕ) : Prop :=
  Path links head nodes NULL ∧ NULL ∉ nodes

/-- The nodes queued at a list head, first to last. -/
def FreeList.Holds (links : LinkWords) (nodes : List ℕ) : FreeList → Prop
  | .sll slist => Chain links slist.next nodes
  | .dll dlist => Chain links dlist.next nodes ∧ dlist.prev = nodes.getLastD NULL

/-- `FREELIST_TYPE` is the doubly linked head exactly in the FIFO build. -/
def FreeList.Built (build : Build) : FreeList → Prop
  | .sll _ => build.fifo = false
  | .dll _ => build.fifo = true

/-- The sequence after `FREELIST_INSERT`: in front in the LIFO list, at the end in the FIFO list. -/
def FreeList.inserted {α : Type*} (node : α) (nodes : List α) : FreeList → List α
  | .sll _ => node :: nodes
  | .dll _ => nodes ++ [node]

/-- The sequence after `FREELIST_MERGE`. -/
def FreeList.merged {α : Type*} (source nodes : List α) : FreeList → List α
  | .sll _ => source ++ nodes
  | .dll _ => nodes ++ source.reverse

variable {links other : LinkWords} {head node fuel : ℕ} {nodes source : List ℕ} {list : FreeList}

theorem Chain.frame (chain : Chain links head nodes) (same : ∀ a ∈ nodes, other a = links a) :
    Chain other head nodes :=
  ⟨chain.1.frame same, chain.2⟩

/-- A head and the links determine what is queued. -/
theorem Chain.unique {others : List ℕ} (chain : Chain links head nodes)
    (also : Chain links head others) : nodes = others :=
  chain.1.unique also.1 chain.2 also.2

/-- No node is queued twice. -/
theorem Chain.nodup (chain : Chain links head nodes) : nodes.Nodup := chain.1.nodup chain.2

theorem FreeList.Holds.nodup (holds : list.Holds links nodes) : nodes.Nodup := by
  cases list with
  | sll slist => exact Chain.nodup holds
  | dll dlist => exact Chain.nodup holds.1

theorem FreeList.Holds.unique {others : List ℕ} (holds : list.Holds links nodes)
    (also : list.Holds links others) : nodes = others := by
  cases list with
  | sll slist => exact Chain.unique holds also
  | dll dlist => exact Chain.unique holds.1 also.1

theorem FreeList.Holds.frame (holds : list.Holds links nodes)
    (same : ∀ a ∈ nodes, other a = links a) : list.Holds other nodes := by
  cases list with
  | sll slist => exact Chain.frame holds same
  | dll dlist => exact ⟨Chain.frame holds.1 same, holds.2⟩

theorem FreeList.inserted_perm {α : Type*} (node : α) (nodes : List α) (list : FreeList) :
    (list.inserted node nodes).Perm (node :: nodes) := by
  cases list with
  | sll slist => exact .refl _
  | dll dlist => exact List.perm_append_singleton node nodes

theorem FreeList.merged_perm {α : Type*} (source nodes : List α) (list : FreeList) :
    (list.merged source nodes).Perm (source ++ nodes) := by
  cases list with
  | sll slist => exact .refl _
  | dll dlist => exact ((List.reverse_perm source).append_left nodes).trans List.perm_append_comm

theorem FreeList.map_inserted {α : Type*} (f : α → ℕ) (node : α) (nodes : List α) (list : FreeList) :
    (list.inserted node nodes).map f = list.inserted (f node) (nodes.map f) := by
  cases list <;> simp [inserted]

theorem FreeList.map_merged {α : Type*} (f : α → ℕ) (source nodes : List α) (list : FreeList) :
    (list.merged source nodes).map f = list.merged (source.map f) (nodes.map f) := by
  cases list <;> simp [merged]

theorem holds_init (build : Build) (links : LinkWords) : (FREELIST_INIT build).Holds links [] := by
  unfold FREELIST_INIT
  split
  · exact ⟨⟨rfl, List.not_mem_nil⟩, rfl⟩
  · exact ⟨rfl, List.not_mem_nil⟩

theorem built_init (build : Build) : (FREELIST_INIT build).Built build := by
  unfold FREELIST_INIT
  split
  · next fifo => exact fifo
  · next lifo => exact Bool.eq_false_iff.mpr lifo

/-- A chain is empty exactly when its head is null. -/
theorem Chain.head_null_iff (chain : Chain links head nodes) : head = NULL ↔ nodes = [] := by
  cases nodes with
  | nil => exact ⟨fun _ => rfl, fun _ => chain.1⟩
  | cons first rest =>
    refine ⟨fun null => ?_, fun empty => absurd empty (List.cons_ne_nil _ _)⟩
    exact absurd (List.mem_cons_self ..) (null ▸ chain.1.1 ▸ chain.2)

theorem isEmpty_iff (holds : list.Holds links nodes) : IS_FREELIST_EMPTY list = true ↔ nodes = [] := by
  cases list with
  | sll slist => simpa [IS_FREELIST_EMPTY, isSLLEmpty] using Chain.head_null_iff holds
  | dll dlist => simpa [IS_FREELIST_EMPTY, isDLLEmpty] using Chain.head_null_iff holds.1

/-- The last queued node is null exactly when nothing is queued. -/
theorem getLastD_null_iff (nonnull : NULL ∉ nodes) : nodes.getLastD NULL = NULL ↔ nodes = [] := by
  constructor
  · intro null
    rcases List.eq_nil_or_concat nodes with rfl | ⟨front, last, rfl⟩
    · rfl
    · rw [List.concat_eq_append, List.getLastD_concat] at null
      simp [List.concat_eq_append, null] at nonnull
  · rintro rfl
    rfl

/-- Removing from a non-empty list yields its first node; the links are only read. -/
theorem remove_holds (holds : list.Holds links (node :: nodes)) :
    (FREELIST_REMOVE links list).1 = node ∧ (FREELIST_REMOVE links list).2.Holds links nodes := by
  cases list with
  | sll slist =>
    obtain ⟨⟨rfl, tail⟩, nonnull⟩ := holds
    exact ⟨rfl, tail, fun member => nonnull (List.mem_cons_of_mem _ member)⟩
  | dll dlist =>
    obtain ⟨⟨⟨rfl, tail⟩, nonnull⟩, last⟩ := holds
    have restNonnull : NULL ∉ nodes := fun member => nonnull (List.mem_cons_of_mem _ member)
    have rest : Chain links (links dlist.next) nodes := ⟨tail, restNonnull⟩
    have empty_iff := rest.head_null_iff
    refine ⟨rfl, ⟨tail, restNonnull⟩, ?_⟩
    change (if links dlist.next = NULL then NULL else dlist.prev) = nodes.getLastD NULL
    split_ifs with replacement
    · rw [empty_iff.mp replacement]
      rfl
    · rw [last]
      cases nodes with
      | nil => exact absurd (empty_iff.mpr rfl) replacement
      | cons second rest => simp

/-- Only the link of the first node matters. -/
theorem remove_congr (holds : list.Holds links (node :: nodes)) (same : other node = links node) :
    FREELIST_REMOVE other list = FREELIST_REMOVE links list := by
  cases list with
  | sll slist =>
    obtain ⟨⟨rfl, -⟩, -⟩ := holds
    simp [FREELIST_REMOVE, removeSLLHead, same]
  | dll dlist =>
    obtain ⟨⟨⟨rfl, -⟩, -⟩, -⟩ := holds
    simp [FREELIST_REMOVE, removeDLLHead, same]

theorem remove_built {build : Build} (built : list.Built build) :
    (FREELIST_REMOVE links list).2.Built build := by
  cases list <;> exact built

/-- Inserting a fresh node puts it on the list's side of the sequence. -/
theorem insert_holds (holds : list.Holds links nodes) (nodup : nodes.Nodup) (fresh : node ∉ nodes)
    (nonnull : node ≠ NULL) :
    (FREELIST_INSERT links node list).2.Holds (FREELIST_INSERT links node list).1
      (list.inserted node nodes) := by
  cases list with
  | sll slist =>
    obtain ⟨path, nonnulls⟩ := holds
    exact ⟨path.push_front fresh, by simpa [FreeList.inserted] using ⟨nonnull.symm, nonnulls⟩⟩
  | dll dlist =>
    obtain ⟨⟨path, nonnulls⟩, last⟩ := holds
    have empty_iff := getLastD_null_iff nonnulls
    have nonnulls' : NULL ∉ nodes ++ [node] := by simpa using ⟨nonnulls, nonnull.symm⟩
    simp only [FREELIST_INSERT, insertDLLTail, FreeList.inserted]
    split_ifs with occupied
    · -- the old tail exists: the fresh node is spliced after it
      refine ⟨⟨?_, nonnulls'⟩, (List.getLastD_concat ..).symm⟩
      rcases List.eq_nil_or_concat nodes with rfl | ⟨front, old, rfl⟩
      · exact absurd last occupied
      rw [List.concat_eq_append] at *
      rw [List.getLastD_concat] at last
      have oldFront : old ∉ front := fun member =>
        (List.nodup_append.mp nodup).2.2 _ member _ (List.mem_singleton_self _) rfl
      rw [last]
      refine (path.update_off fresh NULL).splice (⟨rfl, Function.update_self ..⟩ : Path _ _ [node] _)
        oldFront ?_
      simp only [List.mem_singleton]
      rintro rfl
      exact fresh (List.mem_append_right _ (List.mem_singleton_self _))
    · rw [not_not.mp occupied, eq_comm, empty_iff] at last
      subst last
      exact ⟨⟨⟨rfl, Function.update_self ..⟩, nonnulls'⟩, rfl⟩

theorem insert_built {build : Build} (built : list.Built build) :
    (FREELIST_INSERT links node list).2.Built build := by
  cases list with
  | sll slist => exact built
  | dll dlist => simp only [FREELIST_INSERT]; exact built

/-- Inserting writes the links of the node and of queued nodes only. -/
theorem insert_frame (holds : list.Holds links nodes) {a : ℕ} (off : a ∉ node :: nodes) :
    (FREELIST_INSERT links node list).1 a = links a := by
  obtain ⟨notNode, notQueued⟩ : a ≠ node ∧ a ∉ nodes := by simpa using off
  cases list with
  | sll slist => exact Function.update_of_ne notNode _ _
  | dll dlist =>
    obtain ⟨⟨path, nonnulls⟩, last⟩ := holds
    simp only [FREELIST_INSERT, insertDLLTail]
    split_ifs with occupied
    · have notLast : a ≠ dlist.prev := by
        rintro rfl
        rw [last] at notQueued occupied
        cases nodes with
        | nil => exact occupied rfl
        | cons first rest =>
          exact notQueued (by rw [List.getLastD_cons]; exact List.getLastD_mem_cons)
      change Function.update (Function.update links node NULL) dlist.prev node a = links a
      simp only [Function.update_of_ne notLast, Function.update_of_ne notNode]
    · exact Function.update_of_ne notNode _ _

/-- The head after an insertion depends on no link, and link words that agree at a node still do. -/
theorem insert_congr (links other : LinkWords) (node : ℕ) (list : FreeList) :
    (FREELIST_INSERT other node list).2 = (FREELIST_INSERT links node list).2 ∧
      ∀ a, other a = links a → (FREELIST_INSERT other node list).1 a = (FREELIST_INSERT links node list).1 a := by
  cases list with
  | sll slist =>
    refine ⟨rfl, fun a same => ?_⟩
    simp [FREELIST_INSERT, insertSLLHead, Function.update_apply, same]
  | dll dlist =>
    simp only [FREELIST_INSERT, insertDLLTail]
    split
    · refine ⟨rfl, fun a same => ?_⟩
      simp [Function.update_apply, same]
    · refine ⟨rfl, fun a same => ?_⟩
      simp [Function.update_apply, same]

/-! ## Merging -/

private theorem tailFrom_chain {first last : ℕ} {front : List ℕ}
    (chain : Chain links first (front ++ [last])) (enough : front.length < fuel) :
    tailFrom links fuel first = some last := by
  induction front generalizing first fuel with
  | nil =>
    obtain ⟨⟨rfl, stop⟩, _⟩ := chain
    cases fuel with
    | zero => exact absurd enough (Nat.not_lt_zero _)
    | succ fuel => simp [tailFrom, show links first = NULL from stop]
  | cons second rest ih =>
    obtain ⟨⟨rfl, tail⟩, nonnull⟩ := chain
    have tailNonnull : NULL ∉ rest ++ [last] := fun member => nonnull (List.mem_cons_of_mem _ member)
    cases fuel with
    | zero => exact absurd enough (Nat.not_lt_zero _)
    | succ fuel =>
      have more : links first ≠ NULL := fun null => by
        have remaining : Chain links (links first) (rest ++ [last]) := ⟨tail, tailNonnull⟩
        have empty := remaining.head_null_iff.mp null
        exact List.append_ne_nil_of_right_ne_nil _ (List.cons_ne_nil _ _) empty
      rw [tailFrom, if_pos more]
      exact ih ⟨tail, tailNonnull⟩ (by simpa using enough)

/-- The reversing loop turns a chain around onto an accumulated path and writes no other link. -/
private theorem reverseOnto_chain {segment1 segment2 stop : ℕ} {acc : List ℕ}
    (chain : Chain links segment1 source) (nonempty : source ≠ []) (nodup : source.Nodup)
    (onto : Path links segment2 acc stop) (apart : ∀ a ∈ source, a ∉ acc)
    (enough : source.length ≤ fuel) :
    ∃ links' first, reverseOnto fuel links segment1 segment2 = some (links', first) ∧
      Path links' first (source.reverse ++ acc) stop ∧ ∀ a ∉ source, links' a = links a := by
  induction source generalizing links segment1 segment2 acc fuel with
  | nil => exact absurd rfl nonempty
  | cons x rest ih =>
    obtain ⟨⟨rfl, tail⟩, nonnull⟩ := chain
    have tailNonnull : NULL ∉ rest := fun member => nonnull (List.mem_cons_of_mem _ member)
    obtain ⟨headOff, restNodup⟩ := List.nodup_cons.mp nodup
    have extended := onto.push_front (apart segment1 (List.mem_cons_self ..))
    cases fuel with
    | zero => simp at enough
    | succ fuel =>
      have remaining : Chain links (links segment1) rest := ⟨tail, tailNonnull⟩
      have empty_iff := remaining.head_null_iff
      rcases eq_or_ne (links segment1) NULL with more | more
      · obtain rfl := empty_iff.mp more
        refine ⟨_, segment1, by simp only [reverseOnto, more, ne_eq, not_true_eq_false, ↓reduceIte],
          extended, ?_⟩
        intro a off
        exact Function.update_of_ne (by simpa using off) _ _
      · have restNonempty : rest ≠ [] := fun empty => more (empty_iff.mpr empty)
        obtain ⟨links', first, ran, path, frame⟩ := ih
          (⟨tail.update_off headOff segment2, tailNonnull⟩ :
            Chain (Function.update links segment1 segment2) _ _) restNonempty restNodup extended
          (by
            intro a member inAcc
            rcases List.mem_cons.mp inAcc with rfl | inAcc
            · exact headOff member
            · exact apart a (List.mem_cons_of_mem _ member) inAcc)
          (by simpa using enough)
        refine ⟨links', first, by simp only [reverseOnto, ne_eq, more, not_false_eq_true, ↓reduceIte, ran],
          by simpa using path, ?_⟩
        intro a off
        obtain ⟨notHead, notRest⟩ : a ≠ segment1 ∧ a ∉ rest := by simpa using off
        simp only [frame a notRest, Function.update_of_ne notHead]

/-- Merging a non-empty source chain with enough fuel empties it into the list, and writes the links
of source and list nodes only. -/
theorem merge_holds {build : Build} {slist : SList} (holds : list.Holds links nodes)
    (built : list.Built build) (chain : Chain links slist.next source) (nonempty : source ≠ [])
    (nodup : (source ++ nodes).Nodup) (enough : source.length ≤ fuel) :
    ∃ links' list', FREELIST_MERGE fuel links slist list = some (links', list') ∧
      list'.Holds links' (list.merged source nodes) ∧ list'.Built build ∧
      ∀ a ∉ source ++ nodes, links' a = links a := by
  obtain ⟨sourceNodup, nodesNodup, disjoint⟩ := List.nodup_append.mp nodup
  have headNonnull : slist.next ≠ NULL := fun null => nonempty (chain.head_null_iff.mp null)
  cases list with
  | sll target =>
    obtain ⟨path, nonnulls⟩ := holds
    rcases List.eq_nil_or_concat source with rfl | ⟨front, last, rfl⟩
    · exact absurd rfl nonempty
    rw [List.concat_eq_append] at *
    have tail := tailFrom_chain chain (by simpa [Nat.succ_le_iff] using enough : front.length < fuel)
    have lastNonnull : last ≠ NULL := fun null => chain.2 (by simp [null])
    have lastFront : last ∉ front := fun member =>
      (List.nodup_append.mp sourceNodup).2.2 _ member _ (List.mem_singleton_self _) rfl
    have lastApart : last ∉ nodes := fun member => disjoint last (by simp) last member rfl
    refine ⟨Function.update links last target.next, .sll ⟨slist.next⟩, ?_, ⟨?_, ?_⟩, built, ?_⟩
    · simp [FREELIST_MERGE, insertAllSLLHead, getTailSLL, headNonnull, tail, lastNonnull]
    · exact chain.1.splice path lastFront lastApart
    · exact fun member => (List.mem_append.mp member).elim chain.2 nonnulls
    · intro a off
      exact Function.update_of_ne (fun same => off (by simp [same])) _ _
  | dll target =>
    obtain ⟨⟨path, nonnulls⟩, last⟩ := holds
    obtain ⟨links', first, ran, reversed, frame⟩ := reverseOnto_chain chain nonempty sourceNodup
      (path_nil.mpr rfl : Path links NULL [] NULL) (fun _ _ => List.not_mem_nil) enough
    rw [List.append_nil] at reversed
    have empty_iff := getLastD_null_iff nonnulls
    have kept : Path links' target.next nodes NULL :=
      path.frame fun a member => frame a fun inSource => disjoint a inSource a member rfl
    have nonnulls' : NULL ∉ nodes ++ source.reverse := by simpa using ⟨nonnulls, chain.2⟩
    have newLast : slist.next = (nodes ++ source.reverse).getLastD NULL := by
      cases source with
      | nil => exact absurd rfl nonempty
      | cons x rest =>
        rw [List.reverse_cons, ← List.append_assoc, List.getLastD_concat]
        exact chain.1.1
    rcases eq_or_ne target.prev NULL with occupied | occupied
    · rw [occupied, eq_comm, empty_iff] at last
      subst last
      refine ⟨links', .dll ⟨first, slist.next⟩, ?_, ⟨⟨?_, nonnulls'⟩, newLast⟩, built, ?_⟩
      · simp [FREELIST_MERGE, insertAllDLLTail, headNonnull, ran, occupied]
      · exact reversed
      · exact fun a off => frame a fun member => off (List.mem_append_left _ member)
    · rcases List.eq_nil_or_concat nodes with rfl | ⟨front, old, rfl⟩
      · exact absurd last occupied
      rw [List.concat_eq_append] at *
      rw [List.getLastD_concat] at last
      have oldFront : old ∉ front := fun member =>
        (List.nodup_append.mp nodesNodup).2.2 _ member _ (List.mem_singleton_self _) rfl
      have oldApart : old ∉ source.reverse := fun member =>
        disjoint old (List.mem_reverse.mp member) old (by simp) rfl
      refine ⟨Function.update links' target.prev first, .dll ⟨target.next, slist.next⟩, ?_,
        ⟨⟨?_, nonnulls'⟩, newLast⟩, built, ?_⟩
      · simp [FREELIST_MERGE, insertAllDLLTail, headNonnull, ran, occupied]
      · rw [last]
        exact kept.splice reversed oldFront oldApart
      · intro a off
        have notOld : a ≠ target.prev := fun same => off (by simp [same, last])
        rw [Function.update_of_ne notOld]
        exact frame a fun member => off (List.mem_append_left _ member)

end FreeGuard.Model
