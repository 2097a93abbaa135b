import FreeGuard.ToMathlib.LinkedPath

/-! # Circular doubly linked lists

A ring is a pair of link functions on which a head node and its items form one cycle: `next` visits
the items in order and returns to the head, `prev` visits them in reverse. Inserting before the head
and unlinking an item are each two link updates in either direction; both keep the ring and change
the item list exactly as the list operation of the same name.
-/

namespace FreeGuard.LinkedPath

variable {α : Type*}

/-- The two link fields of every node. -/
structure Links (α : Type*) where
  prev : α → α
  next : α → α

/-- The cycle through `head` whose other nodes are `items`, in order. -/
structure IsRing (links : Links α) (head : α) (items : List α) : Prop where
  forward : Path links.next head (head :: items) head
  backward : Path links.prev head (head :: items.reverse) head
  nodup : (head :: items).Nodup

private theorem concat_getLastD (a : α) (xs : List α) :
    a :: xs = (a :: xs).dropLast ++ [xs.getLastD a] := by
  rw [← List.getLast_eq_getLastD (List.cons_ne_nil a xs), List.dropLast_append_getLast]

namespace IsRing

variable {links other : Links α} {head node : α} {items before after : List α}

theorem head_not_mem (ring : IsRing links head items) : head ∉ items :=
  (List.nodup_cons.mp ring.nodup).1

/-- The forward links from the head reach the first item, or the head itself. -/
theorem next_head (ring : IsRing links head items) : Path links.next (links.next head) items head :=
  ring.forward.2

/-- A head is on one ring only. -/
theorem unique {xs ys : List α} (left : IsRing links head xs) (right : IsRing links head ys) :
    xs = ys :=
  left.next_head.unique right.next_head left.head_not_mem right.head_not_mem

/-- The head's `prev` link is the last item, or the head itself. -/
theorem prev_head (ring : IsRing links head items) : links.prev head = items.getLastD head := by
  simp only [ring.backward.2.head_eq, List.head?_reverse, List.getLastD_eq_getLast?]

/-- The links of a ring stay inside it. -/
theorem prev_mem (ring : IsRing links head items) (inside : node ∈ head :: items) :
    links.prev node ∈ head :: items := by
  rcases ring.backward.next_mem (by simpa using inside) with stay | home
  · simpa using stay
  · exact home ▸ List.mem_cons_self ..

theorem next_mem (ring : IsRing links head items) (inside : node ∈ head :: items) :
    links.next node ∈ head :: items := by
  rcases ring.forward.next_mem inside with stay | home
  · exact stay
  · exact home ▸ List.mem_cons_self ..

/-- Links that agree on a ring's own nodes form the same ring. -/
theorem frame (ring : IsRing links head items)
    (next : ∀ n ∈ head :: items, other.next n = links.next n)
    (prev : ∀ n ∈ head :: items, other.prev n = links.prev n) : IsRing other head items where
  forward := ring.forward.frame next
  backward := ring.backward.frame (by simpa using prev)
  nodup := ring.nodup

/-- A node linked to itself is an empty ring. -/
theorem singleton (next : links.next head = head) (prev : links.prev head = head) :
    IsRing links head [] where
  forward := ⟨rfl, next⟩
  backward := ⟨rfl, prev⟩
  nodup := List.nodup_singleton head

variable [DecidableEq α]

/-- Linking a fresh node between the last node and the head appends it to the items. -/
theorem insert_tail (ring : IsRing links head items) (fresh : node ∉ head :: items) :
    IsRing
      { next := Function.update (Function.update links.next node head) (links.prev head) node
        prev := Function.update (Function.update links.prev node (links.prev head)) head node }
      head (items ++ [node]) := by
  have distinct : node ≠ head := fun same => fresh (same ▸ List.mem_cons_self ..)
  have last := concat_getLastD head items
  have inside : links.prev head ∈ head :: items := by
    rw [last, ring.prev_head]
    exact List.mem_append_right _ (List.mem_singleton_self _)
  have notNode : node ≠ links.prev head := fun same => fresh (same ▸ inside)
  have split := ring.forward
  rw [last, ← ring.prev_head] at split
  have lastFresh : links.prev head ∉ (head :: items).dropLast := by
    have nodup := ring.nodup
    rw [last, ← ring.prev_head] at nodup
    exact fun member => (List.nodup_append.mp nodup).2.2 _ member _ (List.mem_singleton_self _) rfl
  refine ⟨?_, ?_, ?_⟩
  · -- the old cycle up to its last node, then the fresh node, then the head
    have off : node ∉ (head :: items).dropLast ++ [links.prev head] := by
      rw [ring.prev_head, ← last]
      exact fresh
    have front := split.update_off off head
    have turned := front.redirect_last lastFresh node
    rw [ring.prev_head, ← last, ← ring.prev_head] at turned
    rw [← List.cons_append]
    refine path_append.mpr ⟨node, turned, rfl, ?_⟩
    change Function.update (Function.update links.next node head) (links.prev head) node node = head
    simp only [Function.update_of_ne notNode, Function.update_self]
  · rw [List.reverse_append, List.reverse_singleton, List.singleton_append]
    dsimp only
    refine ⟨rfl, ?_⟩
    rw [Function.update_self]
    refine ⟨rfl, ?_⟩
    rw [Function.update_of_ne distinct, Function.update_self]
    have headOff : head ∉ items.reverse := by simpa using ring.head_not_mem
    have nodeOff : node ∉ items.reverse := by
      simpa using fun member => fresh (List.mem_cons_of_mem _ member)
    exact (ring.backward.2.update_off nodeOff _).update_off headOff _
  · rw [← List.cons_append]
    exact List.nodup_append.mpr ⟨ring.nodup, List.nodup_singleton node, by
      rintro a member b single rfl
      exact fresh (List.mem_singleton.mp single ▸ member)⟩

/-- Inserting into one ring leaves a disjoint ring alone. -/
theorem insert_tail_frame {head' : α} {items' : List α} (ring : IsRing links head items)
    (third : IsRing links head' items') (apart : ∀ n ∈ head' :: items', n ∉ head :: items)
    (fresh : node ∉ head' :: items') :
    IsRing
      { next := Function.update (Function.update links.next node head) (links.prev head) node
        prev := Function.update (Function.update links.prev node (links.prev head)) head node }
      head' items' := by
  have prevIn := ring.prev_mem (List.mem_cons_self ..)
  have off (m : α) (inside : m ∈ head :: items) : ∀ n ∈ head' :: items', n ≠ m :=
    fun n member same => apart n member (same ▸ inside)
  have notNode : ∀ n ∈ head' :: items', n ≠ node := fun n member same => fresh (same ▸ member)
  refine third.frame ?_ ?_ <;> intro n member
  · simp only [Function.update_of_ne (off _ prevIn n member), Function.update_of_ne (notNode n member)]
  · simp only [Function.update_of_ne (off head (List.mem_cons_self ..) n member),
      Function.update_of_ne (notNode n member)]

/-- Linking a node's two neighbours to each other removes it; it is left as a ring of its own. -/
theorem unlink (ring : IsRing links head (before ++ node :: after)) :
    IsRing
      { next := Function.update
          (Function.update links.next (links.prev node) (links.next node)) node node
        prev := Function.update
          (Function.update links.prev (links.next node) (links.prev node)) node node }
      head (before ++ after) := by
  have nodup : (head :: (before ++ node :: after)).Nodup := ring.nodup
  have last := concat_getLastD head before
  have forward := ring.forward
  have backward := ring.backward
  rw [← List.cons_append] at forward nodup
  rw [List.reverse_append, List.reverse_cons, List.append_assoc, List.singleton_append,
    ← List.cons_append] at backward
  obtain ⟨_, front, atNode, rest⟩ := path_append.mp forward
  obtain ⟨_, back, atNode', rest'⟩ := path_append.mp backward
  rw [atNode] at front
  rw [atNode'] at back
  have prevNode : links.prev node = before.getLastD head := by
    simp only [rest'.head_eq, List.head?_reverse, List.getLastD_eq_getLast?]
  have nextNode : links.next node = after.head?.getD head := rest.head_eq
  have nodeOff : node ∉ (head :: before) ++ after := (List.nodup_middle.mp nodup).notMem
  have nodup' : ((head :: before) ++ after).Nodup := (List.nodup_middle.mp nodup).of_cons
  have apart := List.nodup_append.mp nodup'
  have lastFresh : links.prev node ∉ (head :: before).dropLast := by
    have split := apart.1
    rw [last, ← prevNode] at split
    exact fun member => (List.nodup_append.mp split).2.2 _ member _ (List.mem_singleton_self _) rfl
  have lastInside : links.prev node ∈ head :: before := by
    rw [last, prevNode]
    exact List.mem_append_right _ (List.mem_singleton_self _)
  have lastApart : links.prev node ∉ after := fun member =>
    apart.2.2 _ lastInside _ member rfl
  refine ⟨?_, ?_, ?_⟩
  · dsimp only
    rw [← List.cons_append]
    refine Path.update_off ?_ nodeOff node
    rw [last, ← prevNode] at front ⊢
    exact front.splice rest lastFresh lastApart
  · dsimp only
    rw [List.reverse_append, ← List.cons_append]
    refine Path.update_off ?_ (by simpa [and_comm, or_comm, or_assoc] using nodeOff) node
    -- backward, the neighbour before the node is the last of `head :: after.reverse`
    have lastBack := concat_getLastD head after.reverse
    have same : after.reverse.getLastD head = links.next node := by
      simp only [nextNode, List.getLastD_eq_getLast?, List.getLast?_reverse]
    rw [lastBack, same] at back ⊢
    have distinct : (head :: after.reverse).Nodup := by
      rw [List.nodup_cons, List.mem_reverse, List.nodup_reverse]
      exact ⟨fun member => apart.2.2 _ (List.mem_cons_self ..) _ member rfl, apart.2.1⟩
    rw [lastBack, same] at distinct
    refine back.splice rest' (fun member =>
      (List.nodup_append.mp distinct).2.2 _ member _ (List.mem_singleton_self _) rfl) ?_
    rw [List.mem_reverse, nextNode]
    intro member
    cases after with
    | nil => exact (List.nodup_cons.mp apart.1).1 member
    | cons y ys =>
      exact apart.2.2 _ (List.mem_cons_of_mem _ member) _ (List.mem_cons_self ..) rfl
  · rwa [← List.cons_append]

/-- Unlinking from one ring leaves a disjoint ring alone. -/
theorem unlink_frame {head' : α} {items' : List α}
    (ring : IsRing links head (before ++ node :: after)) (third : IsRing links head' items')
    (apart : ∀ n ∈ head' :: items', n ∉ head :: (before ++ node :: after)) :
    IsRing
      { next := Function.update
          (Function.update links.next (links.prev node) (links.next node)) node node
        prev := Function.update
          (Function.update links.prev (links.next node) (links.prev node)) node node }
      head' items' := by
  have nodeIn : node ∈ head :: (before ++ node :: after) := by simp
  have off (m : α) (inside : m ∈ head :: (before ++ node :: after)) :
      ∀ n ∈ head' :: items', n ≠ m :=
    fun n member same => apart n member (same ▸ inside)
  refine third.frame ?_ ?_ <;> intro n member
  · simp only [Function.update_of_ne (off _ (ring.prev_mem nodeIn) n member),
      Function.update_of_ne (off node nodeIn n member)]
  · simp only [Function.update_of_ne (off _ (ring.next_mem nodeIn) n member),
      Function.update_of_ne (off node nodeIn n member)]

/-- The items of a ring under another head: the first and the last item link to the new head, and the
new head links to them. -/
theorem rehead {dest : α} (ring : IsRing links head items) (nonempty : items ≠ [])
    (fresh : dest ∉ head :: items) :
    IsRing
      { next := Function.update (Function.update links.next (links.prev head) dest) dest
          (links.next head)
        prev := Function.update (Function.update links.prev (links.next head) dest) dest
          (links.prev head) }
      dest items := by
  have off : dest ∉ items := fun member => fresh (List.mem_cons_of_mem _ member)
  have nodup := (List.nodup_cons.mp ring.nodup).2
  have prevHead : items.reverse.head?.getD head = links.prev head := ring.backward.2.head_eq.symm
  have nextHead : items.head?.getD head = links.next head := ring.next_head.head_eq.symm
  refine ⟨⟨rfl, ?_⟩, ⟨rfl, ?_⟩, List.nodup_cons.mpr ⟨off, nodup⟩⟩
  · dsimp only
    rw [Function.update_self]
    apply Path.update_off _ off
    -- the last item now stops at the new head
    rcases List.eq_nil_or_concat items with rfl | ⟨front, last, rfl⟩
    · exact absurd rfl nonempty
    rw [List.concat_eq_append] at *
    have lastHead : links.prev head = last := by simpa using prevHead.symm
    rw [lastHead]
    apply ring.next_head.redirect_last
    exact fun member => (List.nodup_append.mp nodup).2.2 _ member _ (List.mem_singleton_self _) rfl
  · dsimp only
    rw [Function.update_self]
    apply Path.update_off _ (fun member => off (List.mem_reverse.mp member))
    -- backward, the first item does
    cases items with
    | nil => exact absurd rfl nonempty
    | cons first rest =>
      have firstHead : links.next head = first := by simpa using nextHead.symm
      have backward := ring.backward.2
      rw [List.reverse_cons] at backward ⊢
      rw [firstHead]
      apply backward.redirect_last
      exact fun member => (List.nodup_cons.mp nodup).1 (List.mem_reverse.mp member)

end IsRing

end FreeGuard.LinkedPath
