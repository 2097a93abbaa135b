import FreeGuard.Proofs.Blocks
import FreeGuard.Proofs.Requeue
import FreeGuard.Soundness.InvalidFree

/-! # The free lists are queues

In the build with the FIFO lists, what is taken from the list of an item is what was put there, in the
same order. The history keeps what went in and out; the list itself holds the rest. Entries that wait in
a cached list go in together, the oldest first.
-/

namespace FreeGuard.Soundness.FifoReuse

open Machine Model InvalidFree

/-- What was put on the list of each item and taken from it, and what waits in the cached list of each bag:
the entries, the oldest first. -/
structure History where
  put : ItemRef → List ℕ
  taken : ItemRef → List ℕ
  cached : BagRef → List ℕ

namespace History

def empty : History := ⟨fun _ => [], fun _ => [], fun _ => []⟩

/-- An allocation that does not bump takes the entry that `FREELIST_REMOVE` yields. -/
def malloc (heap : BibopHeap) (s : HeapState) (threadIndex : ℕ) (sz : size_t) (draws : Draws)
    (history : History) : History :=
  let item : ItemRef :=
    ((threadIndex, heap.getBagNum (classSizeOf heap.build sz)), (heap.selectList draws.list).1)
  if heap.UsesBump item draws s then history
  else { history with
    taken := Function.update history.taken item
      (history.taken item ++ [(FREELIST_REMOVE s.links (s.freelist item)).1]) }

/-- A deallocation puts its entry on the list of the item; that of another thread adds it to the cached
entries of the bag, and puts all of them there when they are too many. -/
def free (heap : BibopHeap) (s : HeapState) (threadIndex addr : ℕ) (history : History) : History :=
  match heap.getShadowObjectInfo addr with
  | .error _ => history
  | .ok (bag, numBagSetItem, shadowinfo) =>
    let item : ItemRef := (bag, numBagSetItem)
    if heap.Caches threadIndex bag then
      let cached := history.cached bag ++ [shadowinfo]
      if heap.Overflows bag s then { history with
        put := Function.update history.put item (history.put item ++ cached)
        cached := Function.update history.cached bag [] }
      else { history with cached := Function.update history.cached bag cached }
    else { history with put := Function.update history.put item (history.put item ++ [shadowinfo]) }

/-- The history after an event. -/
def next (heap : BibopHeap) (system : HeapSystem) : HeapEvent → History → History
  | .malloc threadIndex sz draws, history => history.malloc heap system.state threadIndex sz draws
  | .free threadIndex addr, history => history.free heap system.state threadIndex addr
  | .store _ _, history => history

end History

/-- The list of an item is a queue: it holds the nodes that were put there and not taken yet, in that order,
and knows the last one. -/
structure IsQueue (s : HeapState) (item : ItemRef) (history : History) (dlist : DList) (nodes : List ℕ) :
    Prop where
  list : s.freelist item = .dll dlist
  chain : Chain s.links dlist.next nodes
  nodup : nodes.Nodup
  order : history.put item = history.taken item ++ nodes
  null_iff : dlist.next = NULL ↔ dlist.prev = NULL
  last : dlist.next ≠ NULL → ∃ front, nodes = front ++ [dlist.prev]

variable {c : Config} {s t : HeapSystem} {history history' : History} {e : HeapEvent}
  {es : List HeapEvent} {pool pool' : Pool c}

/-- The history agrees with the queues of a pool. -/
structure Agrees (history : History) (pool : Pool c) : Prop where
  free : ∀ item, history.put item = history.taken item ++ (pool.queue (.inl item)).map Slot.entry
  cached : ∀ bag, history.cached bag = ((pool.queue (.inr bag)).map Slot.entry).reverse

theorem agrees_start (c : Config) : Agrees .empty (SlotPool.fresh : Pool c) :=
  ⟨fun _ => rfl, fun _ => rfl⟩

/-- Taking the first entry of a list. -/
theorem Agrees.take {item : ItemRef} {x : Slot c} {rest : List (Slot c)}
    (agrees : Agrees history pool) (head : pool.queue (.inl item) = x :: rest) :
    Agrees { history with
      taken := Function.update history.taken item (history.taken item ++ [x.entry]) }
      (pool.take (.inl item) x rest) := by
  constructor
  · intro other
    have order := agrees.free other
    simp only [SlotPool.take]
    rcases eq_or_ne other item with rfl | same
    · rw [head] at order
      rw [order, Function.update_self, Function.update_self, List.map_cons, List.append_assoc,
        List.singleton_append]
    · rw [order, Function.update_of_ne same, Function.update_of_ne (by simpa using same)]
  · intro bag
    simp only [SlotPool.take]
    rw [Function.update_of_ne Sum.inr_ne_inl]
    exact agrees.cached bag

/-- A deallocation puts the entry of its slot on a list. -/
theorem Agrees.release {s : HeapState} {x : Slot c} {bag : BagRef}
    {threadIndex addr : ℕ} (fifo : c.build.fifo = true) (agrees : Agrees history pool)
    (rep : Represents c s pool) (leads : c.LeadsTo addr bag x)
    (queue : pool'.queue = requeue c.heap s threadIndex bag (x.heap % c.items) x pool.queue) :
    Agrees (history.free c.heap s threadIndex addr) pool' := by
  have built := rep.lists.built (bag, x.heap % c.items)
  obtain ⟨dlist, list⟩ : ∃ dlist, s.freelist (bag, x.heap % c.items) = .dll dlist := by
    cases list : s.freelist (bag, x.heap % c.items) with
    | sll slist =>
      rw [list] at built
      exact absurd (fifo.symm.trans built) (by simp)
    | dll dlist => exact ⟨dlist, rfl⟩
  rw [requeue, list] at queue
  rw [History.free, leads.decode]
  dsimp only
  split
  · rename_i remote
    rw [if_pos remote] at queue
    split
    · -- the cached entries go to the list of the item, the oldest first
      rename_i overflows
      rw [if_pos overflows] at queue
      constructor <;> rw [queue]
      · intro other
        rcases eq_or_ne other (bag, x.heap % c.items) with rfl | same
        · simp only [Function.update_self, agrees.free, agrees.cached, FreeList.merged, List.map_append,
            List.map_reverse, List.map_cons, List.map_nil, List.reverse_cons, List.append_assoc]
        · simpa [Function.update_of_ne, same] using agrees.free other
      · intro other
        rw [Function.update_of_ne Sum.inr_ne_inl]
        rcases eq_or_ne other bag with rfl | same
        · simp
        · simpa [Function.update_of_ne, same] using agrees.cached other
    · rename_i fits
      rw [if_neg fits] at queue
      constructor <;> rw [queue]
      · intro other
        rw [Function.update_of_ne Sum.inl_ne_inr]
        exact agrees.free other
      · intro other
        rcases eq_or_ne other bag with rfl | same
        · simp [agrees.cached]
        · simpa [Function.update_of_ne, same] using agrees.cached other
  · rename_i home
    rw [if_neg home] at queue
    constructor <;> rw [queue]
    · intro other
      rcases eq_or_ne other (bag, x.heap % c.items) with rfl | same
      · simp [agrees.free, FreeList.inserted]
      · simpa [Function.update_of_ne, same] using agrees.free other
    · intro other
      rw [Function.update_of_ne Sum.inr_ne_inl]
      exact agrees.cached other

/-- The history agrees with the queues after a step. -/
theorem Agrees.step (fifo : c.build.fifo = true) (agrees : Agrees history pool)
    (rep : Represents c s.state pool) (step : HeapStep c.heap s e t) :
    ∃ pool' : Pool c, Represents c t.state pool' ∧ Agrees (History.next c.heap s e history) pool' := by
  obtain ⟨pool', move, after⟩ := step.simulates rep
  refine ⟨pool', after, ?_⟩
  cases move with
  | @reuse threadIndex sz draws _ thread routed x rest i idle head block guards returned =>
    have first := (rep.lists.remove head).1
    have taken := agrees.take head
    rw [← first] at taken
    rw [show History.next c.heap s (.malloc threadIndex sz draws) history = _ from if_neg idle]
    exact taken
  | @bump threadIndex sz draws _ l thread routed lane uses guards returned =>
    subst lane
    rw [show History.next c.heap s (.malloc threadIndex sz draws) history = _ from if_pos uses]
    exact ⟨agrees.free, agrees.cached⟩
  | @release threadIndex addr _ x bag _ live leads released guards returned =>
    exact agrees.release fifo rep leads (rep.queue_freed after live leads step.freed.2)
  | store guards returned => exact agrees

end FreeGuard.Soundness.FifoReuse
