import FreeGuard.Proofs.Canary

/-! # What the program holds

An object is the program's from the allocation that returned its address to the deallocation of that
address. An allocation never returns an object that the program holds, even where it freed addresses that
no allocation returned; and every byte belongs to one block.
-/

namespace FreeGuard.Model

open Machine

/-- The objects that the program holds: the class size of each address returned and not freed since. -/
abbrev Holdings := ℕ → Option ℕ

/-- The holdings after an event. -/
def Holdings.next (heap : BibopHeap) (system : HeapSystem) : HeapEvent → Holdings → Holdings
  | .malloc threadIndex sz draws, holdings =>
    Function.update holdings (heap.allocateSmallObject threadIndex sz draws system.state).1
      (some (classSizeOf heap.build sz))
  | .free _ addr, holdings => Function.update holdings addr none
  | .store _ _, holdings => holdings

/-- A byte of an object that its holder may use. -/
def UsableByte (build : Build) (addr size a : ℕ) : Prop :=
  addr ≤ a ∧ a < addr + (size - build.canaryBytes)

instance (build : Build) (addr size a : ℕ) : Decidable (UsableByte build addr size a) :=
  inferInstanceAs (Decidable (_ ∧ _))

/-- A store of the program goes to a usable byte of an object that it holds. -/
def StoresHeld (build : Build) (held : HeapSystem × Holdings) : HeapEvent → Prop
  | .store a _ => ∃ addr size, held.2 addr = some size ∧ UsableByte build addr size a
  | _ => True

/-- A step of a program that stores to the objects that it holds. -/
abbrev HolderStep (heap : BibopHeap) : HeapSystem × Holdings → HeapEvent → HeapSystem × Holdings → Prop :=
  Guarded (StoresHeld heap.build) (Recorded (Holdings.next heap) (HeapStep heap))

/-- A program that holds nothing, and the small heap before the first call. -/
def Config.holder (c : Config) : HeapSystem × Holdings := (c.system, fun _ => none)

variable {c : Config} {s t : HeapSystem} {holdings : Holdings} {e : HeapEvent} {pool pool' : Pool c}
  {x y : Slot c} {p p' a n n' : ℕ}

/-- A byte belongs to one block. -/
theorem Config.IsBlock.unique (block : c.IsBlock ⟨p, n⟩) (also : c.IsBlock ⟨p', n'⟩)
    (inside : p ≤ a ∧ a < p + n) (inside' : p' ≤ a ∧ a < p' + n') : p = p' ∧ n = n' := by
  obtain ⟨h, t, b, i, thread, number, small, same⟩ := block
  obtain ⟨h', t', b', i', thread', number', small', same'⟩ := also
  obtain ⟨rfl, rfl⟩ := Issue.mk.inj same
  obtain ⟨rfl, rfl⟩ := Issue.mk.inj same'
  have fits := c.block_fits number small
  have fits' := c.block_fits number' small'
  have place : c.bagBegin h t b + (i * classSize b + (a - (c.bagBegin h t b + i * classSize b))) =
      c.bagBegin h' t' b' + (i' * classSize b' + (a - (c.bagBegin h' t' b' + i' * classSize b'))) := by
    omega
  obtain ⟨rfl, rfl, rfl, offset⟩ := Config.bagBegin_inj thread thread'
    (Nat.lt_of_lt_of_le number c.usable_le_numBags) (Nat.lt_of_lt_of_le number' c.usable_le_numBags)
    (by omega) (by omega) place
  have quotient := congrArg (· / classSize b) offset
  simp only [Nat.mul_comm _ (classSize b), Nat.mul_add_div (classSize_pos b)] at quotient
  rw [Nat.div_eq_of_lt (by rw [Nat.mul_comm]; omega), Nat.div_eq_of_lt (by rw [Nat.mul_comm]; omega)]
    at quotient
  obtain rfl : i = i' := quotient
  exact ⟨rfl, rfl⟩

/-- Every object held is a block at the place of a reached slot, and no queued slot leads back to one. -/
structure Holdings.Valid (holdings : Holdings) (pool : Pool c) : Prop where
  block : ∀ p n, holdings p = some n → c.IsBlock ⟨p, n⟩
  reached : ∀ p n, holdings p = some n → ∃ bag x, c.LeadsTo p bag x ∧ pool.Reached c.slots x
  unqueued : ∀ q, ∀ x ∈ pool.queue q, ∀ p, c.LeadsTo p q.bag x → holdings p = none

theorem holdings_start (c : Config) : Holdings.Valid (fun _ => none) (SlotPool.fresh : Pool c) where
  block p n held := by cases held
  reached p n held := by cases held
  unqueued _ _ _ _ _ := rfl

theorem Holdings.update_some {size : ℕ} (held : Function.update holdings p' (some size) p = some n) :
    p = p' ∧ size = n ∨ holdings p = some n := by
  rw [Function.update_apply] at held
  split at held
  · exact .inl ⟨‹_›, Option.some.inj held⟩
  · exact .inr held

theorem Holdings.update_none (held : Function.update holdings p' none p = some n) :
    p ≠ p' ∧ holdings p = some n := by
  rw [Function.update_apply] at held
  split at held
  · cases held
  · exact ⟨‹_›, held⟩

/-- Taking a slot from a list: its address was not held. -/
theorem Holdings.Valid.take {l : Lane c} {rest : List (Slot c)} (valid : holdings.Valid pool)
    (parts : pool.Partition c.slots) (head : pool.queue (.inl l.ref) = x :: rest)
    (leads : c.LeadsTo p l.bagRef x) (block : c.IsBlock ⟨p, n⟩) :
    holdings p = none ∧
      Holdings.Valid (Function.update holdings p (some n)) (pool.take (.inl l.ref) x rest) := by
  have queued : x ∈ pool.queue (.inl l.ref) := head ▸ List.mem_cons_self ..
  have parts' := parts.take head
  refine ⟨valid.unqueued _ x queued p leads, ?_, ?_, ?_⟩
  · intro p' n' held
    rcases Holdings.update_some held with ⟨rfl, rfl⟩ | old
    · exact block
    · exact valid.block p' n' old
  · intro p' n' held
    rcases Holdings.update_some held with ⟨rfl, rfl⟩ | old
    · exact ⟨_, x, leads, parts.queued_reached _ x queued⟩
    · exact valid.reached p' n' old
  · intro q y member p' leadsY
    rw [Function.update_of_ne]
    · exact valid.unqueued q y (SlotPool.mem_take_queue head member) p' leadsY
    · rintro rfl
      obtain ⟨rfl, -⟩ := leadsY.unique leads
      exact parts'.queued_not_live q _ member (Set.mem_insert ..)

/-- Taking the next slot of a lane: its address was not held. -/
theorem Holdings.Valid.bump {l : Lane c} (valid : holdings.Valid pool)
    (parts : pool.Partition c.slots) (block : c.IsBlock ⟨(l.slot (pool.cursor l)).addr, n⟩) (skip : ℕ) :
    holdings (l.slot (pool.cursor l)).addr = none ∧
      Holdings.Valid (Function.update holdings (l.slot (pool.cursor l)).addr (some n))
        (pool.bump c.slots (l.slot (pool.cursor l)) skip) := by
  have unreached := l.next_unreached pool
  have passes := SlotPool.reached_bump_iff (n := skip) (l.next_seq pool)
  generalize l.slot (pool.cursor l) = x at *
  refine ⟨?_, ?_, ?_, ?_⟩
  · by_contra held
    obtain ⟨n', held⟩ := Option.ne_none_iff_exists'.mp held
    obtain ⟨bag, y, leads, before⟩ := valid.reached _ n' held
    obtain ⟨rfl, -⟩ := leads.unique x.leadsTo_addr
    exact unreached before
  · intro p' n' held
    rcases Holdings.update_some held with ⟨rfl, rfl⟩ | old
    · exact block
    · exact valid.block p' n' old
  · intro p' n' held
    rcases Holdings.update_some held with ⟨rfl, rfl⟩ | old
    · exact ⟨_, x, x.leadsTo_addr, (passes x).mpr (.inr (.inl rfl))⟩
    · obtain ⟨bag, y, leads, before⟩ := valid.reached p' n' old
      exact ⟨bag, y, leads, (passes y).mpr (.inl before)⟩
  · intro q y member p' leads
    rw [Function.update_of_ne]
    · exact valid.unqueued q y member p' leads
    · rintro rfl
      obtain ⟨rfl, -⟩ := leads.unique x.leadsTo_addr
      exact unreached (parts.queued_reached q _ member)

/-- Freeing an address: it is held no longer. -/
theorem Holdings.Valid.release {s t : HeapState} {bag : BagRef} {item : ℕ} (valid : holdings.Valid pool)
    (rep : Represents c s pool) (after : Represents c t pool') (position : t.position = s.position)
    (leads : c.LeadsTo p bag x) (released : Released pool pool' x bag item) :
    Holdings.Valid (Function.update holdings p none) pool' := by
  refine ⟨?_, ?_, ?_⟩
  · intro p' n' held
    exact valid.block p' n' (Holdings.update_none held).2
  · intro p' n' held
    obtain ⟨b, y, leadsY, before⟩ := valid.reached p' n' (Holdings.update_none held).2
    refine ⟨b, y, leadsY, ?_⟩
    rwa [after.reached_iff, position, ← rep.reached_iff]
  · intro q y member p' leadsY
    rw [Function.update_apply]
    split
    · rfl
    · rename_i other
      rcases released.queued q y member with ⟨rfl, ofBag⟩ | ⟨r, ofBag, old⟩
      · exact absurd (leadsY.addr_unique (ofBag ▸ leads)) other
      · exact valid.unqueued r y old p' (ofBag ▸ leadsY)

/-- The address that an allocation returns was not held and is that of a block. -/
theorem Holdings.Valid.fresh {threadIndex : ℕ} {sz : size_t} {draws : Draws} (valid : holdings.Valid pool)
    (rep : Represents c s.state pool) (step : HeapStep c.heap s (.malloc threadIndex sz draws) t)
    (move : PoolStep c s pool (.malloc threadIndex sz draws) t pool') :
    holdings (c.heap.allocateSmallObject threadIndex sz draws s.state).1 = none ∧
      c.IsBlock ⟨(c.heap.allocateSmallObject threadIndex sz draws s.state).1,
        classSizeOf c.build sz⟩ ∧
      Holdings.Valid (Holdings.next c.heap s (.malloc threadIndex sz draws) holdings) pool' := by
  rw [Holdings.next]
  cases move with
  | @reuse _ _ _ _ thread routed x rest i idle head block guards returned =>
    have size : classSizeOf c.build sz = classSize (c.bagNumOf sz) := (Config.bagNumOf_spec routed).2.1
    have leads := Slot.BlockOf.leadsTo block (Config.bagNumOf_lt routed)
    have isBlock := leads.isBlock (Config.bagNumOf_lt routed)
    obtain ⟨free, kept⟩ := valid.take rep.partition head leads isBlock
    rw [step.returned_addr returned, Config.heap_build, size]
    exact ⟨free, isBlock, kept⟩
  | @bump _ _ _ _ l thread routed lane uses guards returned =>
    have size : classSizeOf c.build sz = classSize l.bag := by
      rw [lane]
      exact (Config.bagNumOf_spec routed).2.1
    have isBlock := (l.slot (pool.cursor l)).leadsTo_addr.isBlock l.bag_lt
    obtain ⟨free, kept⟩ := valid.bump rep.partition isBlock (l.skips (pool.cursor l) draws.guard)
    rw [step.returned_addr returned, Config.heap_build, size]
    exact ⟨free, isBlock, kept⟩

/-- So is the address that the next allocation would return. -/
theorem Holdings.Valid.next_fresh {threadIndex : ℕ} {sz : size_t} {draws : Draws} {state : HeapState}
    (valid : holdings.Valid pool) (rep : Represents c s.state pool)
    (thread : threadIndex < MAX_ALIVE_THREADS) (routed : c.build.IF_CANARY_CONDITION sz = false)
    (ran : c.heap.allocateSmallObject threadIndex sz draws s.state = (p, state)) :
    holdings p = none ∧ c.IsBlock ⟨p, classSizeOf c.build sz⟩ := by
  have step : HeapStep c.heap s (.malloc threadIndex sz draws) _ := .malloc s thread routed
  obtain ⟨pool', move, -⟩ := step.simulates rep
  obtain ⟨free, block, -⟩ := valid.fresh rep step move
  rw [ran] at free block
  exact ⟨free, block⟩

theorem Holdings.Valid.step (valid : holdings.Valid pool) (rep : Represents c s.state pool)
    (step : HeapStep c.heap s e t) : ∃ pool' : Pool c, Represents c t.state pool' ∧
      Holdings.Valid (Holdings.next c.heap s e holdings) pool' := by
  obtain ⟨pool', move, after⟩ := step.simulates rep
  refine ⟨pool', after, ?_⟩
  cases e with
  | malloc threadIndex sz draws => exact (valid.fresh rep step move).2.2
  | free threadIndex addr =>
    cases move with
    | release live leads released guards returned =>
      exact valid.release rep after (freeSmallObject_frame step.freed.2).2 leads released
  | store addr value =>
    cases move with
    | store guards returned => exact valid

end FreeGuard.Model
