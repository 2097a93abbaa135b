import Mathlib.Data.List.Perm.Basic
import Mathlib.Data.Set.Insert
import Mathlib.Logic.Function.Basic

/-! # Bump-and-recycle slot pools

A pool hands out the slots of an enumeration. Every lane owns a sequence of slots and a cursor; a
slot behind its cursor is live, waits in one of the pool's queues, or was skipped when the cursor
jumped. Slots at or past the cursor have not been reached. The four moves of such a pool take the
first slot of a queue, advance a cursor (possibly skipping slots), release a live slot into a queue,
and merge one queue into another. `Partition` says that the four states are exclusive and cover
every slot; it is kept by each move, whatever order the queues keep.
-/

namespace FreeGuard.Machine

variable {X L Q : Type*}

/-- Slots numbered along lanes; the lane and the number determine the slot. -/
structure Enumeration (X L : Type*) where
  lane : X → L
  seq : X → ℕ
  inj : ∀ {x y}, lane x = lane y → seq x = seq y → x = y

/-- The abstract state of a pool with queues named by `Q`. -/
@[ext] structure SlotPool (X L Q : Type*) where
  cursor : L → ℕ
  live : Set X
  skipped : Set X
  queue : Q → List X

namespace SlotPool

/-- Nothing has been handed out. -/
def fresh : SlotPool X L Q where
  cursor _ := 0
  live := ∅
  skipped := ∅
  queue _ := []

/-- The pool's cursor has passed a slot. -/
def Reached (slots : Enumeration X L) (pool : SlotPool X L Q) (x : X) : Prop :=
  slots.seq x < pool.cursor (slots.lane x)

/-- The slot is live or queued. -/
def Held (pool : SlotPool X L Q) (x : X) : Prop := x ∈ pool.live ∨ ∃ q, x ∈ pool.queue q

/-- The four slot states exclude each other, and every reached slot is in one of the other three. -/
structure Partition (slots : Enumeration X L) (pool : SlotPool X L Q) : Prop where
  live_reached : ∀ x ∈ pool.live, pool.Reached slots x
  skipped_reached : ∀ x ∈ pool.skipped, pool.Reached slots x
  queued_reached : ∀ q, ∀ x ∈ pool.queue q, pool.Reached slots x
  live_not_skipped : ∀ x ∈ pool.live, x ∉ pool.skipped
  queued_not_live : ∀ q, ∀ x ∈ pool.queue q, x ∉ pool.live
  queued_not_skipped : ∀ q, ∀ x ∈ pool.queue q, x ∉ pool.skipped
  queue_nodup : ∀ q, (pool.queue q).Nodup
  queue_disjoint : ∀ q r x, x ∈ pool.queue q → x ∈ pool.queue r → q = r
  covered : ∀ x, pool.Reached slots x → x ∈ pool.live ∨ x ∈ pool.skipped ∨ ∃ q, x ∈ pool.queue q

theorem partition_fresh (slots : Enumeration X L) :
    (fresh : SlotPool X L Q).Partition slots := by
  constructor <;> simp [fresh, Reached]

section Moves

variable [DecidableEq L] [DecidableEq Q] {slots : Enumeration X L} {pool : SlotPool X L Q}

/-- Take a slot out of queue `q`, leaving `rest`. -/
def take (pool : SlotPool X L Q) (q : Q) (x : X) (rest : List X) : SlotPool X L Q :=
  { pool with live := insert x pool.live, queue := Function.update pool.queue q rest }

/-- Hand out `x` and move its lane's cursor past it and past the `n` slots after it. -/
def bump (slots : Enumeration X L) (pool : SlotPool X L Q) (x : X) (n : ℕ) : SlotPool X L Q :=
  { pool with
    cursor := Function.update pool.cursor (slots.lane x) (slots.seq x + 1 + n)
    live := insert x pool.live
    skipped := pool.skipped ∪
      {y | slots.lane y = slots.lane x ∧ slots.seq x < slots.seq y ∧ slots.seq y ≤ slots.seq x + n} }

/-- Return a live slot to queue `q`, which becomes `xs`. -/
def release (pool : SlotPool X L Q) (x : X) (q : Q) (xs : List X) : SlotPool X L Q :=
  { pool with live := pool.live \ {x}, queue := Function.update pool.queue q xs }

/-- Empty queue `q` into queue `r`, which becomes `xs`. -/
def merge (pool : SlotPool X L Q) (q r : Q) (xs : List X) : SlotPool X L Q :=
  { pool with queue := Function.update (Function.update pool.queue q []) r xs }

omit [DecidableEq L] in
/-- Taking queues no slot. -/
theorem mem_take_queue {q r : Q} {x y : X} {rest : List X} (head : pool.queue q = x :: rest)
    (member : y ∈ (pool.take q x rest).queue r) : y ∈ pool.queue r := by
  simp only [SlotPool.take] at member
  rcases eq_or_ne r q with rfl | same
  · rw [Function.update_self] at member
    exact head ▸ List.mem_cons_of_mem _ member
  · rwa [Function.update_of_ne same] at member

omit [DecidableEq L] in
/-- Releasing queues the slot, in one queue. -/
theorem mem_release_queue {q r : Q} {x y : X} {xs : List X} (queued : xs.Perm (x :: pool.queue q)) :
    y ∈ (pool.release x q xs).queue r ↔ y ∈ pool.queue r ∨ (r = q ∧ y = x) := by
  rcases eq_or_ne r q with rfl | same
  · simp [SlotPool.release, queued.mem_iff, or_comm]
  · simp [SlotPool.release, same]

omit [DecidableEq L] in
/-- Merging moves the slots of one queue to the other. -/
theorem mem_merge_queue {q r s : Q} {y : X} {xs : List X} (distinct : q ≠ r)
    (merged : xs.Perm (pool.queue q ++ pool.queue r)) :
    y ∈ (pool.merge q r xs).queue s ↔
      (s ≠ q ∧ y ∈ pool.queue s) ∨ (s = r ∧ y ∈ pool.queue q) := by
  rcases eq_or_ne s r with rfl | atR
  · simp [SlotPool.merge, merged.mem_iff, distinct.symm, or_comm]
  · rcases eq_or_ne s q with rfl | atQ
    · simp [SlotPool.merge, atR]
    · simp [SlotPool.merge, atR, atQ]

omit [DecidableEq L] in
theorem Partition.take (parts : pool.Partition slots) {q : Q} {x : X} {rest : List X}
    (head : pool.queue q = x :: rest) : (pool.take q x rest).Partition slots := by
  have atHead : x ∈ pool.queue q := head ▸ List.mem_cons_self ..
  have nodup := List.nodup_cons.mp (head ▸ parts.queue_nodup q)
  have elsewhere : ∀ r, x ∉ Function.update pool.queue q rest r := by
    intro r member
    rcases eq_or_ne r q with rfl | same
    · rw [Function.update_self] at member
      exact nodup.1 member
    · rw [Function.update_of_ne same] at member
      exact same (parts.queue_disjoint _ _ x member atHead)
  have shrinks : ∀ r y, y ∈ Function.update pool.queue q rest r → y ∈ pool.queue r :=
    fun _ _ => mem_take_queue head
  refine ⟨?_, parts.skipped_reached, ?_, ?_, ?_, ?_, ?_, ?_, ?_⟩
  · rintro y (rfl | live)
    · exact parts.queued_reached q y atHead
    · exact parts.live_reached y live
  · exact fun r y member => parts.queued_reached r y (shrinks r y member)
  · rintro y (rfl | live)
    · exact parts.queued_not_skipped q y atHead
    · exact parts.live_not_skipped y live
  · rintro r y member (rfl | live)
    · exact elsewhere r member
    · exact parts.queued_not_live r y (shrinks r y member) live
  · exact fun r y member => parts.queued_not_skipped r y (shrinks r y member)
  · intro r
    rcases eq_or_ne r q with rfl | same
    · simpa [SlotPool.take] using nodup.2
    · simpa [SlotPool.take, Function.update_of_ne same] using parts.queue_nodup r
  · exact fun r s y inR inS => parts.queue_disjoint r s y (shrinks r y inR) (shrinks s y inS)
  · intro y reached
    rcases parts.covered y reached with live | skipped | ⟨r, member⟩
    · exact .inl (.inr live)
    · exact .inr (.inl skipped)
    · rcases eq_or_ne r q with rfl | same
      · rcases List.mem_cons.mp (head ▸ member) with rfl | tail
        · exact .inl (.inl rfl)
        · exact .inr (.inr ⟨r, by simpa [SlotPool.take] using tail⟩)
      · exact .inr (.inr ⟨r, by simpa [SlotPool.take, Function.update_of_ne same] using member⟩)

omit [DecidableEq Q] in
/-- The new cursor passes exactly `x`, the skipped slots and what was reached before. -/
theorem reached_bump_iff {x : X} {n : ℕ} (next : slots.seq x = pool.cursor (slots.lane x)) (y : X) :
    (pool.bump slots x n).Reached slots y ↔ pool.Reached slots y ∨ y = x ∨
      slots.lane y = slots.lane x ∧ slots.seq x < slots.seq y ∧ slots.seq y ≤ slots.seq x + n := by
  simp only [Reached, SlotPool.bump]
  rcases eq_or_ne (slots.lane y) (slots.lane x) with same | same
  · rw [same, Function.update_self, ← next]
    have eq_iff : y = x ↔ slots.seq y = slots.seq x :=
      ⟨fun equal => equal ▸ rfl, fun equal => slots.inj same equal⟩
    simp only [eq_iff, true_and]
    omega
  · rw [Function.update_of_ne same]
    have distinct : y ≠ x := fun equal => same (equal ▸ rfl)
    simp [same, distinct]

omit [DecidableEq Q] in
theorem Partition.bump (parts : pool.Partition slots) {x : X} {n : ℕ}
    (next : slots.seq x = pool.cursor (slots.lane x)) : (pool.bump slots x n).Partition slots := by
  have reached_iff := reached_bump_iff (n := n) next
  have old_not_new : ∀ y, pool.Reached slots y → y ≠ x ∧
      ¬(slots.lane y = slots.lane x ∧ slots.seq x < slots.seq y ∧ slots.seq y ≤ slots.seq x + n) := by
    intro y old
    simp only [Reached] at old
    refine ⟨?_, ?_⟩
    · rintro rfl
      omega
    · rintro ⟨same, after, _⟩
      rw [same, ← next] at old
      omega
  have queue_same : (pool.bump slots x n).queue = pool.queue := rfl
  refine ⟨?_, ?_, ?_, ?_, ?_, ?_, parts.queue_nodup, parts.queue_disjoint, ?_⟩
  · rintro y (rfl | live)
    · exact (reached_iff y).mpr (.inr (.inl rfl))
    · exact (reached_iff y).mpr (.inl (parts.live_reached y live))
  · rintro y (skipped | new)
    · exact (reached_iff y).mpr (.inl (parts.skipped_reached y skipped))
    · exact (reached_iff y).mpr (.inr (.inr new))
  · exact fun q y member => (reached_iff y).mpr (.inl (parts.queued_reached q y member))
  · rintro y (rfl | live) (skipped | new)
    · exact (old_not_new y (parts.skipped_reached y skipped)).1 rfl
    · exact absurd new.2.1 (lt_irrefl _)
    · exact parts.live_not_skipped y live skipped
    · exact (old_not_new y (parts.live_reached y live)).2 new
  · rintro q y member (rfl | live)
    · exact (old_not_new y (parts.queued_reached q y member)).1 rfl
    · exact parts.queued_not_live q y member live
  · rintro q y member (skipped | new)
    · exact parts.queued_not_skipped q y member skipped
    · exact (old_not_new y (parts.queued_reached q y member)).2 new
  · intro y reached
    rcases (reached_iff y).mp reached with old | rfl | new
    · rcases parts.covered y old with live | skipped | queued
      · exact .inl (.inr live)
      · exact .inr (.inl (.inl skipped))
      · exact .inr (.inr queued)
    · exact .inl (.inl rfl)
    · exact .inr (.inl (.inr new))

omit [DecidableEq L] in
theorem Partition.release (parts : pool.Partition slots) {x : X} {q : Q} {xs : List X}
    (live : x ∈ pool.live) (queued : xs.Perm (x :: pool.queue q)) :
    (pool.release x q xs).Partition slots := by
  have unqueued : ∀ r, x ∉ pool.queue r := fun r member => parts.queued_not_live r x member live
  have mem_iff : ∀ r y, y ∈ (pool.release x q xs).queue r ↔ y ∈ pool.queue r ∨ (r = q ∧ y = x) :=
    fun _ _ => mem_release_queue queued
  refine ⟨?_, parts.skipped_reached, ?_, ?_, ?_, ?_, ?_, ?_, ?_⟩
  · exact fun y member => parts.live_reached y member.1
  · intro r y member
    rcases (mem_iff r y).mp member with old | ⟨_, rfl⟩
    · exact parts.queued_reached r y old
    · exact parts.live_reached y live
  · exact fun y member => parts.live_not_skipped y member.1
  · rintro r y member ⟨still, different⟩
    rcases (mem_iff r y).mp member with old | ⟨_, rfl⟩
    · exact parts.queued_not_live r y old still
    · exact different rfl
  · intro r y member
    rcases (mem_iff r y).mp member with old | ⟨_, rfl⟩
    · exact parts.queued_not_skipped r y old
    · exact parts.live_not_skipped y live
  · intro r
    rcases eq_or_ne r q with rfl | same
    · simp only [SlotPool.release, Function.update_self]
      exact queued.nodup_iff.mpr (List.nodup_cons.mpr ⟨unqueued r, parts.queue_nodup r⟩)
    · simpa [SlotPool.release, Function.update_of_ne same] using parts.queue_nodup r
  · intro r s y inR inS
    rcases (mem_iff r y).mp inR with oldR | ⟨rfl, rfl⟩ <;>
      rcases (mem_iff s y).mp inS with oldS | ⟨rfl, same⟩
    · exact parts.queue_disjoint r s y oldR oldS
    · exact absurd (same ▸ oldR) (unqueued r)
    · exact absurd oldS (unqueued s)
    · rfl
  · intro y reached
    rcases parts.covered y reached with old | skipped | ⟨r, member⟩
    · rcases eq_or_ne y x with same | same
      · exact .inr (.inr ⟨q, (mem_iff q y).mpr (.inr ⟨rfl, same⟩)⟩)
      · exact .inl ⟨old, same⟩
    · exact .inr (.inl skipped)
    · exact .inr (.inr ⟨r, (mem_iff r y).mpr (.inl member)⟩)

omit [DecidableEq L] in
theorem Partition.merge (parts : pool.Partition slots) {q r : Q} {xs : List X} (distinct : q ≠ r)
    (merged : xs.Perm (pool.queue q ++ pool.queue r)) : (pool.merge q r xs).Partition slots := by
  have mem_iff : ∀ s y, y ∈ (pool.merge q r xs).queue s ↔
      (s ≠ q ∧ y ∈ pool.queue s) ∨ (s = r ∧ y ∈ pool.queue q) :=
    fun _ _ => mem_merge_queue distinct merged
  have origin : ∀ s y, y ∈ (pool.merge q r xs).queue s → ∃ p, y ∈ pool.queue p := by
    intro s y member
    rcases (mem_iff s y).mp member with ⟨_, old⟩ | ⟨_, old⟩ <;> exact ⟨_, old⟩
  refine ⟨parts.live_reached, parts.skipped_reached, ?_, parts.live_not_skipped, ?_, ?_, ?_, ?_, ?_⟩
  · intro s y member
    obtain ⟨p, old⟩ := origin s y member
    exact parts.queued_reached p y old
  · intro s y member
    obtain ⟨p, old⟩ := origin s y member
    exact parts.queued_not_live p y old
  · intro s y member
    obtain ⟨p, old⟩ := origin s y member
    exact parts.queued_not_skipped p y old
  · intro s
    rcases eq_or_ne s r with rfl | atR
    · simp only [SlotPool.merge, Function.update_self]
      refine merged.nodup_iff.mpr (List.nodup_append.mpr ⟨parts.queue_nodup q, parts.queue_nodup s, ?_⟩)
      rintro y inQ z inS rfl
      exact distinct (parts.queue_disjoint q s y inQ inS)
    · rcases eq_or_ne s q with rfl | atQ
      · simp [SlotPool.merge, Function.update_of_ne atR]
      · simpa [SlotPool.merge, Function.update_of_ne atR, Function.update_of_ne atQ] using
          parts.queue_nodup s
  · intro s t y inS inT
    rcases (mem_iff s y).mp inS with ⟨notQ, oldS⟩ | ⟨rfl, oldS⟩ <;>
      rcases (mem_iff t y).mp inT with ⟨notQ', oldT⟩ | ⟨rfl, oldT⟩
    · exact parts.queue_disjoint s t y oldS oldT
    · exact absurd (parts.queue_disjoint s q y oldS oldT) notQ
    · exact absurd (parts.queue_disjoint t q y oldT oldS) notQ'
    · rfl
  · intro y reached
    rcases parts.covered y reached with live | skipped | ⟨s, member⟩
    · exact .inl live
    · exact .inr (.inl skipped)
    · rcases eq_or_ne s q with rfl | atQ
      · exact .inr (.inr ⟨r, (mem_iff r y).mpr (.inr ⟨rfl, member⟩)⟩)
      · exact .inr (.inr ⟨s, (mem_iff s y).mpr (.inl ⟨atQ, member⟩)⟩)

end Moves

end SlotPool

end FreeGuard.Machine
