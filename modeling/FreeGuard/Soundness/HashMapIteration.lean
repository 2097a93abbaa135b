import FreeGuard.Proofs.Buckets
import FreeGuard.Soundness.HashMapRefinement
import Mathlib.Order.Interval.Finset.Nat

/-! # Iterating over the hash map

From `begin()` on, `operator++` follows a bucket to its last entry and then goes on to the next bucket
that counts an entry, so it comes to every entry once and then to `end()`. The constructor of the
iterator takes the bucket of the first entry as an `int`: from bucket 2^31 on the iterator is given
another bucket than the one its entry is in, never finds the end of it, and goes around it for ever.
-/

namespace FreeGuard.Soundness.HashMapIteration

open Machine Model LinkedPath HashMapRefinement

variable {κ ν : Type*} {map : HashMap κ ν} {nodes : List (Node κ ν)}

/-- The list nodes of the entries, bucket by bucket. -/
def entriesFrom (map : HashMap κ ν) (nodes : List (Node κ ν)) (p : ℕ) : List ListRef :=
  (List.range' p (map.buckets.toNat - p)).flatMap fun i => (nodesIn i nodes).map Node.ref

/-- Iterating from `begin()` comes to `end()`, past the entries bucket by bucket and in their order
within a bucket, which is past every entry once. -/
structure Iterates (map : HashMap κ ν) (nodes : List (Node κ ν)) : Prop where
  visited : ∃ fuel, map.visited fuel map.begin = some (entriesFrom map nodes 0)
  once : (nodes.map Node.ref).Nodup ∧ (entriesFrom map nodes 0).Perm (nodes.map Node.ref)
  entry : ∀ node ∈ nodes, map.entryAt node.ref = node.entry

/-- A call and its reply, and the block that the allocator hands out if it inserts. -/
abbrev Event (κ ν : Type*) := (MapCall κ ν × MapReply ν) × ℕ

/-- A call on a map that has a bucket; blocks are addresses, and those of the map are not handed out. -/
def Step (map : HashMap κ ν) (event : Event κ ν) (next : HashMap κ ν) : Prop :=
  0 < map.buckets.toNat ∧ (0 < event.2 ∧ event.2 < 2 ^ 64) ∧ event.2 ∉ map.blocks ∧
    exec map event.2 event.1.1 = (event.1.2, next)

/-- A key to erase is found. -/
def Present (map : HashMap κ ν) (event : Event κ ν) : Prop :=
  match event.1.1 with
  | .erase key keylen => (map.find key keylen).isSome
  | _ => True

/-- The entries after a call with its reply. -/
def entriesAfter [DecidableEq κ] (hashIndex : κ → size_t → ℕ) (nodes : List (Node κ ν)) :
    Event κ ν → List (Node κ ν)
  | ((.insert key keylen value, _), block) =>
    nodes ++ [⟨block, hashIndex key keylen, key, throughInt keylen, value⟩]
  | ((.insertIfAbsent key keylen value, .flag false), block) =>
    nodes ++ [⟨block, hashIndex key keylen, key, throughInt keylen, value⟩]
  | ((.erase key keylen, .flag true), _) => nodes.eraseP fun node =>
    node.bucket = hashIndex key keylen ∧ node.entry.key = key ∧ node.entry.keylen = keylen
  | _ => nodes

/-! ## Buckets and positions -/

theorem throughInt_eq_iff {n : size_t} :
    throughInt n = n ↔ n.toNat < 2 ^ 31 ∨ 2 ^ 64 - 2 ^ 31 ≤ n.toNat := by
  have low : (n.setWidth 32).toNat = n.toNat % 2 ^ 32 := BitVec.toNat_setWidth ..
  have bound := n.isLt
  rw [throughInt, ← BitVec.toInt_inj, BitVec.toInt_signExtend_of_le (by decide),
    BitVec.toInt_eq_toNat_cond, BitVec.toInt_eq_toNat_cond, low]
  split <;> split <;> omega

/-- The map of distinct addresses counts every entry of a bucket. -/
theorem count_ne_zero_iff (linked : map.Linked nodes) (addresses : ∀ b ∈ map.blocks, 0 < b ∧ b < 2 ^ 64)
    {i : ℕ} (bound : i < map.buckets.toNat) : map.count i ≠ 0 ↔ nodesIn i nodes ≠ [] := by
  have inside : (nodes.map Node.block).toFinset ⊆ Finset.Ioo 0 (2 ^ 64) := by
    intro b member
    have held := (linked.block b).mpr (List.mem_toFinset.mp member)
    exact Finset.mem_Ioo.mpr (addresses b held)
  have few := Finset.card_le_card inside
  rw [List.toFinset_card_of_nodup linked.nodup, List.length_map, Nat.card_Ioo] at few
  have part : (nodesIn i nodes).length ≤ nodes.length := List.length_filter_le ..
  rw [linked.count i bound, Ne, ← BitVec.toNat_inj, BitVec.toNat_ofNat,
    Nat.mod_eq_of_lt (by omega)]
  exact List.length_eq_zero_iff.not

/-- A scan over the buckets stops at the next one with an entry, or past the last one. -/
theorem nextUsed_spec (linked : map.Linked nodes) (addresses : ∀ b ∈ map.blocks, 0 < b ∧ b < 2 ^ 64)
    {rounds p : ℕ} (bound : p ≤ map.buckets.toNat) (enough : map.buckets.toNat ≤ p + rounds) :
    ∃ n, map.nextUsed rounds (BitVec.ofNat 64 p) = BitVec.ofNat 64 n ∧ p ≤ n ∧
      n ≤ map.buckets.toNat ∧ (∀ i, p ≤ i → i < n → nodesIn i nodes = []) ∧
      (n < map.buckets.toNat → nodesIn n nodes ≠ []) := by
  have word := map.buckets.isLt
  induction rounds generalizing p with
  | zero => exact ⟨p, rfl, le_rfl, bound, fun i _ _ => by omega, fun below => by omega⟩
  | succ rounds ih =>
    have place : (BitVec.ofNat 64 p).toNat = p := Nat.mod_eq_of_lt (by omega)
    rw [HashMap.nextUsed, HashMap.getHashEntry, place]
    split
    · rename_i none
      have atEnd : ¬p < map.buckets.toNat := by simpa using none
      exact ⟨p, rfl, le_rfl, bound, fun i _ _ => by omega, fun below => absurd below atEnd⟩
    · rename_i hashentry some
      obtain ⟨inside, rfl⟩ : p < map.buckets.toNat ∧ p = hashentry := by simpa using some
      have used := count_ne_zero_iff linked addresses inside
      split
      · rename_i counted
        exact ⟨p, rfl, le_rfl, bound, fun i _ _ => by omega, fun _ => used.mp counted⟩
      · rename_i unused
        obtain ⟨n, stops, lower, upper, empty, busy⟩ := ih inside (by omega)
        refine ⟨n, ?_, by omega, upper, ?_, busy⟩
        · have next : BitVec.ofNat 64 p + 1 = BitVec.ofNat 64 (p + 1) := (BitVec.ofNat_add ..).symm
          rw [next]
          exact stops
        · intro i first last
          rcases eq_or_lt_of_le first with rfl | later
          · exact not_not.mp fun entries => unused (used.mpr entries)
          · exact empty i later last

/-- The iterator at the first entry from a bucket on. -/
def iteratorFrom (map : HashMap κ ν) (p : ℕ) : HashMap.Iterator :=
  let pos := map.nextUsed map.buckets.toNat (BitVec.ofNat 64 p)
  ⟨map.getFirstEntry pos, pos⟩

theorem getFirstEntry_ofNat {n : ℕ} (bound : n ≤ map.buckets.toNat) :
    map.getFirstEntry (BitVec.ofNat 64 n) =
      if n < map.buckets.toNat then some (map.links.next (.bucket n)) else none := by
  have word := map.buckets.isLt
  have place : (BitVec.ofNat 64 n).toNat = n := Nat.mod_eq_of_lt (by omega)
  rw [HashMap.getFirstEntry, HashMap.getHashEntry, place]
  split <;> rfl

/-- Empty buckets hold no entry to visit. -/
theorem entriesFrom_skip {p n : ℕ} (lower : p ≤ n) (upper : n ≤ map.buckets.toNat)
    (empty : ∀ i, p ≤ i → i < n → nodesIn i nodes = []) :
    entriesFrom map nodes p = entriesFrom map nodes n := by
  have split : map.buckets.toNat - p = n - p + (map.buckets.toNat - n) := by omega
  have skipped : (List.range' p (n - p)).flatMap (fun i => (nodesIn i nodes).map Node.ref) = [] := by
    apply List.flatMap_eq_nil_iff.mpr
    intro i member
    obtain ⟨first, last⟩ := List.mem_range'_1.mp member
    rw [empty i first (by omega), List.map_nil]
  rw [entriesFrom, split, ← List.range'_append_1, List.flatMap_append, skipped,
    Nat.add_sub_cancel' lower]
  rfl

theorem entriesFrom_cons {n : ℕ} (bound : n < map.buckets.toNat) :
    entriesFrom map nodes n = (nodesIn n nodes).map Node.ref ++ entriesFrom map nodes (n + 1) := by
  have split : map.buckets.toNat - n = map.buckets.toNat - (n + 1) + 1 := by omega
  rw [entriesFrom, split, List.range'_succ, List.flatMap_cons]
  rfl

/-! ## The walk -/

/-- From an entry to the end of its bucket, and on to the next bucket. -/
theorem visited_bucket {n fuel : ℕ} {start : ListRef} {refs : List ListRef}
    (bound : n < map.buckets.toNat) (path : Path map.links.next start refs (.bucket n))
    (nonempty : refs ≠ []) (entries : ListRef.bucket n ∉ refs) :
    map.visited (fuel + refs.length) ⟨some start, BitVec.ofNat 64 n⟩ =
      (map.visited fuel (iteratorFrom map (n + 1))).map (refs ++ ·) := by
  have word := map.buckets.isLt
  have place : (BitVec.ofNat 64 n).toNat = n := Nat.mod_eq_of_lt (by omega)
  induction refs generalizing start with
  | nil => exact absurd rfl nonempty
  | cons ref rest ih =>
    obtain ⟨rfl, tail⟩ := path
    have off : ListRef.bucket n ∉ rest := fun member => entries (List.mem_cons_of_mem _ member)
    have last : map.isLastEntry start (map.getHashEntry (BitVec.ofNat 64 n)) = true ↔ rest = [] := by
      rw [HashMap.getHashEntry, place, if_pos bound]
      change (map.links.next start == ListRef.bucket n) = true ↔ _
      rw [beq_iff_eq]
      cases rest with
      | nil => exact iff_of_true tail rfl
      | cons second others =>
        apply iff_of_false _ (List.cons_ne_nil _ _)
        exact fun home => off (home ▸ tail.1 ▸ List.mem_cons_self ..)
    rw [List.length_cons, ← Nat.add_assoc, HashMap.visited, HashMap.increment]
    rcases eq_or_ne rest [] with rfl | more
    · rw [last.mpr rfl]
      have next : BitVec.ofNat 64 n + 1 = BitVec.ofNat 64 (n + 1) := (BitVec.ofNat_add ..).symm
      rw [next]
      rfl
    · rw [Bool.eq_false_iff.mpr (last.not.mpr more)]
      have walked := ih tail more off
      simp only [Bool.not_false, if_true, walked, Option.map_map]
      rfl

/-- The iterator at the first entry from a bucket on visits the entries from that bucket on. -/
theorem visited_iteratorFrom (linked : map.Linked nodes)
    (addresses : ∀ b ∈ map.blocks, 0 < b ∧ b < 2 ^ 64) {p : ℕ} (bound : p ≤ map.buckets.toNat) :
    ∃ fuel, map.visited fuel (iteratorFrom map p) = some (entriesFrom map nodes p) := by
  obtain ⟨k, left⟩ := Nat.exists_eq_add_of_le bound
  induction k using Nat.strong_induction_on generalizing p with
  | _ k ih =>
    obtain ⟨n, stops, lower, upper, empty, busy⟩ :=
      nextUsed_spec linked addresses bound (Nat.le_add_left ..)
    rw [iteratorFrom, stops, entriesFrom_skip lower upper empty, getFirstEntry_ofNat upper]
    rcases Nat.lt_or_ge n map.buckets.toNat with inside | past
    · obtain ⟨fuel, rest⟩ := ih (map.buckets.toNat - (n + 1)) (by omega) inside (by omega)
      have ring := linked.ring n inside
      refine ⟨fuel + ((nodesIn n nodes).map Node.ref).length, ?_⟩
      rw [if_pos inside,
        visited_bucket inside ring.next_head (by simpa using busy inside) ring.head_not_mem, rest,
        entriesFrom_cons inside]
      rfl
    · refine ⟨0, ?_⟩
      rw [if_neg (by omega), entriesFrom, Nat.sub_eq_zero_of_le past]
      rfl

/-- An iterator that is given another bucket than that of its entry never comes to the end. -/
theorem visited_stuck (linked : map.Linked nodes) {n : ℕ} (inside : n < map.buckets.toNat)
    {pos : size_t} (other : pos.toNat ≠ n) (fuel : ℕ) {entry : ListRef}
    (member : entry ∈ ListRef.bucket n :: (nodesIn n nodes).map Node.ref) :
    map.visited fuel ⟨some entry, pos⟩ = none := by
  have ring := linked.ring n inside
  induction fuel generalizing entry with
  | zero => rfl
  | succ fuel ih =>
    have stays := ring.next_mem member
    have notLast : map.isLastEntry entry (map.getHashEntry pos) = false := by
      rw [HashMap.getHashEntry]
      split
      · apply beq_eq_false_iff_ne.mpr
        intro home
        rw [home] at stays
        rcases List.mem_cons.mp stays with same | among
        · exact other (ListRef.bucket.inj same)
        · simp [Node.ref] at among
      · rfl
    rw [HashMap.visited, HashMap.increment, notLast]
    simp only [Bool.not_false, if_true, ih stays, Option.map_none]

/-- The entries of a list by bucket are the list, in another order. -/
theorem flatMap_nodesIn_perm (nodes : List (Node κ ν)) (n : ℕ) :
    ((List.range n).flatMap fun i => nodesIn i nodes).Perm (nodes.filter fun node => node.bucket < n) := by
  induction n with
  | zero => simp
  | succ n ih =>
    have split := List.filter_append_perm (fun node : Node κ ν => decide (node.bucket < n))
      (nodes.filter fun node => node.bucket < n + 1)
    rw [List.filter_filter, List.filter_filter] at split
    have below : (nodes.filter fun node => decide (node.bucket < n) && decide (node.bucket < n + 1)) =
        nodes.filter fun node => node.bucket < n := by
      apply List.filter_congr
      intro node _
      rw [← Bool.decide_and]
      exact decide_eq_decide.mpr (by omega)
    have last : (nodes.filter fun node => !decide (node.bucket < n) && decide (node.bucket < n + 1)) =
        nodesIn n nodes := by
      apply List.filter_congr
      intro node _
      rw [← decide_not, ← Bool.decide_and]
      exact decide_eq_decide.mpr (by omega)
    rw [below, last] at split
    rw [List.range_succ, List.flatMap_append, List.flatMap_singleton]
    exact (ih.append_right _).trans split

theorem entriesFrom_perm (linked : map.Linked nodes) :
    (entriesFrom map nodes 0).Perm (nodes.map Node.ref) := by
  have all : (nodes.filter fun node => node.bucket < map.buckets.toNat) = nodes := by
    apply List.filter_eq_self.mpr
    exact fun node member => decide_eq_true (linked.bucket node member)
  have order := flatMap_nodesIn_perm nodes map.buckets.toNat
  rw [all] at order
  rw [entriesFrom, Nat.sub_zero, ← List.range_eq_range', ← List.map_flatMap]
  exact order.map _

/-- The index of the first bucket with an entry survives an `int`. -/
def FirstReached (nodes : List (Node κ ν)) : Prop :=
  ∀ node ∈ nodes, (∀ other ∈ nodes, node.bucket ≤ other.bucket) →
    node.bucket < 2 ^ 31 ∨ 2 ^ 64 - 2 ^ 31 ≤ node.bucket

/-- The first bucket with an entry, if it is bucket `n`. -/
theorem firstReached_iff {n : ℕ} (bound : n < map.buckets.toNat) (busy : nodesIn n nodes ≠ [])
    (least : ∀ node ∈ nodes, n ≤ node.bucket) :
    FirstReached nodes ↔ throughInt (BitVec.ofNat 64 n) = BitVec.ofNat 64 n := by
  have word := map.buckets.isLt
  have place : (BitVec.ofNat 64 n).toNat = n := Nat.mod_eq_of_lt (by omega)
  obtain ⟨first, among⟩ := List.exists_mem_of_ne_nil _ busy
  obtain ⟨member, same⟩ := List.mem_filter.mp among
  have same : first.bucket = n := of_decide_eq_true same
  rw [throughInt_eq_iff, place]
  constructor
  · intro reached
    have bucket := reached first member fun other inside => same.trans_le (least other inside)
    rwa [same] at bucket
  · intro survives node inside lowest
    have only : node.bucket = n := le_antisymm (same ▸ lowest first member) (least node inside)
    rwa [only]

/-- Past a bucket whose index does not survive an `int`, iterating does not end. -/
theorem begin_stuck (linked : map.Linked nodes) {n : ℕ} (inside : n < map.buckets.toNat)
    (stops : map.nextUsed map.buckets.toNat 0 = BitVec.ofNat 64 n)
    (cut : throughInt (BitVec.ofNat 64 n) ≠ BitVec.ofNat 64 n) (fuel : ℕ) :
    map.visited fuel map.begin = none := by
  have word := map.buckets.isLt
  have other : (throughInt (BitVec.ofNat 64 n)).toNat ≠ n := fun same =>
    cut (BitVec.eq_of_toNat_eq (same.trans (Nat.mod_eq_of_lt (by omega)).symm))
  have member := (linked.ring n inside).next_mem (List.mem_cons_self ..)
  rw [HashMap.begin, stops, getFirstEntry_ofNat inside.le, if_pos inside]
  exact visited_stuck linked inside other fuel member

/-- Iterating is right exactly when the index of the first bucket with an entry survives an `int`. -/
theorem iterates_iff (linked : map.Linked nodes) (addresses : ∀ b ∈ map.blocks, 0 < b ∧ b < 2 ^ 64) :
    Iterates map nodes ↔ FirstReached nodes := by
  obtain ⟨fuel, walk⟩ := visited_iteratorFrom linked addresses (Nat.zero_le map.buckets.toNat)
  obtain ⟨n, stops, -, upper, empty, busy⟩ :=
    @nextUsed_spec _ _ map nodes linked addresses map.buckets.toNat 0 (Nat.zero_le _) (by omega)
  have least (node : Node κ ν) (member : node ∈ nodes) : n ≤ node.bucket := by
    by_contra! below
    have among : node ∈ nodesIn node.bucket nodes := List.mem_filter.mpr ⟨member, by simp⟩
    rw [empty _ (Nat.zero_le _) below] at among
    cases among
  have rest (visited : ∃ fuel, map.visited fuel map.begin = some (entriesFrom map nodes 0)) :
      Iterates map nodes :=
    ⟨visited, ⟨Node.ref_nodup linked.nodup, entriesFrom_perm linked⟩, linked.entry⟩
  have zero : (0 : size_t) = BitVec.ofNat 64 0 := rfl
  have first := @getFirstEntry_ofNat _ _ map n upper
  rw [iteratorFrom, stops, first] at walk
  rw [HashMap.begin, zero, stops, first] at rest
  split at walk
  · rename_i inside
    rw [firstReached_iff inside (busy inside) least]
    constructor
    · rintro ⟨⟨fuel, visited⟩, -, -⟩
      by_contra cut
      cases (begin_stuck linked inside stops cut fuel).symm.trans visited
    · intro survives
      rw [if_pos inside] at rest
      dsimp only at rest
      rw [HashMap.iterator, survives] at rest
      exact rest ⟨fuel, walk⟩
  · rename_i past
    rw [if_neg past] at rest
    refine iff_of_true (rest ⟨fuel, ?_⟩) ?_
    · cases fuel <;> exact walk
    · intro node member
      exact absurd (Nat.lt_of_le_of_lt (least node member) (linked.bucket node member)) past

/-! ## Calls -/

/-- A lookup looks through some of the first entries of a bucket. -/
theorem getEntry_eq (linked : map.Linked nodes) {i : ℕ} (bound : i < map.buckets.toNat) (key : κ)
    (keylen : size_t) : ∃ k, map.getEntry i key keylen =
      (((nodesIn i nodes).take k).find? fun node => map.entryMatches key keylen node.ref).map
        Node.ref := by
  have counted := linked.count i bound
  generalize rounds : (toInt (map.count i)).toNat = k
  have few : k ≤ ((nodesIn i nodes).map Node.ref).length := by
    have low : ((map.count i).setWidth 32).toNat = (map.count i).toNat % 2 ^ 32 := BitVec.toNat_setWidth ..
    have wrapped : (map.count i).toNat = (nodesIn i nodes).length % 2 ^ 64 := by
      rw [counted, BitVec.toNat_ofNat]
    rw [← rounds, List.length_map, toInt, BitVec.toInt_eq_toNat_cond, low]
    have := Nat.mod_le (nodesIn i nodes).length (2 ^ 64)
    split <;> omega
  have path := (linked.ring i bound).next_head
  rw [← List.take_append_drop k ((nodesIn i nodes).map Node.ref)] at path
  obtain ⟨_, front, _⟩ := path_append.mp path
  have search := @HashMap.searchFrom_eq_find? _ _ map key keylen _ _ _ front
  rw [List.length_take, Nat.min_eq_left few] at search
  refine ⟨k, ?_⟩
  rw [HashMap.getEntry, rounds, search, ← List.map_take, List.find?_map]
  rfl

variable [DecidableEq κ]

/-- A lookup finds the first entry of the key in its bucket. -/
theorem getEntry_some (linked : map.Linked nodes) {i : ℕ} (bound : i < map.buckets.toNat) {key : κ}
    {keylen : size_t} {found : ListRef} (some : map.getEntry i key keylen = some found) :
    ∃ before node after, nodes = before ++ node :: after ∧ found = node.ref ∧ node.bucket = i ∧
      nodes.eraseP (fun node =>
        node.bucket = i ∧ node.entry.key = key ∧ node.entry.keylen = keylen) = before ++ after := by
  obtain ⟨k, search⟩ := getEntry_eq linked bound key keylen
  rw [some, eq_comm, Option.map_eq_some_iff] at search
  obtain ⟨node, first, rfl⟩ := search
  have whole : (nodesIn i nodes).find? (fun node => map.entryMatches key keylen node.ref) = node := by
    rw [← List.take_append_drop k (nodesIn i nodes), List.find?_append, first]
    rfl
  rw [nodesIn, List.find?_filter] at whole
  obtain ⟨hit, before, after, rfl, missed⟩ := List.find?_eq_some_iff_append.mp whole
  have matches_iff (other : Node κ ν) (member : other ∈ before ++ node :: after) :
      map.entryMatches key keylen other.ref = true ↔
        other.entry.key = key ∧ other.entry.keylen = keylen := by
    rw [HashMap.entryMatches, linked.entry other member, Bool.and_eq_true, beq_iff_eq,
      map.funcs.keycmp_iff, and_comm]
  simp only [decide_eq_true_eq] at hit
  obtain ⟨bucket, hit⟩ := hit
  refine ⟨before, node, after, rfl, rfl, bucket, ?_⟩
  rw [List.eraseP_append_right, List.eraseP_cons_of_pos]
  · simpa [bucket] using (matches_iff node (by simp)).mp hit
  · intro other member again
    have skipped := missed other member
    obtain ⟨bucket', same⟩ := of_decide_eq_true again
    rw [(matches_iff other (List.mem_append_left _ member)).mpr same, bucket', decide_eq_true rfl] at skipped
    cases skipped

/-- What holds of the map along a run. -/
def Iterable (hashIndex : κ → size_t → ℕ) (map : HashMap κ ν) (nodes : List (Node κ ν)) : Prop :=
  map.Linked nodes ∧ (∀ b ∈ map.blocks, 0 < b ∧ b < 2 ^ 64) ∧ map.hashIndex = hashIndex

omit [DecidableEq κ] in
theorem Iterable.inserted {hashIndex : κ → size_t → ℕ} (iterable : Iterable hashIndex map nodes)
    (positive : 0 < map.buckets.toNat) {block : ℕ} (address : 0 < block ∧ block < 2 ^ 64)
    (fresh : block ∉ map.blocks) (key : κ) (keylen : size_t) (value : ν) :
    Iterable hashIndex (map.insertEntry block (map.hashIndex key keylen) key keylen value)
      (nodes ++ [⟨block, hashIndex key keylen, key, throughInt keylen, value⟩]) := by
  obtain ⟨linked, addresses, rfl⟩ := iterable
  refine ⟨linked.insertEntry fresh (HashMap.hashIndex_lt positive key keylen), ?_, rfl⟩
  intro b member
  rcases List.mem_cons.mp member with rfl | old
  · exact address
  · exact addresses b old

/-- Every call in which a key to erase is found keeps the buckets linked and counted. -/
theorem Iterable.step {hashIndex : κ → size_t → ℕ} {next : HashMap κ ν} {event : Event κ ν}
    (iterable : Iterable hashIndex map nodes) (move : Guarded Present Step map event next) :
    Iterable hashIndex next (entriesAfter hashIndex nodes event) := by
  obtain ⟨present, positive, address, fresh, ran⟩ := move
  obtain ⟨⟨call, reply⟩, block⟩ := event
  cases call with
  | insert key keylen value =>
    obtain ⟨rfl, rfl⟩ := Prod.mk.inj ran
    exact iterable.inserted positive address fresh key keylen value
  | insertIfAbsent key keylen value =>
    rw [exec, HashMap.insertIfAbsent] at ran
    dsimp only at ran
    split at ran
    · obtain ⟨rfl, rfl⟩ := Prod.mk.inj ran
      exact iterable
    · obtain ⟨rfl, rfl⟩ := Prod.mk.inj ran
      exact iterable.inserted positive address fresh key keylen value
  | erase key keylen =>
    obtain ⟨linked, addresses, rfl⟩ := iterable
    have bound := HashMap.hashIndex_lt positive key keylen
    obtain ⟨found, some⟩ := Option.isSome_iff_exists.mp (Option.isSome_map.symm.trans present)
    obtain ⟨before, node, after, rfl, rfl, bucket, erased⟩ := getEntry_some linked bound some
    rw [exec, HashMap.erase] at ran
    simp only [some] at ran
    obtain ⟨rfl, rfl⟩ := Prod.mk.inj ran
    refine ⟨?_, ?_, rfl⟩
    · change HashMap.Linked _ (List.eraseP _ _)
      rw [erased]
      have unlinked := linked.eraseEntry
      rw [bucket] at unlinked
      exact unlinked
    · intro b member
      exact addresses b (List.mem_filter.mp member).1
  | find key keylen =>
    obtain ⟨rfl, rfl⟩ := Prod.mk.inj ran
    exact iterable

theorem Iterable.run {hashIndex : κ → size_t → ℕ} {next : HashMap κ ν} {events : List (Event κ ν)}
    (iterable : Iterable hashIndex map nodes) (run : Run (Guarded Present Step) map events next) :
    Iterable hashIndex next (events.foldl (entriesAfter hashIndex) nodes) := by
  induction run generalizing nodes with
  | nil => exact iterable
  | cons move _ ih => exact ih (iterable.step move)

/-- After every run in which the keys to erase are found, iterating over the map is right exactly when
the index of the first bucket with an entry survives an `int`. -/
theorem iteration_complete_iff (funcs : HashFuncs κ) (size : size_t) (links : Links ListRef)
    (count : ℕ → size_t) (entryAt : ListRef → Entry κ ν) {events : List (Event κ ν)}
    {map : HashMap κ ν}
    (run : Run (Guarded Present Step) (HashMap.initializeMap funcs size links count entryAt) events map) :
    Iterates map (events.foldl (entriesAfter fun key keylen =>
        (funcs.hashfunc key keylen % size).toNat) []) ↔
      FirstReached (events.foldl (entriesAfter (ν := ν) fun key keylen =>
        (funcs.hashfunc key keylen % size).toNat) []) := by
  have linked := HashMap.linked_initializeMap (ν := ν) funcs size links count entryAt
  have start : Iterable (fun key keylen => (funcs.hashfunc key keylen % size).toNat)
      (HashMap.initializeMap funcs size links count entryAt) [] := by
    refine ⟨linked, ?_, ?_⟩
    · intro b member
      exact absurd ((linked.block b).mp member) List.not_mem_nil
    · funext key keylen
      exact HashMap.initializeMap_hashIndex funcs size links count entryAt key keylen
  obtain ⟨linked, addresses, -⟩ := start.run run
  exact iterates_iff linked addresses

/-- Key functions that put every key in one bucket. -/
def bucketFuncs (bucket : size_t) : HashFuncs ℕ := { addrFuncs with hashfunc := fun _ _ => bucket }

/-- An empty map over zeroed memory. -/
def emptyMap (bucket size : size_t) : HashMap ℕ ℕ :=
  HashMap.initializeMap (bucketFuncs bucket) size ⟨id, id⟩ (fun _ => 0) fun _ => ⟨0, 0, 0⟩

/-- Two entries in one bucket. -/
theorem two_entries_iterated :
    Iterates (((emptyMap 0 1).insert 8 1 sizeofPointer 10).insert 16 2 sizeofPointer 20)
        [⟨8, 0, 1, 8, 10⟩, ⟨16, 0, 2, 8, 20⟩] ↔
      FirstReached ([⟨8, 0, 1, 8, 10⟩, ⟨16, 0, 2, 8, 20⟩] : List (Node ℕ ℕ)) :=
  iteration_complete_iff (bucketFuncs 0) 1 ⟨id, id⟩ (fun _ => 0) (fun _ => ⟨0, 0, 0⟩)
    (.cons ⟨trivial, by decide, by decide, by decide, rfl⟩
      (.single ⟨trivial, by decide, by decide, by decide, rfl⟩) :
      Run (Guarded Present Step) (emptyMap 0 1)
        [((.insert 1 sizeofPointer 10, .done), 8), ((.insert 2 sizeofPointer 20, .done), 16)] _)

/-- A single entry in a bucket whose index does not survive an `int`. -/
theorem single_entry_stuck {empty : HashMap ℕ ℕ} (linked : empty.Linked []) {key : ℕ} {keylen : size_t}
    (inside : empty.hashIndex key keylen < empty.buckets.toNat)
    (cut : throughInt (BitVec.ofNat 64 (empty.hashIndex key keylen)) ≠
      BitVec.ofNat 64 (empty.hashIndex key keylen)) (value fuel : ℕ) :
    (empty.insert 8 key keylen value).visited fuel (empty.insert 8 key keylen value).begin = none := by
  have fresh : 8 ∉ empty.blocks := fun member => absurd ((linked.block 8).mp member) List.not_mem_nil
  have inserted : (empty.insert 8 key keylen value).Linked _ := linked.insertEntry fresh inside
  have addresses : ∀ b ∈ (empty.insert 8 key keylen value).blocks, 0 < b ∧ b < 2 ^ 64 := by
    intro b held
    obtain rfl : b = 8 := by simpa using (inserted.block b).mp held
    decide
  obtain ⟨n, stops, -, upper, skipped, busy⟩ :=
    nextUsed_spec inserted addresses (Nat.zero_le _) (Nat.le_of_eq (Nat.zero_add _).symm)
  -- the scan stops at the only bucket with an entry
  obtain rfl : n = empty.hashIndex key keylen := by
    by_contra other
    rcases Nat.lt_or_ge n (empty.hashIndex key keylen) with below | above
    · apply busy (below.trans inside)
      simp [nodesIn, Ne.symm other]
    · have full := skipped _ (Nat.zero_le _) (lt_of_le_of_ne above (Ne.symm other))
      simp [nodesIn] at full
  exact begin_stuck inserted inside stops cut fuel

/-- In a map of 2^31 + 1 buckets whose only entry is in the last one, iterating never ends. -/
theorem last_bucket_not_iterated : ∃ map : HashMap ℕ ℕ,
    Run Step (emptyMap 0x80000000 0x80000001) [((.insert 1 sizeofPointer 10, .done), 8)] map ∧
    ∀ fuel, map.visited fuel map.begin = none := by
  have linked : (emptyMap 0x80000000 0x80000001).Linked [] := HashMap.linked_initializeMap ..
  have buckets : (emptyMap 0x80000000 0x80000001).buckets = 0x80000001 :=
    HashMap.initializeMap_buckets ..
  have bucket : (emptyMap 0x80000000 0x80000001).hashIndex 1 sizeofPointer = 2 ^ 31 :=
    HashMap.initializeMap_hashIndex ..
  generalize emptyMap 0x80000000 0x80000001 = empty at linked buckets bucket ⊢
  have size : empty.buckets.toNat = 2 ^ 31 + 1 := congrArg BitVec.toNat buckets
  have fresh : 8 ∉ empty.blocks := fun member => absurd ((linked.block 8).mp member) List.not_mem_nil
  refine ⟨_, .single ⟨by omega, by decide, fresh, rfl⟩, single_entry_stuck linked ?_ ?_ 10⟩
  · rw [bucket, size]
    decide
  · rw [bucket, Ne, throughInt_eq_iff]
    decide

end FreeGuard.Soundness.HashMapIteration
