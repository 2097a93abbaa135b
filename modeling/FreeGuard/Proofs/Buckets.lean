import FreeGuard.Model.HashMap
import FreeGuard.ToMathlib.ListUpdate
import Mathlib.Data.List.Basic

/-! # Buckets as circular lists

`HashMap.Linked` relates a map to the list of its entries in insertion order, each with the bucket that
it hangs in. Every bucket is the ring of its entries in that order, and its count is their number, as
far as a `size_t` holds it. Hanging a fresh entry at the end of a bucket and taking one out keep this,
whatever the keys are.
-/

namespace FreeGuard.Model

open Machine LinkedPath

variable {κ ν : Type*}

/-- An entry block in a bucket. -/
structure Node (κ ν : Type*) where
  block : ℕ
  bucket : ℕ
  entry : Entry κ ν

namespace Node

/-- The list node of an entry block. -/
def ref (node : Node κ ν) : ListRef := .entry node.block

theorem ref_nodup {nodes : List (Node κ ν)} (nodup : (nodes.map block).Nodup) :
    (nodes.map ref).Nodup := by
  have split : nodes.map ref = (nodes.map block).map ListRef.entry := by simp [ref]
  rw [split]
  exact nodup.map fun _ _ same => ListRef.entry.inj same

end Node

/-- The entries of a bucket. -/
def nodesIn (i : ℕ) (nodes : List (Node κ ν)) : List (Node κ ν) := nodes.filter fun node => node.bucket = i

theorem nodesIn_append (i : ℕ) (before after : List (Node κ ν)) :
    nodesIn i (before ++ after) = nodesIn i before ++ nodesIn i after :=
  List.filter_append ..

theorem nodesIn_cons (i : ℕ) (node : Node κ ν) (nodes : List (Node κ ν)) :
    nodesIn i (node :: nodes) =
      if node.bucket = i then node :: nodesIn i nodes else nodesIn i nodes := by
  simp [nodesIn, List.filter_cons]

namespace HashMap

variable {map : HashMap κ ν} {nodes before after : List (Node κ ν)} {node : Node κ ν} {i : ℕ}

/-- The map holds exactly these entries, hung in this order. -/
structure Linked (map : HashMap κ ν) (nodes : List (Node κ ν)) : Prop where
  bucket : ∀ node ∈ nodes, node.bucket < map.buckets.toNat
  ring : ∀ i < map.buckets.toNat, IsRing map.links (.bucket i) ((nodesIn i nodes).map Node.ref)
  entry : ∀ node ∈ nodes, map.entryAt node.ref = node.entry
  block : ∀ b, b ∈ map.blocks ↔ b ∈ nodes.map Node.block
  nodup : (nodes.map Node.block).Nodup
  count : ∀ i < map.buckets.toNat, map.count i = BitVec.ofNat 64 (nodesIn i nodes).length

theorem initializeMap_buckets (funcs : HashFuncs κ) (size : size_t) (links : Links ListRef)
    (count : ℕ → size_t) (entryAt : ListRef → Entry κ ν) :
    (initializeMap funcs size links count entryAt).buckets = size :=
  forRange_invariant (fun _ (map : HashMap κ ν) => map.buckets = size) rfl fun _ _ _ kept => kept

theorem initializeMap_hashIndex (funcs : HashFuncs κ) (size : size_t) (links : Links ListRef)
    (count : ℕ → size_t) (entryAt : ListRef → Entry κ ν) (key : κ) (keylen : size_t) :
    (initializeMap funcs size links count entryAt).hashIndex key keylen =
      (funcs.hashfunc key keylen % size).toNat :=
  forRange_invariant
    (fun _ (map : HashMap κ ν) => map.hashIndex key keylen = (funcs.hashfunc key keylen % size).toNat)
    rfl fun _ _ _ kept => kept

theorem linked_initializeMap (funcs : HashFuncs κ) (size : size_t) (links : Links ListRef)
    (count : ℕ → size_t) (entryAt : ListRef → Entry κ ν) :
    (initializeMap funcs size links count entryAt).Linked [] := by
  have loop := @forRange_invariant _ size.toNat initBucket
    (⟨funcs, size, links, count, entryAt, []⟩ : HashMap κ ν)
    (fun done map => map.blocks = [] ∧ ∀ i < done,
      map.links.next (.bucket i) = .bucket i ∧ map.links.prev (.bucket i) = .bucket i ∧
      map.count i = 0)
    ⟨rfl, fun i bound => absurd bound (Nat.not_lt_zero i)⟩ (by
      rintro n - map ⟨blocks, cleared⟩
      refine ⟨blocks, fun i bound => ?_⟩
      rcases eq_or_ne i n with rfl | same
      · simp [initBucket, listInit, nodeInit, setNext, setPrev]
      · have other : ListRef.bucket i ≠ .bucket n := fun equal => same (ListRef.bucket.inj equal)
        simpa [initBucket, listInit, nodeInit, setNext, setPrev, Function.update_of_ne same,
          Function.update_of_ne other] using cleared i (by omega))
  obtain ⟨blocks, cleared⟩ := loop
  have buckets := initializeMap_buckets funcs size links count entryAt
  change (initializeMap funcs size links count entryAt).blocks = [] at blocks
  refine ⟨?_, ?_, ?_, ?_, List.nodup_nil, ?_⟩
  · exact fun node member => absurd member List.not_mem_nil
  · intro i bound
    rw [buckets] at bound
    obtain ⟨next, prev, _⟩ := cleared i bound
    exact IsRing.singleton next prev
  · exact fun node member => absurd member List.not_mem_nil
  · simp [blocks]
  · intro i bound
    rw [buckets] at bound
    exact (cleared i bound).2.2

/-- Two buckets share no list node. -/
theorem Linked.apart (linked : map.Linked nodes) {i j : ℕ} (distinct : i ≠ j) :
    ∀ n ∈ ListRef.bucket i :: (nodesIn i nodes).map Node.ref,
      n ∉ ListRef.bucket j :: (nodesIn j nodes).map Node.ref := by
  intro n inI inJ
  rcases List.mem_cons.mp inI with rfl | inI
  · rcases List.mem_cons.mp inJ with equal | inJ
    · exact distinct (ListRef.bucket.inj equal)
    · simp [Node.ref] at inJ
  · obtain ⟨left, inLeft, rfl⟩ := List.mem_map.mp inI
    obtain ⟨leftMem, leftBucket⟩ := List.mem_filter.mp inLeft
    rcases List.mem_cons.mp inJ with equal | inJ
    · cases equal
    · obtain ⟨right, inRight, refs⟩ := List.mem_map.mp inJ
      obtain ⟨rightMem, rightBucket⟩ := List.mem_filter.mp inRight
      obtain rfl := List.inj_on_of_nodup_map (Node.ref_nodup linked.nodup) rightMem leftMem refs
      exact distinct ((of_decide_eq_true leftBucket).symm.trans (of_decide_eq_true rightBucket))

/-- A block that the map does not hold is the node of none of its buckets. -/
theorem Linked.fresh_ref (linked : map.Linked nodes) {block : ℕ} (fresh : block ∉ map.blocks) (i : ℕ) :
    ListRef.entry block ∉ ListRef.bucket i :: (nodesIn i nodes).map Node.ref := by
  intro member
  rcases List.mem_cons.mp member with same | member
  · cases same
  · obtain ⟨other, inside, same⟩ := List.mem_map.mp member
    refine fresh ((linked.block block).mpr ?_)
    exact ListRef.entry.inj same ▸ List.mem_map_of_mem (List.mem_filter.mp inside).1

/-- `insertEntry` hangs the entry at the end of a bucket; the stored key length went through an
`int`. -/
theorem Linked.insertEntry (linked : map.Linked nodes) {block head : ℕ} {key : κ} {keylen : size_t}
    {value : ν} (fresh : block ∉ map.blocks) (bound : head < map.buckets.toNat) :
    (map.insertEntry block head key keylen value).Linked
      (nodes ++ [⟨block, head, key, throughInt keylen, value⟩]) := by
  generalize same : (⟨block, head, key, throughInt keylen, value⟩ : Node κ ν) = node
  obtain rfl : node.block = block := same ▸ rfl
  obtain rfl : node.bucket = head := same ▸ rfl
  have stored : node.entry = ⟨key, throughInt keylen, value⟩ := same ▸ rfl
  have offRing := linked.fresh_ref fresh
  have freshBlock : node.block ∉ nodes.map Node.block := (linked.block _).not.mp fresh
  -- initializing the fresh node leaves every ring alone
  have initialized : ∀ i < map.buckets.toNat,
      IsRing (listInit map.links node.ref) (.bucket i) ((nodesIn i nodes).map Node.ref) := by
    intro i bound
    have off : ∀ n ∈ ListRef.bucket i :: (nodesIn i nodes).map Node.ref, n ≠ node.ref :=
      fun n member same => offRing i (show node.ref ∈ _ from same ▸ member)
    refine (linked.ring i bound).frame ?_ ?_ <;> intro n member <;>
      exact Function.update_of_ne (off n member) _ _
  refine ⟨?_, ?_, ?_, ?_, ?_, ?_⟩
  · intro other member
    rcases List.mem_append.mp member with old | new
    · exact linked.bucket other old
    · rwa [List.mem_singleton.mp new]
  · intro i bound'
    have bound' : i < map.buckets.toNat := bound'
    change IsRing (listInsertTail (listInit map.links node.ref) node.ref (.bucket _)) (.bucket i)
      ((nodesIn i (nodes ++ [node])).map Node.ref)
    rw [nodesIn_append, nodesIn_cons]
    rcases eq_or_ne node.bucket i with same | same
    · rw [if_pos same, List.map_append, List.map_cons, same]
      exact (initialized i bound').insert_tail (offRing i)
    · rw [if_neg same, show nodesIn i ([] : List (Node κ ν)) = [] from rfl, List.append_nil]
      exact (initialized _ bound).insert_tail_frame (initialized i bound')
        (linked.apart (Ne.symm same)) (offRing i)
  · intro other member
    change Function.update map.entryAt node.ref _ other.ref = _
    rcases List.mem_append.mp member with old | new
    · have different : other.ref ≠ node.ref := fun same =>
        freshBlock (ListRef.entry.inj same ▸ List.mem_map_of_mem old)
      simp only [Function.update_of_ne different, linked.entry other old]
    · rw [List.mem_singleton.mp new, Function.update_self, stored]
  · intro b
    change b ∈ node.block :: map.blocks ↔ _
    simp [linked.block b, or_comm]
  · rw [List.map_append, List.map_singleton]
    exact List.nodup_append.mpr ⟨linked.nodup, List.nodup_singleton _, by
      rintro a member b single rfl
      exact freshBlock (List.mem_singleton.mp single ▸ member)⟩
  · intro i bound'
    have counted := linked.count i bound'
    change Function.update map.count _ (map.count _ + 1) i = BitVec.ofNat 64 _
    rw [nodesIn_append, nodesIn_cons, List.length_append]
    rcases eq_or_ne node.bucket i with same | same
    · rw [if_pos same, same, Function.update_self, counted, BitVec.ofNat_add]
      rfl
    · rw [if_neg same, Function.update_of_ne (Ne.symm same), counted]
      rfl

/-- Erasing the node of an entry and decrementing its bucket's count takes the entry out. -/
theorem Linked.eraseEntry (linked : map.Linked (before ++ node :: after)) :
    HashMap.Linked
      { map.eraseEntry node.ref with
        count := Function.update map.count node.bucket (map.count node.bucket - 1) }
      (before ++ after) := by
  have headBound := linked.bucket node (by simp)
  have blockOff := List.map_notMem_of_nodup_middle linked.nodup
  have own := linked.ring _ headBound
  rw [nodesIn_append, nodesIn_cons, if_pos rfl, List.map_append, List.map_cons] at own
  refine ⟨?_, ?_, ?_, ?_, ?_, ?_⟩
  · intro other member
    exact linked.bucket other (List.mem_middle.mpr (.inr member))
  · intro i bound
    change IsRing (listRemoveNode map.links node.ref) (.bucket i)
      ((nodesIn i (before ++ after)).map Node.ref)
    rw [nodesIn_append, List.map_append]
    rcases eq_or_ne node.bucket i with rfl | same
    · exact own.unlink
    · have ring := linked.ring i bound
      have apart := linked.apart (Ne.symm same)
      rw [nodesIn_append, nodesIn_cons, if_neg same, List.map_append] at ring apart
      rw [nodesIn_append, nodesIn_cons, if_pos rfl, List.map_append, List.map_cons] at apart
      exact own.unlink_frame ring apart
  · intro other member
    exact linked.entry other (List.mem_middle.mpr (.inr member))
  · intro b
    change b ∈ map.blocks.filter _ ↔ _
    rw [List.mem_filter, linked.block b]
    have distinct : b ∈ (before ++ after).map Node.block → b ≠ node.block := by
      rintro member rfl
      exact blockOff member
    simp only [List.map_append, List.map_cons, List.mem_append, List.mem_cons, Node.ref, ne_eq,
      ListRef.entry.injEq, decide_not, Bool.not_eq_true', decide_eq_false_iff_not] at distinct ⊢
    constructor
    · rintro ⟨front | same | back, different⟩
      · exact .inl front
      · exact absurd same different
      · exact .inr back
    · intro member
      exact ⟨member.elim .inl (fun back => .inr (.inr back)), distinct member⟩
  · have nodup := linked.nodup
    rw [List.map_append, List.map_cons] at nodup
    rw [List.map_append]
    exact (List.nodup_middle.mp nodup).of_cons
  · intro i bound
    have counted := linked.count i bound
    change Function.update map.count _ (map.count _ - 1) i = _
    rw [nodesIn_append, nodesIn_cons, List.length_append] at counted
    rw [nodesIn_append, List.length_append]
    rcases eq_or_ne node.bucket i with same | same
    · rw [if_pos same, List.length_cons, ← Nat.add_assoc, BitVec.ofNat_add] at counted
      rw [same, Function.update_self, counted]
      exact BitVec.add_sub_cancel ..
    · rw [if_neg same] at counted
      rw [Function.update_of_ne (Ne.symm same), counted]

end HashMap

end FreeGuard.Model
