import FreeGuard.Proofs.Buckets
import Mathlib.Data.Fintype.EquivFin

/-! # Buckets as filtered item lists

`HashMap.Refines` relates a map to the list of its entries in insertion order. Each bucket is the
ring of the entries that hash to it, in that order, and its count is their number. A lookup then
finds the first entry of the whole list with the key, an insertion appends, and an erasure removes
the first entry with the key; the counter update of an erasure is right exactly when an entry was
there. `HashMap.Models` forgets the blocks, so that a client of the map sees an association list.
-/

namespace FreeGuard.Model

open Machine LinkedPath

variable {κ ν : Type*}

theorem toInt_toNat {n : size_t} (small : n.toNat < 2 ^ 31) : (toInt n).toNat = n.toNat := by
  rw [toInt, BitVec.toInt_eq_toNat_of_lt]
  · simp only [BitVec.toNat_setWidth, Int.toNat_natCast]
    omega
  · simp only [BitVec.toNat_setWidth]
    omega

/-- An entry of the map: its block and its data. -/
structure Item (κ ν : Type*) where
  block : ℕ
  key : κ
  keylen : size_t
  value : ν

namespace Item

/-- The list node of an entry. -/
def ref (item : Item κ ν) : ListRef := .entry item.block

/-- The key and key length together name an entry. -/
def name (item : Item κ ν) : κ × size_t := (item.key, item.keylen)

def pair (item : Item κ ν) : (κ × size_t) × ν := (item.name, item.value)

end Item

namespace HashMap

variable {map : HashMap κ ν} {items before after : List (Item κ ν)} {item : Item κ ν} {i : ℕ}

/-- The entries that hash to bucket `i`, in insertion order. -/
def inBucket (map : HashMap κ ν) (i : ℕ) (items : List (Item κ ν)) : List (Item κ ν) :=
  items.filter fun item => map.hashIndex item.key item.keylen = i

/-- The map holds exactly these entries, inserted in this order. -/
structure Refines (map : HashMap κ ν) (items : List (Item κ ν)) : Prop where
  positive : 0 < map.buckets.toNat
  ring : ∀ i < map.buckets.toNat,
    IsRing map.links (.bucket i) ((map.inBucket i items).map Item.ref)
  entry : ∀ item ∈ items, map.entryAt item.ref = ⟨item.key, item.keylen, item.value⟩
  block : ∀ b, b ∈ map.blocks ↔ b ∈ items.map Item.block
  nodup : (items.map Item.block).Nodup
  count : ∀ i < map.buckets.toNat, (map.count i).toNat = (map.inBucket i items).length
  short : ∀ i < map.buckets.toNat, (map.inBucket i items).length < 2 ^ 31

theorem hashIndex_lt (positive : 0 < map.buckets.toNat) (key : κ) (keylen : size_t) :
    map.hashIndex key keylen < map.buckets.toNat := by
  rw [hashIndex, BitVec.toNat_umod]
  exact Nat.mod_lt _ positive

/-- The place of an entry. -/
def nodeOf (map : HashMap κ ν) (item : Item κ ν) : Node κ ν :=
  ⟨item.block, map.hashIndex item.key item.keylen, item.key, item.keylen, item.value⟩

theorem nodesIn_map (map : HashMap κ ν) (i : ℕ) (items : List (Item κ ν)) :
    nodesIn i (items.map map.nodeOf) = (map.inBucket i items).map map.nodeOf :=
  List.filter_map

/-- Entries found by their keys, in buckets that an `int` counts. -/
theorem refines_iff : map.Refines items ↔ 0 < map.buckets.toNat ∧ map.Linked (items.map map.nodeOf) ∧
    ∀ i < map.buckets.toNat, (map.inBucket i items).length < 2 ^ 31 := by
  have refs (i : ℕ) : (nodesIn i (items.map map.nodeOf)).map Node.ref =
      (map.inBucket i items).map Item.ref := by
    rw [nodesIn_map, List.map_map]
    rfl
  have blocks : (items.map map.nodeOf).map Node.block = items.map Item.block := List.map_map
  have length (i : ℕ) : (nodesIn i (items.map map.nodeOf)).length = (map.inBucket i items).length := by
    rw [nodesIn_map, List.length_map]
  constructor
  · rintro ⟨positive, ring, entry, block, nodup, count, short⟩
    refine ⟨positive, ⟨?_, ?_, ?_, ?_, ?_, ?_⟩, short⟩
    · intro node member
      obtain ⟨item, -, rfl⟩ := List.mem_map.mp member
      exact hashIndex_lt positive item.key item.keylen
    · intro i bound
      rw [refs]
      exact ring i bound
    · intro node member
      obtain ⟨item, inside, rfl⟩ := List.mem_map.mp member
      exact entry item inside
    · rw [blocks]
      exact block
    · rw [blocks]
      exact nodup
    · intro i bound
      rw [length, ← count i bound, BitVec.ofNat_toNat, BitVec.setWidth_eq]
  · rintro ⟨positive, linked, short⟩
    refine ⟨positive, ?_, ?_, ?_, ?_, ?_, short⟩
    · intro i bound
      rw [← refs]
      exact linked.ring i bound
    · intro item member
      exact linked.entry (map.nodeOf item) (List.mem_map_of_mem member)
    · rw [← blocks]
      exact linked.block
    · rw [← blocks]
      exact linked.nodup
    · intro i bound
      have small := short i bound
      rw [linked.count i bound, length, BitVec.toNat_ofNat, Nat.mod_eq_of_lt (by omega)]

/-! ## The empty map -/

theorem refines_initializeMap (funcs : HashFuncs κ) {size : size_t} (positive : 0 < size.toNat)
    (links : Links ListRef) (count : ℕ → size_t) (entryAt : ListRef → Entry κ ν) :
    (initializeMap funcs size links count entryAt).Refines [] := by
  refine refines_iff.mpr ⟨?_, linked_initializeMap funcs size links count entryAt, ?_⟩
  · rwa [initializeMap_buckets]
  · exact fun i _ => by simp [inBucket]

/-! ## Lookup -/

theorem searchFrom_eq_find? {key : κ} {keylen : size_t} {start stop : ListRef} {refs : List ListRef}
    (path : Path map.links.next start refs stop) :
    map.searchFrom key keylen refs.length start = refs.find? (map.entryMatches key keylen) := by
  induction refs generalizing start with
  | nil => rfl
  | cons ref rest ih =>
    obtain ⟨rfl, tail⟩ := path
    rw [List.length_cons, searchFrom, List.find?_cons, ih tail]
    cases map.entryMatches key keylen start <;> rfl

private theorem find?_congr {α : Type*} {p q : α → Bool} {xs : List α}
    (same : ∀ x ∈ xs, p x = q x) : xs.find? p = xs.find? q := by
  induction xs with
  | nil => rfl
  | cons x rest ih =>
    rw [List.find?_cons, List.find?_cons, same x (List.mem_cons_self ..),
      ih fun y member => same y (List.mem_cons_of_mem _ member)]

variable [DecidableEq κ]

/-- A bucket walk finds the first entry of the whole map with the key. -/
theorem Refines.getEntry_eq (refines : map.Refines items) (key : κ) (keylen : size_t) :
    map.getEntry (map.hashIndex key keylen) key keylen =
      (items.find? fun item => item.name = (key, keylen)).map Item.ref := by
  have bound := hashIndex_lt refines.positive key keylen
  have count := refines.count _ bound
  have matches_iff : ∀ item ∈ items,
      map.entryMatches key keylen item.ref = decide (item.name = (key, keylen)) := by
    intro item member
    rw [entryMatches, refines.entry item member, Bool.eq_iff_iff, Bool.and_eq_true, beq_iff_eq,
      map.funcs.keycmp_iff, decide_eq_true_eq, Item.name, Prod.mk.injEq, and_comm]
  rw [getEntry, toInt_toNat (count ▸ refines.short _ bound), count,
    ← @List.length_map _ _ (map.inBucket _ items) Item.ref,
    searchFrom_eq_find? (refines.ring _ bound).next_head, List.find?_map, inBucket,
    List.find?_filter]
  congr 1
  apply find?_congr
  intro item member
  simp only [Function.comp_apply, matches_iff item member, decide_eq_true_eq]
  rcases eq_or_ne item.name (key, keylen) with same | same
  · obtain ⟨rfl, rfl⟩ := Prod.mk.inj same
    simp
  · simp [same]

theorem Refines.find_eq (refines : map.Refines items) (key : κ) (keylen : size_t) :
    map.find key keylen =
      (items.find? fun item => item.name = (key, keylen)).map Item.value := by
  rw [find, refines.getEntry_eq]
  cases found : items.find? fun item => item.name = (key, keylen) with
  | none => rfl
  | some item => simp [refines.entry item (List.mem_of_find?_eq_some found)]

/-! ## Insertion -/

omit [DecidableEq κ]

theorem inBucket_append (map : HashMap κ ν) (i : ℕ) (before after : List (Item κ ν)) :
    map.inBucket i (before ++ after) = map.inBucket i before ++ map.inBucket i after :=
  List.filter_append ..

theorem inBucket_cons (map : HashMap κ ν) (i : ℕ) (item : Item κ ν) (items : List (Item κ ν)) :
    map.inBucket i (item :: items) =
      if map.hashIndex item.key item.keylen = i then item :: map.inBucket i items
      else map.inBucket i items := by
  simp [inBucket, List.filter_cons]

/-- Inserting into a bucket with room for one more counted entry appends the entry. -/
theorem Refines.insertEntry (refines : map.Refines items) (fresh : item.block ∉ map.blocks)
    (keylen : throughInt item.keylen = item.keylen)
    (room : (map.count (map.hashIndex item.key item.keylen)).toNat + 1 < 2 ^ 31) :
    (map.insertEntry item.block (map.hashIndex item.key item.keylen) item.key item.keylen
      item.value).Refines (items ++ [item]) := by
  obtain ⟨positive, linked, short⟩ := refines_iff.mp refines
  have bound := hashIndex_lt positive item.key item.keylen
  refine refines_iff.mpr ⟨positive, ?_, ?_⟩
  · have inserted : (map.insertEntry item.block _ item.key item.keylen item.value).Linked _ :=
      linked.insertEntry fresh bound
    rw [keylen] at inserted
    rw [List.map_append]
    exact inserted
  · intro i bound
    have counted := refines.count i bound
    have short := short i bound
    change (map.inBucket i (items ++ [item])).length < _
    rw [inBucket_append, inBucket_cons, List.length_append]
    rcases eq_or_ne (map.hashIndex item.key item.keylen) i with same | same
    · rw [if_pos same, ← counted, ← same]
      exact room
    · rw [if_neg same]
      exact short

/-! ## Erasure -/

/-- Erasing the node of an entry and decrementing its bucket's count removes the entry. -/
theorem Refines.eraseEntry (refines : map.Refines (before ++ item :: after)) :
    HashMap.Refines
      { map.eraseEntry item.ref with
        count := Function.update map.count (map.hashIndex item.key item.keylen)
          (map.count (map.hashIndex item.key item.keylen) - 1) }
      (before ++ after) := by
  obtain ⟨positive, linked, short⟩ := refines_iff.mp refines
  rw [List.map_append, List.map_cons] at linked
  refine refines_iff.mpr ⟨positive, ?_, ?_⟩
  · rw [List.map_append]
    exact linked.eraseEntry
  · intro i bound
    have short := short i bound
    change (map.inBucket i (before ++ after)).length < _
    rw [inBucket_append, List.length_append]
    rw [inBucket_append, inBucket_cons, List.length_append] at short
    split at short
    · simp only [List.length_cons] at short
      omega
    · exact short

/-! ## The association list -/

/-- Some entry of the map has the key. -/
def Holds (map : HashMap κ ν) (key : κ) (keylen : size_t) : Prop :=
  ∃ block ∈ map.blocks, (map.entryAt (.entry block)).key = key ∧
    (map.entryAt (.entry block)).keylen = keylen

/-- The key length survives the `int` parameter of `Entry::initialize`, and the key's bucket with one
more entry is still counted by an `int`. -/
def Fits (map : HashMap κ ν) (key : κ) (keylen : size_t) : Prop :=
  throughInt keylen = keylen ∧ (map.count (map.hashIndex key keylen)).toNat + 1 < 2 ^ 31

/-- The map stands for an association list, its entries in insertion order. -/
def Models (map : HashMap κ ν) (entries : List ((κ × size_t) × ν)) : Prop :=
  ∃ items, map.Refines items ∧ entries = items.map Item.pair

section Models

variable {entries : List ((κ × size_t) × ν)} {key : κ} {keylen : size_t} {block : ℕ} {value : ν}

theorem models_initializeMap (funcs : HashFuncs κ) {size : size_t} (positive : 0 < size.toNat)
    (links : Links ListRef) (count : ℕ → size_t) (entryAt : ListRef → Entry κ ν) :
    (initializeMap funcs size links count entryAt).Models [] :=
  ⟨[], refines_initializeMap funcs positive links count entryAt, rfl⟩

theorem Models.hashIndex_lt (models : map.Models entries) (key : κ) (keylen : size_t) :
    map.hashIndex key keylen < map.buckets.toNat := by
  obtain ⟨items, refines, -⟩ := models
  exact HashMap.hashIndex_lt refines.positive key keylen

/-- Every bucket counts the entries linked in its circular list. -/
theorem Models.count (models : map.Models entries) (bound : i < map.buckets.toNat) :
    ∃ nodes, IsRing map.links (.bucket i) nodes ∧ (map.count i).toNat = nodes.length := by
  obtain ⟨items, refines, -⟩ := models
  exact ⟨_, refines.ring i bound, by rw [refines.count i bound, List.length_map]⟩

/-- The allocator has a block that the map does not hold. -/
theorem exists_fresh (map : HashMap κ ν) : ∃ block, block ∉ map.blocks := by
  obtain ⟨block, fresh⟩ := Infinite.exists_notMem_finset map.blocks.toFinset
  exact ⟨block, fun member => fresh (List.mem_toFinset.mpr member)⟩

/-- A map of few entries has room in every bucket. -/
theorem Models.fits (models : map.Models entries) (few : entries.length + 1 < 2 ^ 31)
    (length : throughInt keylen = keylen) (key : κ) : map.Fits key keylen := by
  have bound := models.hashIndex_lt key keylen
  obtain ⟨items, refines, rfl⟩ := models
  have inside : (map.inBucket (map.hashIndex key keylen) items).length ≤ items.length :=
    List.length_filter_le ..
  rw [List.length_map] at few
  exact ⟨length, by rw [refines.count _ bound]; omega⟩

theorem Models.insert (models : map.Models entries) (fresh : block ∉ map.blocks)
    (fits : map.Fits key keylen) :
    (map.insert block key keylen value).Models (entries ++ [((key, keylen), value)]) := by
  obtain ⟨items, refines, rfl⟩ := models
  have inserted := @Refines.insertEntry _ _ map items ⟨block, key, keylen, value⟩ refines fresh
    fits.1 fits.2
  exact ⟨_, inserted, by simp [Item.pair, Item.name]⟩

variable [DecidableEq κ]

theorem find?_pair (items : List (Item κ ν)) (name : κ × size_t) :
    (items.map Item.pair).lookup name =
      (items.find? fun item => item.name = name).map Item.value := by
  induction items with
  | nil => rfl
  | cons item rest ih =>
    rw [List.map_cons, List.lookup_cons, ih, List.find?_cons]
    rcases eq_or_ne item.name name with same | same
    · simp [Item.pair, same]
    · rw [show (name == item.pair.1) = false from beq_eq_false_iff_ne.mpr (Ne.symm same),
        decide_eq_false same]

theorem Models.find (models : map.Models entries) (key : κ) (keylen : size_t) :
    map.find key keylen = entries.lookup (key, keylen) := by
  obtain ⟨items, refines, rfl⟩ := models
  simp only [refines.find_eq, find?_pair]

omit [DecidableEq κ] in
theorem Models.holds_iff (models : map.Models entries) (key : κ) (keylen : size_t) :
    map.Holds key keylen ↔ (key, keylen) ∈ entries.map Prod.fst := by
  obtain ⟨items, refines, rfl⟩ := models
  constructor
  · rintro ⟨block, member, rfl, rfl⟩
    obtain ⟨item, inside, rfl⟩ := List.mem_map.mp ((refines.block block).mp member)
    have entry := refines.entry item inside
    rw [Item.ref] at entry
    rw [entry, List.map_map]
    exact List.mem_map_of_mem (f := Prod.fst ∘ Item.pair) inside
  · intro member
    rw [List.map_map] at member
    obtain ⟨item, inside, same⟩ := List.mem_map.mp member
    obtain ⟨rfl, rfl⟩ := Prod.mk.inj same
    have entry := refines.entry item inside
    rw [Item.ref] at entry
    exact ⟨item.block, (refines.block _).mpr (List.mem_map_of_mem inside), by rw [entry], by rw [entry]⟩

omit [DecidableEq κ] in
theorem lookup_isSome_iff_mem {α β : Type*} [BEq α] [LawfulBEq α] {pairs : List (α × β)} {a : α} :
    (pairs.lookup a).isSome ↔ a ∈ pairs.map Prod.fst := by
  rw [List.lookup_isSome_iff, List.mem_map]
  constructor
  · rintro ⟨pair, member, same⟩
    exact ⟨pair, member, (eq_of_beq same).symm⟩
  · rintro ⟨pair, member, rfl⟩
    exact ⟨pair, member, beq_self_eq_true _⟩

theorem Models.insertIfAbsent_present (models : map.Models entries)
    (present : (key, keylen) ∈ entries.map Prod.fst) :
    map.insertIfAbsent block key keylen value = (true, map) := by
  obtain ⟨items, refines, rfl⟩ := models
  rw [← lookup_isSome_iff_mem, find?_pair, Option.isSome_map] at present
  obtain ⟨item, found⟩ := Option.isSome_iff_exists.mp present
  simp only [insertIfAbsent, refines.getEntry_eq, found, Option.map_some]

theorem Models.insertIfAbsent_absent (models : map.Models entries)
    (absent : (key, keylen) ∉ entries.map Prod.fst) :
    map.insertIfAbsent block key keylen value = (false, map.insert block key keylen value) := by
  obtain ⟨items, refines, rfl⟩ := models
  rw [← lookup_isSome_iff_mem, find?_pair, Option.isSome_map, Bool.not_eq_true,
    Option.isSome_eq_false_iff, Option.isNone_iff_eq_none] at absent
  simp only [insertIfAbsent, refines.getEntry_eq, absent, Option.map_none, HashMap.insert]

theorem Models.insertIfAbsent (models : map.Models entries) (fresh : block ∉ map.blocks)
    (fits : (key, keylen) ∈ entries.map Prod.fst ∨ map.Fits key keylen) :
    (map.insertIfAbsent block key keylen value).2.Models
      (if (key, keylen) ∈ entries.map Prod.fst then entries
        else entries ++ [((key, keylen), value)]) := by
  split
  · rename_i present
    rw [models.insertIfAbsent_present present]
    exact models
  · rename_i absent
    rw [models.insertIfAbsent_absent absent]
    exact models.insert fresh (fits.resolve_left absent)

theorem Models.insertIfAbsent_iff (models : map.Models entries) :
    map.insertIfAbsent block key keylen value = (true, map) ↔
      (key, keylen) ∈ entries.map Prod.fst := by
  constructor
  · intro flagged
    by_contra absent
    rw [models.insertIfAbsent_absent absent] at flagged
    cases flagged
  · exact models.insertIfAbsent_present

/-- Erasing a present key takes its earliest entry out. -/
theorem Models.erase_present (models : map.Models entries)
    (present : (key, keylen) ∈ entries.map Prod.fst) :
    (map.erase key keylen).1 = true ∧
      (map.erase key keylen).2.Models (entries.eraseP fun entry => entry.1 == (key, keylen)) := by
  obtain ⟨items, refines, rfl⟩ := models
  rw [← lookup_isSome_iff_mem, find?_pair, Option.isSome_map] at present
  obtain ⟨item, found⟩ := Option.isSome_iff_exists.mp present
  obtain ⟨named, before, after, rfl, earlier⟩ := List.find?_eq_some_iff_append.mp found
  obtain ⟨rfl, rfl⟩ := Prod.mk.inj (of_decide_eq_true named)
  have erased : map.erase item.key item.keylen = (true,
      { map.eraseEntry item.ref with
        count := Function.update map.count (map.hashIndex item.key item.keylen)
          (map.count (map.hashIndex item.key item.keylen) - 1) }) := by
    simp only [erase, refines.getEntry_eq, found, Option.map_some]
    rfl
  rw [erased]
  refine ⟨rfl, before ++ after, refines.eraseEntry, ?_⟩
  have skipped : ∀ pair ∈ before.map Item.pair, ¬ (pair.1 == (item.key, item.keylen)) = true := by
    intro pair member
    obtain ⟨other, inside, rfl⟩ := List.mem_map.mp member
    simpa [Item.pair] using earlier other inside
  rw [List.map_append, List.eraseP_append_right _ skipped, List.map_cons,
    List.eraseP_cons_of_pos (by simp [Item.pair, Item.name]), List.map_append]

/-- Erasing the earliest entry of a key leaves the others. -/
theorem Models.erase_split {before after : List ((κ × size_t) × ν)}
    (models : map.Models (before ++ ((key, keylen), value) :: after))
    (earlier : ∀ e ∈ before, e.1 ≠ (key, keylen)) :
    (map.erase key keylen).2.Models (before ++ after) := by
  have present : (key, keylen) ∈ (before ++ ((key, keylen), value) :: after).map Prod.fst := by simp
  have erased := (models.erase_present present).2
  have skipped : ∀ e ∈ before, ¬(e.1 == (key, keylen)) = true := by
    intro e member same
    exact earlier e member (eq_of_beq same)
  rwa [List.eraseP_append_right _ skipped, List.eraseP_cons_of_pos (by simp)] at erased

/-- Erasing an absent key takes one off a count that had nothing to lose. -/
theorem Models.erase_absent (models : map.Models entries)
    (absent : (key, keylen) ∉ entries.map Prod.fst) :
    map.erase key keylen = (false,
      { map with
        count := Function.update map.count (map.hashIndex key keylen)
          (map.count (map.hashIndex key keylen) - 1) }) := by
  obtain ⟨items, refines, rfl⟩ := models
  rw [← lookup_isSome_iff_mem, find?_pair, Option.isSome_map, Bool.not_eq_true,
    Option.isSome_eq_false_iff, Option.isNone_iff_eq_none] at absent
  simp only [erase, refines.getEntry_eq, absent, Option.map_none]

/-- Erasing an absent key leaves its bucket's count off the number of linked entries. -/
theorem Models.erase_absent_miscounts (models : map.Models entries)
    (absent : (key, keylen) ∉ entries.map Prod.fst) {nodes : List ListRef}
    (ring : IsRing (map.erase key keylen).2.links (.bucket (map.hashIndex key keylen)) nodes) :
    ((map.erase key keylen).2.count (map.hashIndex key keylen)).toNat ≠ nodes.length := by
  obtain ⟨linked, own, counted⟩ := models.count (models.hashIndex_lt key keylen)
  rw [models.erase_absent absent] at ring ⊢
  rw [own.unique ring] at counted
  intro same
  simp only [Function.update_self, ← counted] at same
  have wrapped : map.count (map.hashIndex key keylen) - 1 = map.count (map.hashIndex key keylen) :=
    BitVec.eq_of_toNat_eq same
  bv_omega

end Models

end HashMap

end FreeGuard.Model
