import FreeGuard.Machine.Run
import FreeGuard.Proofs.HashMap

/-! # The hash map as an association list

A client sees a map through four calls and their replies. `assocExec` says what they mean on a list
of key and value pairs in insertion order. The map follows it along every run in which `erase` is
called on present keys only and an insertion leaves its bucket countable by an `int`; each bucket's
count is then the number of entries linked in its circular list. Erasing an absent key takes the two
apart.
-/

namespace FreeGuard.Soundness.HashMapRefinement

open Machine Model LinkedPath

variable {κ ν : Type*}

inductive MapCall (κ ν : Type*) where
  | insert (key : κ) (keylen : size_t) (value : ν)
  | insertIfAbsent (key : κ) (keylen : size_t) (value : ν)
  | erase (key : κ) (keylen : size_t)
  | find (key : κ) (keylen : size_t)

inductive MapReply (ν : Type*) where
  | done
  | flag (isFound : Bool)
  | value (found : Option ν)

/-- A call of the map, with the block that the allocator hands out if it inserts. -/
def exec (map : HashMap κ ν) (block : ℕ) : MapCall κ ν → MapReply ν × HashMap κ ν
  | .insert key keylen value => (.done, map.insert block key keylen value)
  | .insertIfAbsent key keylen value =>
    (map.insertIfAbsent block key keylen value).map .flag id
  | .erase key keylen => (map.erase key keylen).map .flag id
  | .find key keylen => (.value (map.find key keylen), map)

/-- A call and its reply; the allocator hands out a block that the map does not hold. -/
def Step (map : HashMap κ ν) (event : MapCall κ ν × MapReply ν) (next : HashMap κ ν) : Prop :=
  ∃ block ∉ map.blocks, exec map block event.1 = (event.2, next)

/-- An insertion fits, and a key to erase is present. -/
def Proper (map : HashMap κ ν) (event : MapCall κ ν × MapReply ν) : Prop :=
  match event.1 with
  | .insert key keylen _ => map.Fits key keylen
  | .insertIfAbsent key keylen _ => map.Holds key keylen ∨ map.Fits key keylen
  | .erase key keylen => map.Holds key keylen
  | .find _ _ => True

variable [DecidableEq κ]

/-- What a call means on the pairs in insertion order. -/
def assocExec (entries : List ((κ × size_t) × ν)) :
    MapCall κ ν → MapReply ν × List ((κ × size_t) × ν)
  | .insert key keylen value => (.done, entries ++ [((key, keylen), value)])
  | .insertIfAbsent key keylen value =>
    if (key, keylen) ∈ entries.map Prod.fst then (.flag true, entries)
    else (.flag false, entries ++ [((key, keylen), value)])
  | .erase key keylen =>
    if (key, keylen) ∈ entries.map Prod.fst then
      (.flag true, entries.eraseP fun entry => entry.1 == (key, keylen))
    else (.flag false, entries)
  | .find key keylen => (.value (entries.lookup (key, keylen)), entries)

def AssocStep (entries : List ((κ × size_t) × ν)) (event : MapCall κ ν × MapReply ν)
    (next : List ((κ × size_t) × ν)) : Prop :=
  assocExec entries event.1 = (event.2, next)

/-- A proper call on the map is the same call on the association list, with the same reply. -/
theorem step_simulates {map next : HashMap κ ν} {event : MapCall κ ν × MapReply ν}
    {entries : List ((κ × size_t) × ν)} (models : map.Models entries)
    (move : Guarded Proper Step map event next) :
    ∃ after, AssocStep entries event after ∧ next.Models after := by
  obtain ⟨call, reply⟩ := event
  obtain ⟨proper, block, fresh, ran⟩ := move
  cases call with
  | insert key keylen value =>
    obtain ⟨rfl, rfl⟩ := Prod.mk.inj ran
    exact ⟨_, rfl, models.insert fresh proper⟩
  | insertIfAbsent key keylen value =>
    by_cases present : (key, keylen) ∈ entries.map Prod.fst
    · rw [exec, models.insertIfAbsent_present present] at ran
      obtain ⟨rfl, rfl⟩ := Prod.mk.inj ran
      exact ⟨entries, if_pos present, models⟩
    · rw [exec, models.insertIfAbsent_absent present] at ran
      obtain ⟨rfl, rfl⟩ := Prod.mk.inj ran
      have fits := proper.resolve_left ((models.holds_iff key keylen).not.mpr present)
      exact ⟨_, if_neg present, models.insert fresh fits⟩
  | erase key keylen =>
    have present := (models.holds_iff key keylen).mp proper
    obtain ⟨flag, erased⟩ := models.erase_present present
    have replied : MapReply.flag (map.erase key keylen).1 = reply := congrArg Prod.fst ran
    obtain rfl : (map.erase key keylen).2 = next := congrArg Prod.snd ran
    exact ⟨_, by rw [AssocStep, assocExec, if_pos present, ← replied, flag], erased⟩
  | find key keylen =>
    obtain ⟨rfl, rfl⟩ := Prod.mk.inj ran
    exact ⟨entries, by rw [AssocStep, assocExec, models.find], models⟩

/-- Along every run of proper calls the replies are those of the association list, every key reads
its earliest entry not erased, and every bucket counts its linked entries. -/
theorem map_refines_assoc_list (funcs : HashFuncs κ) {size : size_t} (positive : 0 < size.toNat)
    (links : Links ListRef) (count : ℕ → size_t) (entryAt : ListRef → Entry κ ν)
    {events : List (MapCall κ ν × MapReply ν)} {map : HashMap κ ν}
    (run : Run (Guarded Proper Step) (HashMap.initializeMap funcs size links count entryAt)
      events map) :
    ∃ entries, Run AssocStep [] events entries ∧
      (∀ key keylen, map.find key keylen = entries.lookup (key, keylen)) ∧
      (∀ block key keylen value, map.insertIfAbsent block key keylen value = (true, map) ↔
        (key, keylen) ∈ entries.map Prod.fst) ∧
      ∀ i < map.buckets.toNat, ∃ nodes, IsRing map.links (.bucket i) nodes ∧
        (map.count i).toNat = nodes.length := by
  have start := HashMap.models_initializeMap (ν := ν) funcs positive links count entryAt
  obtain ⟨entries, assocRun, models⟩ := run.simulation HashMap.Models (fun _ _ _ _ => step_simulates) start
  refine ⟨entries, assocRun, models.find, ?_, ?_⟩
  · intro block key keylen value
    exact models.insertIfAbsent_iff
  · intro i bound
    exact models.count bound

/-! ## One bucket -/

/-- A map of one bucket over zeroed memory. -/
def oneBucket : HashMap ℕ ℕ :=
  HashMap.initializeMap addrFuncs 1 ⟨fun _ => .bucket 0, fun _ => .bucket 0⟩ (fun _ => 0)
    fun _ => ⟨0, 0, 0⟩

/-- `oneBucket` after inserting key 1 with value 10. -/
def oneEntry : HashMap ℕ ℕ := oneBucket.insert 0 1 sizeofPointer 10

theorem oneBucket_refines :
    ∃ entries,
      Run AssocStep [] [(.insert 1 sizeofPointer 10, .done), (.erase 1 sizeofPointer, .flag true)]
        entries ∧
      (∀ key keylen, (oneEntry.erase 1 sizeofPointer).2.find key keylen =
        entries.lookup (key, keylen)) ∧
      (∀ block key keylen value,
        (oneEntry.erase 1 sizeofPointer).2.insertIfAbsent block key keylen value =
          (true, (oneEntry.erase 1 sizeofPointer).2) ↔ (key, keylen) ∈ entries.map Prod.fst) ∧
      ∀ i < (oneEntry.erase 1 sizeofPointer).2.buckets.toNat, ∃ nodes,
        IsRing (oneEntry.erase 1 sizeofPointer).2.links (.bucket i) nodes ∧
        ((oneEntry.erase 1 sizeofPointer).2.count i).toNat = nodes.length :=
  map_refines_assoc_list addrFuncs (show 0 < (1 : size_t).toNat by decide)
    ⟨fun _ => .bucket 0, fun _ => .bucket 0⟩ (fun _ => 0) (fun _ => ⟨0, 0, 0⟩)
    (.cons ⟨⟨by decide, by decide⟩, 0, by decide, rfl⟩
      (.single ⟨⟨0, by decide, by decide, by decide⟩, 1, by decide, rfl⟩))

/-- Erasing the absent key 2 hides the entry of key 1, which stays linked. -/
theorem oneEntry_erase_absent :
    Run Step oneBucket [(.insert 1 sizeofPointer 10, .done), (.erase 2 sizeofPointer, .flag false)]
      (oneEntry.erase 2 sizeofPointer).2 ∧
    oneEntry.find 1 sizeofPointer = some 10 ∧
    (oneEntry.erase 2 sizeofPointer).2.find 1 sizeofPointer = none ∧
    (oneEntry.erase 2 sizeofPointer).2.count 0 = 0 ∧
    IsRing (oneEntry.erase 2 sizeofPointer).2.links (.bucket 0) [.entry 0] :=
  ⟨.cons ⟨0, by decide, rfl⟩ (.single ⟨1, by decide, rfl⟩), by decide, by decide, by decide,
    ⟨by decide, by decide, by decide⟩⟩

end FreeGuard.Soundness.HashMapRefinement
