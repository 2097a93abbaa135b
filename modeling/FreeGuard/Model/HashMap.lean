import FreeGuard.Machine.Loop
import FreeGuard.Model.Defines
import FreeGuard.Model.List
import Mathlib.Data.Int.Notation

/-! # The chained hash map

`hashmap.hh`. A bucket is a list head with a stored count, an entry is a block obtained from
`SourceHeap::allocate` whose first field is its list node, and a lookup walks a bucket for as many
nodes as the stored count says, read as an `int`. An iterator follows the links of a bucket to its end
and then looks for the next bucket that counts an entry. The map keeps the blocks it has obtained and not
yet returned, so that a run can say which blocks the allocator may hand out next.
-/

namespace FreeGuard.Model

open Machine
open LinkedPath (Links)

variable {κ ν : Type*}

/-- A `list_t` of the map: the list head of a bucket, or the list node of an entry block. -/
inductive ListRef where
  | bucket (index : ℕ)
  | entry (block : ℕ)
deriving DecidableEq, Repr

/-- The data fields of an `Entry`. -/
structure Entry (κ ν : Type*) where
  key : κ
  keylen : size_t
  value : ν
deriving DecidableEq, Repr

/-- The function pointers of a map; the comparison decides key equality, as `compareAddr` does. -/
structure HashFuncs (κ : Type*) where
  hashfunc : κ → size_t → size_t
  keycmp : κ → κ → size_t → Bool
  keycmp_iff : ∀ a b keylen, keycmp a b keylen = true ↔ a = b

structure HashMap (κ ν : Type*) where
  funcs : HashFuncs κ
  buckets : size_t
  links : Links ListRef
  count : ℕ → size_t
  entryAt : ListRef → Entry κ ν
  /-- The blocks obtained from `SourceHeap::allocate` and not yet deallocated. -/
  blocks : List ℕ

/-- The value an `int` variable takes from a `size_t`. -/
def toInt (n : size_t) : ℤ := (n.setWidth 32).toInt

/-- A `size_t` passed through an `int` parameter and stored as a `size_t` again. -/
def throughInt (n : size_t) : size_t := (n.setWidth 32).signExtend 64

namespace HashMap

/-- `HashEntry::initialize`. -/
def initBucket (index : ℕ) (map : HashMap κ ν) : HashMap κ ν :=
  { map with
    links := listInit map.links (.bucket index)
    count := Function.update map.count index 0 }

/-- `HashMap::initialize`: an empty map over whatever the allocated memory held before. -/
def initializeMap (funcs : HashFuncs κ) (size : size_t) (links : Links ListRef) (count : ℕ → size_t)
    (entryAt : ListRef → Entry κ ν) : HashMap κ ν :=
  forRange size.toNat initBucket ⟨funcs, size, links, count, entryAt, []⟩

def hashIndex (map : HashMap κ ν) (key : κ) (keylen : size_t) : ℕ :=
  (map.funcs.hashfunc key keylen % map.buckets).toNat

/-- The test of one visited entry. -/
def entryMatches (map : HashMap κ ν) (key : κ) (keylen : size_t) (entry : ListRef) : Bool :=
  (map.entryAt entry).keylen == keylen && map.funcs.keycmp (map.entryAt entry).key key keylen

/-- The loop of `getEntry`, for at most `count` entries from `entry`. -/
def searchFrom (map : HashMap κ ν) (key : κ) (keylen : size_t) : ℕ → ListRef → Option ListRef
  | 0, _ => none
  | count + 1, entry =>
    if map.entryMatches key keylen entry then some entry
    else map.searchFrom key keylen count (map.links.next entry)

/-- `getEntry`: `int count = first->count` bounds the walk. -/
def getEntry (map : HashMap κ ν) (first : ℕ) (key : κ) (keylen : size_t) : Option ListRef :=
  map.searchFrom key keylen (toInt (map.count first)).toNat (map.links.next (.bucket first))

/-- `createNewEntry` in a block obtained from the allocator; `Entry::initialize` takes the key
length as an `int`. -/
def createNewEntry (map : HashMap κ ν) (block : ℕ) (key : κ) (keylen : size_t) (value : ν) :
    HashMap κ ν :=
  { map with
    links := listInit map.links (.entry block)
    entryAt := Function.update map.entryAt (.entry block) ⟨key, throughInt keylen, value⟩
    blocks := block :: map.blocks }

def insertEntry (map : HashMap κ ν) (block head : ℕ) (key : κ) (keylen : size_t) (value : ν) :
    HashMap κ ν :=
  let map := map.createNewEntry block key keylen value
  { map with
    links := listInsertTail map.links (.entry block) (.bucket head)
    count := Function.update map.count head (map.count head + 1) }

def find (map : HashMap κ ν) (key : κ) (keylen : size_t) : Option ν :=
  (map.getEntry (map.hashIndex key keylen) key keylen).map fun entry => (map.entryAt entry).value

def insert (map : HashMap κ ν) (block : ℕ) (key : κ) (keylen : size_t) (value : ν) : HashMap κ ν :=
  map.insertEntry block (map.hashIndex key keylen) key keylen value

/-- The flag is `isFound`. -/
def insertIfAbsent (map : HashMap κ ν) (block : ℕ) (key : κ) (keylen : size_t) (value : ν) :
    Bool × HashMap κ ν :=
  let hindex := map.hashIndex key keylen
  match map.getEntry hindex key keylen with
  | some _ => (true, map)
  | none => (false, map.insertEntry block hindex key keylen value)

/-- `entry->erase()` and `SourceHeap::deallocate(entry)`. -/
def eraseEntry (map : HashMap κ ν) (entry : ListRef) : HashMap κ ν :=
  { map with
    links := listRemoveNode map.links entry
    blocks := map.blocks.filter fun block => ListRef.entry block ≠ entry }

/-- The count is decremented whether or not an entry was found. -/
def erase (map : HashMap κ ν) (key : κ) (keylen : size_t) : Bool × HashMap κ ν :=
  let hindex := map.hashIndex key keylen
  let (isFound, map) := match map.getEntry hindex key keylen with
    | some entry => (true, map.eraseEntry entry)
    | none => (false, map)
  (isFound, { map with count := Function.update map.count hindex (map.count hindex - 1) })

/-- `getHashEntry`: null past the last bucket. -/
def getHashEntry (map : HashMap κ ν) (index : size_t) : Option ℕ :=
  if index.toNat < map.buckets.toNat then some index.toNat else none

/-! ## Iteration -/

/-- `iterator`, with null for the end. -/
structure Iterator where
  _entry : Option ListRef
  _pos : size_t
deriving DecidableEq, Repr

/-- The constructor of `iterator`, which takes the bucket as an `int`. -/
def iterator (entry : Option ListRef) (pos : size_t) : Iterator := ⟨entry, throughInt pos⟩

/-- The loop of `begin` and of `operator++` over the buckets: up to the next one with a count other than
zero, or past the last one. `_buckets` rounds are enough. -/
def nextUsed (map : HashMap κ ν) : ℕ → size_t → size_t
  | 0, pos => pos
  | rounds + 1, pos =>
    match map.getHashEntry pos with
    | none => pos
    | some hashentry => if map.count hashentry ≠ 0 then pos else map.nextUsed rounds (pos + 1)

/-- `getFirstEntry` of the bucket at which a loop over the buckets has stopped. -/
def getFirstEntry (map : HashMap κ ν) (pos : size_t) : Option ListRef :=
  (map.getHashEntry pos).map fun hashentry => map.links.next (.bucket hashentry)

/-- `HashMap::begin`. -/
def begin (map : HashMap κ ν) : Iterator :=
  let pos := map.nextUsed map.buckets.toNat 0
  match map.getFirstEntry pos with
  | some entry => iterator (some entry) pos
  | none => iterator none 0

/-- `isListTail` of an entry, on the list head of what may be no bucket; the list is its first field. -/
def isLastEntry (map : HashMap κ ν) (entry : ListRef) (hashentry : Option ℕ) : Bool :=
  match hashentry with
  | some index => isListTail map.links entry (.bucket index)
  | none => false

/-- `operator++` on an iterator at an entry. -/
def increment (map : HashMap κ ν) (pos : size_t) (entry : ListRef) : Iterator :=
  if !map.isLastEntry entry (map.getHashEntry pos) then ⟨some (map.links.next entry), pos⟩
  else
    let pos := map.nextUsed map.buckets.toNat (pos + 1)
    ⟨map.getFirstEntry pos, pos⟩

/-- The entries visited from an iterator to `end()`, in at most so many increments. -/
def visited (map : HashMap κ ν) : ℕ → Iterator → Option (List ListRef)
  | _, ⟨none, _⟩ => some []
  | 0, ⟨some _, _⟩ => none
  | fuel + 1, ⟨some entry, pos⟩ =>
    (map.visited fuel (map.increment pos entry)).map fun entries => entry :: entries

end HashMap

/-! ## Key functions of `hashfuncs.hh` -/

def hashAddr (addr : ℕ) (_ : size_t) : size_t :=
  let key := BitVec.ofNat 64 addr
  let key := key ^^^ ((key <<< 15) ^^^ 0xcd7dcd7d)
  let key := key ^^^ (key >>> 10)
  let key := key ^^^ (key <<< 3)
  let key := key ^^^ (key >>> 6)
  let key := key ^^^ ((key <<< 2) + (key <<< 14))
  key ^^^ (key >>> 16)

def compareAddr (addr1 addr2 : ℕ) (_ : size_t) : Bool := addr1 == addr2

/-- The function pointers of every map of the program. -/
def addrFuncs : HashFuncs ℕ where
  hashfunc := hashAddr
  keycmp := compareAddr
  keycmp_iff a b _ := by simp [compareAddr]

/-- `sizeof(void *)`, the key length of every call. -/
def sizeofPointer : size_t := 8

end FreeGuard.Model
