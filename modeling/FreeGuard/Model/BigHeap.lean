import FreeGuard.Machine.AddressSpace
import FreeGuard.Model.BibopHeap
import FreeGuard.Model.HashMap

/-! # Large objects

`bigheap.hh`, with the mappings of the process. A large object has a mapping of its own, ends where the
mapping ends, and is found again through a hash map from its address to a status object. What `mmap`
and the two calls of `HeapAllocator::allocate` return are inputs.
-/

namespace FreeGuard.Model

open Machine

/-- `bigObjectStatus`. -/
structure BigObjectStatus where
  start : ℕ
  size : size_t
  pageUpSize : size_t
deriving DecidableEq, Repr

/-- What `mmap` promises for a length: a page-aligned, non-null range, none of whose bytes is mapped,
in the user half of the 48-bit address space; a length of zero always fails. -/
structure MmapResult (mapped : Mapped) (length ptr : ℕ) : Prop where
  some : 0 < length
  nonnull : ptr ≠ NULL
  aligned : PageSize ∣ ptr
  bounded : ptr + length ≤ 2 ^ 47
  fresh : ∀ a, ptr ≤ a → a < ptr + length → mapped a = false

structure BigHeap where
  _xmap : HashMap ℕ ℕ
  /-- The status objects, by address. -/
  status : ℕ → BigObjectStatus
  /-- The status objects obtained from `HeapAllocator::allocate` and not yet deallocated. -/
  statuses : List ℕ

/-- What an allocation at the big heap obtains: the blocks of the status object and of the map's entry,
and the result of `mmap`, which is none when it fails. -/
structure Supply where
  objStatus : ℕ
  entry : ℕ
  mmap : Option ℕ
deriving DecidableEq, Repr

namespace BigHeap

/-- `initBigHeap`, over whatever the memory of the map held before. -/
def initBigHeap (links : LinkedPath.Links ListRef) (count : ℕ → size_t) (entryAt : ListRef → Entry ℕ ℕ)
    (status : ℕ → BigObjectStatus) : BigHeap :=
  ⟨.initializeMap addrFuncs (BitVec.ofNat 64 THREAD_MAP_SIZE) links count entryAt, status, []⟩

/-- `pageUpSize` of `allocateAtBigHeap`. -/
def pageUpSize (size : size_t) : size_t := alignup size (BitVec.ofNat 64 PageSize)

/-- A failing `mmap` ends the process. -/
def allocateAtBigHeap (size : size_t) (supply : Supply) (big : BigHeap) (mapped : Mapped) :
    Except Stop (ℕ × BigHeap × Mapped) :=
  let pageUpSize := pageUpSize size
  let diff := pageUpSize - size
  match supply.mmap with
  | none => .error .outOfMemory
  | some ptr =>
    let objStartPtr := ptr + diff.toNat
    .ok (objStartPtr,
      { _xmap := big._xmap.insert supply.entry objStartPtr sizeofPointer supply.objStatus
        status := Function.update big.status supply.objStatus ⟨ptr, size, pageUpSize⟩
        statuses := supply.objStatus :: big.statuses },
      mapped.map ptr pageUpSize.toNat)

def getObjectSize (big : BigHeap) (addr : ℕ) : size_t :=
  match big._xmap.find addr sizeofPointer with
  | none => -1
  | some objStatus => (big.status objStatus).size

def isLargeObject (big : BigHeap) (addr : ℕ) : Bool := (big._xmap.find addr sizeofPointer).isSome

def deallocateToBigHeap (ptr : ℕ) (big : BigHeap) (mapped : Mapped) :
    Except Stop (BigHeap × Mapped) :=
  match big._xmap.find ptr sizeofPointer with
  | none => .error (.invalidFree ptr)
  | some objStatus =>
    let status := big.status objStatus
    .ok (
      { big with
        _xmap := (big._xmap.erase ptr sizeofPointer).2
        statuses := big.statuses.filter (· ≠ objStatus) },
      mapped.unmap status.start status.pageUpSize.toNat)

end BigHeap

end FreeGuard.Model
