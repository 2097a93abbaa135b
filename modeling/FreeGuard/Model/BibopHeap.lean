import FreeGuard.Machine.Loop
import FreeGuard.Model.FreeList

/-! # The layout of the small heap

The part of `bibopheap.hh` that `BibopHeap::initialize` settles once: the sizes, masks and shift
counts of the heap and of its shadow memory, the fixed fields of every `PerThreadBag`, and the
functions between addresses and shadow entries. The fields that allocation and deallocation change
are a `HeapState`. Addresses and offsets are exact natural numbers; every address is taken from
`_heapBegin` on, every shadow address from `_shadowMemBegin` on.
-/

namespace FreeGuard.Model

open Machine

/-- A `PerThreadBag`, by thread and bag number. -/
abbrev BagRef := ℕ × ℕ

/-- An item of the arrays of a `PerThreadBag`. -/
abbrev ItemRef := BagRef × ℕ

/-- The fields of a `PerThreadBag` that never change after `initialize`. -/
structure PerThreadBag where
  numObjects : ℕ
  lastObjectIndex : ℕ
  bagNum : ℕ
  threadIndex : ℕ
  classMask : ℕ
  classSize : ℕ
  shiftBits : ℕ
  startOffset : ℕ
  startShadowMemOffset : ℕ
  nextHeapObjectOffset : ℕ
  nextShadowHeapObjectOffset : ℕ
  cflthreshold : ℕ
  guardsize : ℕ
  guardoffset : ℕ
deriving DecidableEq, Repr

/-- A `PerThreadBag` that `initialize` does not visit keeps the zeros of static storage. -/
def PerThreadBag.zero : PerThreadBag := ⟨0, 0, 0, 0, 0, 0, 0, 0, 0, 0, 0, 0, 0, 0⟩

/-- A region made inaccessible by `mprotect`. -/
structure Guard where
  /-- Set by `tryRandomGuardPage`. -/
  random : Bool
  addr : ℕ
  size : ℕ
deriving DecidableEq, Repr

/-- What allocation and deallocation change: the other fields of the bags, the link words of the
shadow memory, the bytes of the heap, and the guards set so far. -/
structure HeapState where
  freelist : ItemRef → FreeList
  position : ItemRef → ℕ
  lastofCurBag : ItemRef → ℕ
  cfreelist : BagRef → SList
  ncfree : BagRef → ℕ
  links : LinkWords
  mem : ℕ → UInt8
  guards : List Guard

/-- Zeroed static storage and fresh anonymous mappings. -/
def HeapState.zero (build : Build) : HeapState where
  freelist _ := FREELIST_INIT build
  position _ := NULL
  lastofCurBag _ := NULL
  cfreelist _ := initSLL
  ncfree _ := 0
  links _ := NULL
  mem _ := 0
  guards := []

structure BibopHeap where
  build : Build
  _heapBegin : ℕ
  _heapEnd : ℕ
  _heapMask : ℕ
  _heapSizeShiftBits : ℕ
  _shadowMemBegin : ℕ
  _shadowMemEnd : ℕ
  _shadowMemSizePerHeap : ℕ
  _shadowMemSizePerHeapCeil : ℕ
  _shadowMemSizePerHeapCeilShiftBits : ℕ
  _shadowMemSizePerHeapMask : ℕ
  _shadowObjectInfoSize : ℕ
  _shadowObjectInfoSizeShiftBits : ℕ
  _numUsableBags : ℕ
  _lastUsableBag : ℕ
  _bibopBagSize : ℕ
  _firstBagPower : ℕ
  _threadShiftBits : ℕ
  _bagShiftBits : ℕ
  _bagMask : ℕ
  _numObjectsPerHeap : ℕ
  _numBagsPerSubHeapMask : ℕ
  _numBagsPerHeapShiftBits : ℕ
  _threadBag : BagRef → PerThreadBag

namespace BibopHeap

def BIBOP_SUBHEAP_SIZE (heap : BibopHeap) : ℕ := heap.build.BIBOP_NUM_BAGS * heap._bibopBagSize

def BIBOP_HEAP_SIZE (heap : BibopHeap) : ℕ := heap.BIBOP_SUBHEAP_SIZE * BIBOP_NUM_SUBHEAPS

/-! ## Addresses and shadow entries -/

def getLastOfBag (heap : BibopHeap) (start guardoffset classSize : ℕ) : ℕ :=
  start + heap._bibopBagSize - guardoffset - classSize

def getBagNum (heap : BibopHeap) (classSize : ℕ) : ℕ := LOG2 classSize - heap._firstBagPower

/-- `getHeapNumber` of a shadow entry. -/
def getHeapNumber (heap : BibopHeap) (shadowinfo : ℕ) : ℕ :=
  (shadowinfo - heap._shadowMemBegin) >>> heap._shadowMemSizePerHeapCeilShiftBits

/-- The bag that an address lies in. -/
def bagOf (heap : BibopHeap) (addr : ℕ) : BagRef :=
  let offset := addr - heap._heapBegin
  let localHeapOffset := offset &&& heap._heapMask
  let globalBagNum := offset >>> heap._bagShiftBits
  (localHeapOffset >>> heap._threadShiftBits, globalBagNum &&& heap._numBagsPerSubHeapMask)

/-- `heapIndex`, as the decoders compute it from an address. -/
def heapIndex (heap : BibopHeap) (addr : ℕ) : ℕ :=
  (addr - heap._heapBegin) >>> heap._bagShiftBits >>> heap._numBagsPerHeapShiftBits

/-- `localBagOffset`, as the decoders compute it from an address. -/
def localBagOffset (heap : BibopHeap) (addr : ℕ) : ℕ := (addr - heap._heapBegin) &&& heap._bagMask

/-- `*numBagSetItem`: which item of its bag's arrays an address belongs to. -/
def numBagSetItem (heap : BibopHeap) (addr : ℕ) : ℕ :=
  if heap.build.BIBOP_BAG_SET_SIZE ≤ 1 then 0
  else heap.heapIndex addr &&& heap.build.BIBOP_BAG_SET_MASK

/-- The overload of `getShadowObjectInfo` that is given the bag. -/
def getShadowObjectInfoIn (heap : BibopHeap) (addr : ℕ) (bag : BagRef) : ℕ :=
  let bagShadowInfo := heap._shadowMemBegin +
    (heap.heapIndex addr <<< heap._shadowMemSizePerHeapCeilShiftBits) +
    (heap._threadBag bag).startShadowMemOffset
  bagShadowInfo +
    (heap.localBagOffset addr >>> (heap._threadBag bag).shiftBits) * heap._shadowObjectInfoSize

end BibopHeap

/-- The reasons for which the library ends the process. -/
inductive Stop where
  /-- "Invalid object": the address is not aligned to its class. -/
  | invalidObject (addr classSize classMask localBagOffset : ℕ)
  /-- "Double free or invalid free problem". -/
  | doubleFree (addr shadowinfo : ℕ)
  /-- "canary value for object not intact", of the object at `addr` or of a neighbor of it. -/
  | canary (object addr canary : ℕ) (value : UInt8)
  /-- "invalid or double free" of a large object. -/
  | invalidFree (addr : ℕ)
  /-- `mmap` failed. -/
  | outOfMemory
  /-- A free-list walk that runs into a null pointer. -/
  | fault
deriving DecidableEq, Repr

namespace BibopHeap

/-- The overload of `getShadowObjectInfo` that finds the bag and its item, and checks the class
alignment of the address. -/
def getShadowObjectInfo (heap : BibopHeap) (addr : ℕ) : Except Stop (BagRef × ℕ × ℕ) :=
  let numBagSetItem := heap.numBagSetItem addr
  let bag := heap.bagOf addr
  let localBagOffset := heap.localBagOffset addr
  if localBagOffset &&& (heap._threadBag bag).classMask ≠ 0 then
    .error (.invalidObject addr (heap._threadBag bag).classSize (heap._threadBag bag).classMask
      localBagOffset)
  else
    let shadowinfo := heap._shadowMemBegin +
      (heap.heapIndex addr <<< heap._shadowMemSizePerHeapCeilShiftBits) +
      (heap._threadBag bag).startShadowMemOffset
    .ok (bag, numBagSetItem,
      shadowinfo + (localBagOffset >>> (heap._threadBag bag).shiftBits) * heap._shadowObjectInfoSize)

def getAddrFromShadowInfo (heap : BibopHeap) (shadowaddr : ℕ) (bag : BagRef) : ℕ :=
  let shadowOffset := shadowaddr - heap._shadowMemBegin
  let heapIndex := shadowOffset >>> heap._shadowMemSizePerHeapCeilShiftBits
  let objectindex := ((shadowOffset &&& heap._shadowMemSizePerHeapMask) -
    (heap._threadBag bag).startShadowMemOffset) >>> heap._shadowObjectInfoSizeShiftBits
  let heapOffset := heapIndex <<< heap._heapSizeShiftBits
  heap._heapBegin + heapOffset + (heap._threadBag bag).startOffset +
    (objectindex <<< (heap._threadBag bag).shiftBits)

/-- The upper bound is inclusive. -/
def isSmallObject (heap : BibopHeap) (addr : ℕ) : Bool :=
  heap._heapBegin ≤ addr && addr ≤ heap._heapEnd

def isInvalidAddr (heap : BibopHeap) (addr : ℕ) : Bool :=
  !(heap._heapBegin ≤ addr && addr ≤ heap._heapEnd)

def getObjectSize (heap : BibopHeap) (addr : ℕ) : Except Stop size_t :=
  if heap.isInvalidAddr addr then .ok (-1)
  else do
    let (bag, _, _) ← heap.getShadowObjectInfo addr
    let classSize := BitVec.ofNat 64 (heap._threadBag bag).classSize
    pure (if heap.build.canary then classSize - 1 else classSize)

/-- `setGuardPage`: nothing for an empty guard, else one `mprotect` at the end of the bag. -/
def setGuardPage (heap : BibopHeap) (bagStartAddr guardsize guardoffset : ℕ) (guards : List Guard) :
    List Guard :=
  if guardsize = 0 then guards
  else guards ++ [⟨false, bagStartAddr + heap._bibopBagSize - guardoffset, guardsize⟩]

/-! ## initialize -/

/-- `lastUsableBagSize`. -/
def lastUsableBagSize (build : Build) (bibopBagSize : ℕ) : ℕ :=
  if bibopBagSize > build.LARGE_OBJECT_THRESHOLD then build.LARGE_OBJECT_THRESHOLD else bibopBagSize

def numUsableBags (build : Build) (bibopBagSize : ℕ) : ℕ :=
  let bags := LOG2 (lastUsableBagSize build bibopBagSize) - LOG2 BIBOP_MIN_BLOCK_SIZE + 1
  if bags > build.BIBOP_NUM_BAGS then build.BIBOP_NUM_BAGS else bags

/-- The fields set before the loop over threads and bags, with the two regions that `allocHeaps` and
`allocShadowMem` obtain; the shadow sizes follow after the loop. -/
def parameters (build : Build) (bibopBagSize heapBegin shadowMemBegin : ℕ) : BibopHeap :=
  let heapSize := build.BIBOP_NUM_BAGS * bibopBagSize * BIBOP_NUM_SUBHEAPS
  { build := build
    _heapBegin := heapBegin
    _heapEnd := heapBegin + BIBOP_NUM_HEAPS * heapSize
    _heapMask := heapSize - 1
    _heapSizeShiftBits := LOG2 heapSize
    _shadowMemBegin := shadowMemBegin
    _shadowMemEnd := 0
    _shadowMemSizePerHeap := 0
    _shadowMemSizePerHeapCeil := 0
    _shadowMemSizePerHeapCeilShiftBits := 0
    _shadowMemSizePerHeapMask := 0
    _shadowObjectInfoSize := build.sizeofShadowObjectInfo
    _shadowObjectInfoSizeShiftBits := LOG2 build.sizeofShadowObjectInfo
    _numUsableBags := numUsableBags build bibopBagSize
    _lastUsableBag := numUsableBags build bibopBagSize - 1
    _bibopBagSize := bibopBagSize
    _firstBagPower := LOG2 BIBOP_MIN_BLOCK_SIZE
    _threadShiftBits := LOG2 (bibopBagSize * build.BIBOP_NUM_BAGS)
    _bagShiftBits := LOG2 bibopBagSize
    _bagMask := bibopBagSize - 1
    _numObjectsPerHeap := 0
    _numBagsPerSubHeapMask := build.BIBOP_NUM_BAGS - 1
    _numBagsPerHeapShiftBits := LOG2 (build.BIBOP_NUM_BAGS * BIBOP_NUM_SUBHEAPS)
    _threadBag := fun _ => .zero }

/-- `guardsize` and `guardoffset` of a bag. The factor that extends the last guard over the unusable
bags is computed in `unsigned`. -/
def bagGuard (heap : BibopHeap) (bagNum classSize : ℕ) : ℕ × ℕ :=
  if heap.build.guardPage then
    let guardsize := if classSize > PAGESIZE then classSize else PAGESIZE
    if bagNum = heap._lastUsableBag then
      let lastSize := lastUsableBagSize heap.build heap._bibopBagSize
      let unusable := (heap.build.BIBOP_NUM_BAGS + 2 ^ 32 - LOG2 lastSize +
        LOG2 BIBOP_MIN_BLOCK_SIZE - 1) % 2 ^ 32 * heap._bibopBagSize
      if heap._bibopBagSize = lastSize then (unusable, 0) else (guardsize + unusable, guardsize)
    else (guardsize, guardsize)
  else (0, 0)

/-- `numBagObjects` after the correction for the guard. -/
def bagObjects (heap : BibopHeap) (classSize : ℕ) : ℕ :=
  let numBagObjects := heap._bibopBagSize / classSize
  if heap.build.guardPage then
    if numBagObjects > 1 then
      if classSize < PageSize then numBagObjects - PageSize / classSize else numBagObjects - 1
    else numBagObjects
  else numBagObjects

/-- The variables of the loop over threads and bags, and what it has set up so far. -/
structure InitState where
  numCumObjects : ℕ
  offsetBag : ℕ
  offsetShadowMem : ℕ
  classSize : ℕ
  shiftBits : ℕ
  threadBag : BagRef → PerThreadBag
  state : HeapState

/-- The first inner loop over the items of a bag. -/
def initFreelist (heap : BibopHeap) (bag : BagRef) (item : ℕ) (s : HeapState) : HeapState :=
  { s with freelist := Function.update s.freelist (bag, item) (FREELIST_INIT heap.build) }

/-- The second inner loop over the items of a bag. -/
def initPosition (heap : BibopHeap) (bag : BagRef) (offsetBag classSize : ℕ) (guard : ℕ × ℕ)
    (item : ℕ) (s : HeapState) : HeapState :=
  let position := heap._heapBegin + offsetBag + item * heap.BIBOP_HEAP_SIZE
  { s with
    position := Function.update s.position (bag, item) position
    lastofCurBag := Function.update s.lastofCurBag (bag, item)
      (heap.getLastOfBag position guard.2 classSize)
    guards := if heap.build.guardPage then heap.setGuardPage position guard.1 guard.2 s.guards
      else s.guards }

/-- The body of the loop over the bags of a thread. -/
def initBag (heap : BibopHeap) (threadNum bagNum : ℕ) (s : InitState) : InitState :=
  let bag : BagRef := (threadNum, bagNum)
  let items := heap.build.BIBOP_BAG_SET_SIZE
  let guard := heap.bagGuard bagNum s.classSize
  let numBagObjects := heap.bagObjects s.classSize
  let state := forRange items (heap.initFreelist bag) s.state
  let state := { state with
    cfreelist := Function.update state.cfreelist bag initSLL
    ncfree := Function.update state.ncfree bag 0 }
  let state := forRange items (heap.initPosition bag s.offsetBag s.classSize guard) state
  { numCumObjects := s.numCumObjects + numBagObjects
    offsetBag := s.offsetBag + heap._bibopBagSize
    offsetShadowMem := s.offsetShadowMem + numBagObjects * heap._shadowObjectInfoSize
    classSize := s.classSize * 2
    shiftBits := s.shiftBits + 1
    threadBag := Function.update s.threadBag bag
      { numObjects := numBagObjects
        lastObjectIndex := numBagObjects - 1
        bagNum := bagNum
        threadIndex := threadNum
        classMask := s.classSize - 1
        classSize := s.classSize
        shiftBits := s.shiftBits
        startOffset := s.offsetBag
        startShadowMemOffset := s.offsetShadowMem
        nextHeapObjectOffset := heap.BIBOP_HEAP_SIZE * (items - 1) +
          (heap.BIBOP_HEAP_SIZE - heap._bibopBagSize + s.classSize + guard.2)
        nextShadowHeapObjectOffset := 0
        cflthreshold := numBagObjects / CACHEDFREELIST_THRESHOLD_RATIO_BYBAG
        guardsize := guard.1
        guardoffset := guard.2 }
    state := state }

/-- The body of the loop over threads. -/
def initThreadBags (heap : BibopHeap) (threadNum : ℕ) (s : InitState) : InitState :=
  let unusableHeapSpace := (heap.build.BIBOP_NUM_BAGS - heap._numUsableBags) * heap._bibopBagSize
  let s := { s with classSize := BIBOP_MIN_BLOCK_SIZE, shiftBits := LOG2 BIBOP_MIN_BLOCK_SIZE }
  let s := forRange heap._numUsableBags (heap.initBag threadNum) s
  { s with offsetBag := s.offsetBag + unusableHeapSpace }

/-- `nextShadowHeapObjectOffset` of a bag, which needs the final shadow sizes. -/
def setNextShadow (heap : BibopHeap) (curBag : PerThreadBag) : PerThreadBag :=
  { curBag with
    nextShadowHeapObjectOffset := heap._shadowMemSizePerHeapCeil * heap.build.BIBOP_BAG_SET_SIZE -
      ((curBag.numObjects - 1) <<< heap._shadowObjectInfoSizeShiftBits) }

/-- The second loop over threads and bags. -/
def initNextShadow (heap : BibopHeap) : BagRef → PerThreadBag :=
  forRange MAX_ALIVE_THREADS (fun threadNum threadBag =>
    forRange heap._numUsableBags (fun bagNum threadBag =>
      Function.update threadBag (threadNum, bagNum)
        (heap.setNextShadow (threadBag (threadNum, bagNum)))) threadBag) heap._threadBag

/-- `initialize`, for the bag size that it draws and the regions that `mmap` returns. -/
def initializeHeap (build : Build) (bibopBagSize heapBegin shadowMemBegin : ℕ) :
    BibopHeap × HeapState :=
  let heap := parameters build bibopBagSize heapBegin shadowMemBegin
  let loop := forRange MAX_ALIVE_THREADS heap.initThreadBags
    ⟨0, 0, 0, BIBOP_MIN_BLOCK_SIZE, LOG2 BIBOP_MIN_BLOCK_SIZE, fun _ => .zero, .zero build⟩
  let shadowMemSizePerHeap := loop.numCumObjects * heap._shadowObjectInfoSize
  -- the width of `size_t` less the leading zeros of a number is its length in bits
  let ceilShiftBits := Nat.size (shadowMemSizePerHeap - 1)
  let heap := { heap with
    _numObjectsPerHeap := loop.numCumObjects
    _shadowMemSizePerHeap := shadowMemSizePerHeap
    _shadowMemSizePerHeapCeilShiftBits := ceilShiftBits
    _shadowMemSizePerHeapCeil := 1 <<< ceilShiftBits
    _shadowMemSizePerHeapMask := (1 <<< ceilShiftBits) - 1
    _threadBag := loop.threadBag }
  -- `allocShadowMem`: the mapping has the exact size of every heap, not the rounded one
  let heap := { heap with
    _shadowMemEnd := shadowMemBegin + BIBOP_NUM_HEAPS * shadowMemSizePerHeap
    _threadBag := heap.initNextShadow }
  (heap, loop.state)

end BibopHeap

end FreeGuard.Model
