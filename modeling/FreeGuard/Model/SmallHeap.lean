import FreeGuard.Model.BibopHeap

/-! # Small objects

`allocateSmallObject` and `freeSmallObject` of `bibopheap.hh`, with the functions they call. A draw of
`getRandomNumber` is an input. Every function is the code run without interruption, as its callers
hold the lock of the list they change. An allocation takes the first object of the free list that its
draw selects, or the object under that list's bump pointer.
-/

namespace FreeGuard.Model

/-- The draws of one allocation: the `int` that selects the list, and the one that decides on a random
guard. -/
structure Draws where
  list : BitVec 32
  guard : BitVec 32
deriving DecidableEq, Repr

inductive Direction where
  | LEFT
  | RIGHT
deriving DecidableEq, Repr

/-- `__builtin_clz`, which takes an `unsigned`. -/
def builtin_clz (x : size_t) : ℕ := 32 - Nat.size (x.setWidth 32).toNat

/-- The class size of a request, after the canary has been added to it. -/
def classSizeOf (build : Build) (sz : size_t) : ℕ :=
  let sz := if build.canary then sz + 1 else sz
  if sz.toNat ≤ BIBOP_MIN_BLOCK_SIZE then BIBOP_MIN_BLOCK_SIZE
  else (1 <<< 32) >>> builtin_clz (sz - 1)

namespace BibopHeap

variable (heap : BibopHeap)

/-! ## Allocation -/

def incrementBumpPointer (curBag : BagRef) (numBagSetItem : ℕ) (s : HeapState) : HeapState :=
  let item : ItemRef := (curBag, numBagSetItem)
  let bag := heap._threadBag curBag
  if s.position item < s.lastofCurBag item then
    { s with position := Function.update s.position item (s.position item + bag.classSize) }
  else
    let position := s.position item + bag.nextHeapObjectOffset
    let guardoffset := if heap.build.guardPage then bag.guardoffset else 0
    { s with
      position := Function.update s.position item position
      lastofCurBag := Function.update s.lastofCurBag item
        (heap.getLastOfBag position guardoffset bag.classSize)
      guards := if heap.build.guardPage then
          heap.setGuardPage position bag.guardsize guardoffset s.guards
        else s.guards }

/-- The guard takes the rest of a page of small objects, or one larger object. -/
def tryRandomGuardPage (curBag : BagRef) (numBagSetItem : ℕ) (draw : BitVec 32) (s : HeapState) :
    HeapState :=
  let item : ItemRef := (curBag, numBagSetItem)
  let classSize := (heap._threadBag curBag).classSize
  let savedPosition := s.position item
  if heap.build.belowGuardCutoff draw.toInt then
    let s := { s with
      position := if classSize < PageSize then
          Function.update s.position item (savedPosition + (PageSize / classSize - 1) * classSize)
        else s.position
      guards := s.guards ++ [⟨true, savedPosition, if classSize < PageSize then PageSize else classSize⟩] }
    heap.incrementBumpPointer curBag numBagSetItem s
  else s

/-- The list that a draw selects, and whether its bump pointer is used in any case. -/
def selectList (draw : BitVec 32) : ℕ × Bool :=
  if heap.build.BIBOP_BAG_SET_SIZE ≤ 1 then (0, false)
  else (draw.toNat &&& heap.build.BIBOP_BAG_SET_MASK,
    draw.toNat &&& heap.build.BIBOP_BAG_SET_RANDOMIZER_MASK == 0)

/-- The object that an allocation in a bag takes, before it is marked. -/
def takeObject (curBag : BagRef) (draws : Draws) (s : HeapState) : ℕ × HeapState :=
  let (numBagSetItem, useBumpPointer) := heap.selectList draws.list
  let item : ItemRef := (curBag, numBagSetItem)
  if !IS_FREELIST_EMPTY (s.freelist item) && !useBumpPointer then
    let (shadowinfo, freelist) := FREELIST_REMOVE s.links (s.freelist item)
    (heap.getAddrFromShadowInfo shadowinfo curBag,
      { s with freelist := Function.update s.freelist item freelist })
  else
    let ptr := s.position item
    let s := heap.incrementBumpPointer curBag numBagSetItem s
    let s := if heap.build.randomGuard && s.position item &&& PageMask == 0 then
        heap.tryRandomGuardPage curBag numBagSetItem draws.guard s
      else s
    (ptr, s)

/-- Write the canary of an object and mark its shadow entry. -/
def markObject (curBag : BagRef) (ptr : ℕ) (s : HeapState) : HeapState :=
  let shadowinfo := heap.getShadowObjectInfoIn ptr curBag
  let canary := ptr + (heap._threadBag curBag).classSize - 1
  { s with
    mem := if heap.build.canary then Function.update s.mem canary CANARY_SENTINEL else s.mem
    links := Function.update s.links shadowinfo ALLOC_SENTINEL }

def allocateSmallObject (threadIndex : ℕ) (sz : size_t) (draws : Draws) (s : HeapState) :
    ℕ × HeapState :=
  let bagNum := heap.getBagNum (classSizeOf heap.build sz)
  let curBag : BagRef := (threadIndex, bagNum)
  let (ptr, s) := heap.takeObject curBag draws s
  (ptr, heap.markObject curBag ptr s)

/-! ## Deallocation -/

def isObjectFree (s : HeapState) (shadowinfo : ℕ) : Bool := s.links shadowinfo != ALLOC_SENTINEL

/-- The shadow entry next to one in a direction, over the ends of the bag into the heaps of the same
bag set item; none left of the first object of the first such heap. -/
def getNextCanaryNeighbor (shadowinfo : ℕ) (bag : BagRef) (move : Direction) : Option ℕ :=
  let heapNum := heap.getHeapNumber shadowinfo
  let shadowOffset := shadowinfo - heap._shadowMemBegin
  let objectindex := ((shadowOffset &&& heap._shadowMemSizePerHeapMask) -
    (heap._threadBag bag).startShadowMemOffset) >>> heap._shadowObjectInfoSizeShiftBits
  match move with
  | .LEFT =>
    if objectindex = 0 then
      if heapNum < heap.build.BIBOP_BAG_SET_SIZE then none
      else some (shadowinfo - (heap._threadBag bag).nextShadowHeapObjectOffset)
    else some (shadowinfo - heap._shadowObjectInfoSize)
  | .RIGHT =>
    if objectindex = (heap._threadBag bag).lastObjectIndex then
      some (shadowinfo + (heap._threadBag bag).nextShadowHeapObjectOffset)
    else some (shadowinfo + heap._shadowObjectInfoSize)

/-- The canary checks of up to `count` neighbors of `addr` in a direction. -/
def checkNeighbors (s : HeapState) (addr : ℕ) (bag : BagRef) (move : Direction) :
    ℕ → ℕ → Except Stop Unit
  | 0, _ => .ok ()
  | count + 1, canaryShadow =>
    match heap.getNextCanaryNeighbor canaryShadow bag move with
    | none => .ok ()
    | some canaryShadow =>
      let neighborAddr := heap.getAddrFromShadowInfo canaryShadow bag
      let canary := neighborAddr + (heap._threadBag bag).classSize - 1
      if !isObjectFree s canaryShadow && s.mem canary != CANARY_SENTINEL then
        .error (.canary neighborAddr addr canary (s.mem canary))
      else checkNeighbors s addr bag move count canaryShadow

def checkCanaries (s : HeapState) (addr : ℕ) (bag : BagRef) (shadowinfo : ℕ) : Except Stop Unit :=
  let canary := addr + (heap._threadBag bag).classSize - 1
  if s.mem canary != CANARY_SENTINEL then .error (.canary addr addr canary (s.mem canary))
  else do
    heap.checkNeighbors s addr bag .LEFT NUM_MORE_CANARIES_TO_CHECK shadowinfo
    heap.checkNeighbors s addr bag .RIGHT NUM_MORE_CANARIES_TO_CHECK shadowinfo

/-- `memset(addr, 0, classSize)` for the smaller classes. -/
def destroyObject (addr classSize : ℕ) (s : HeapState) : HeapState :=
  if classSize ≤ TWO_KILOBYTES then
    { s with mem := fun a => if addr ≤ a ∧ a < addr + classSize then 0 else s.mem a }
  else s

/-- `FREELIST_INSERT` of an entry on the list of one item. -/
def insertFreelist (item : ItemRef) (shadowinfo : ℕ) (s : HeapState) : HeapState :=
  let (links, freelist) := FREELIST_INSERT s.links shadowinfo (s.freelist item)
  { s with links := links, freelist := Function.update s.freelist item freelist }

/-- The cached list holds `ncfree` entries, which bounds the walk of the merge. -/
def realFreeCurrentList (bag : BagRef) (numBagSetItem : ℕ) (s : HeapState) :
    Except Stop HeapState :=
  let item : ItemRef := (bag, numBagSetItem)
  match FREELIST_MERGE (s.ncfree bag) s.links (s.cfreelist bag) (s.freelist item) with
  | none => .error .fault
  | some (links, freelist) => .ok { s with
      links := links
      freelist := Function.update s.freelist item freelist
      ncfree := Function.update s.ncfree bag 0
      cfreelist := Function.update s.cfreelist bag initSLL }

/-- `insertSLLHead` on the cached list of a bag. -/
def insertCached (bag : BagRef) (shadowinfo : ℕ) (s : HeapState) : HeapState :=
  let (links, cfreelist) := insertSLLHead s.links shadowinfo (s.cfreelist bag)
  { s with
    links := links
    cfreelist := Function.update s.cfreelist bag cfreelist
    ncfree := Function.update s.ncfree bag (s.ncfree bag + 1) }

/-- The last part of `freeSmallObject`: the entry goes to a free list. -/
def insertObject (threadIndex : ℕ) (bag : BagRef) (numBagSetItem shadowinfo : ℕ) (s : HeapState) :
    Except Stop HeapState :=
  if heap.build.cfreelist && (heap._threadBag bag).threadIndex != threadIndex then
    let s := insertCached bag shadowinfo s
    if s.ncfree bag > (heap._threadBag bag).cflthreshold then realFreeCurrentList bag numBagSetItem s
    else .ok s
  else .ok (insertFreelist (bag, numBagSetItem) shadowinfo s)

/-- What `freeSmallObject` does with an object that is marked. -/
def freeMarked (threadIndex addr : ℕ) (bag : BagRef) (numBagSetItem shadowinfo : ℕ) (s : HeapState) :
    Except Stop HeapState := do
  let objectSizeWoCanary := if heap.build.canary then (heap._threadBag bag).classSize - 1
    else (heap._threadBag bag).classSize
  if heap.build.canary then heap.checkCanaries s addr bag shadowinfo
  let s := if heap.build.destroyOnFree then destroyObject addr objectSizeWoCanary s else s
  heap.insertObject threadIndex bag numBagSetItem shadowinfo s

def freeSmallObject (threadIndex addr : ℕ) (s : HeapState) : Except Stop HeapState := do
  let (bag, numBagSetItem, shadowinfo) ← heap.getShadowObjectInfo addr
  if isObjectFree s shadowinfo then .error (.doubleFree addr shadowinfo)
  else heap.freeMarked threadIndex addr bag numBagSetItem shadowinfo s

end BibopHeap

end FreeGuard.Model
