import FreeGuard.Model.SmallRun

/-! # Concurrent calls of the small heap

Threads in `allocateSmallObject` and `freeSmallObject` of a build without `CFREELIST`, one atomic step of
one thread after the other. What a call does under the lock of a list is one step; every access without
the lock to a shadow word or to a byte of an object is one step of its own. The bump pointers of a thread
are its own, so a move of one is a step too. A thread is named by its index; no two threads in a call
have one index. `held` records the blocks that the program has been given and has not passed to a
deallocation.
-/

namespace FreeGuard.Model

/-- The object of a deallocation, as `getShadowObjectInfo` decodes its address. -/
structure Freeing where
  addr : ℕ
  bag : BagRef
  numBagSetItem : ℕ
  shadowinfo : ℕ
deriving DecidableEq, Repr

/-- How far a thread is in a call. -/
inductive ObjectCall where
  | idle
  /-- The list has been left alone and its lock released: the bump pointer is next. -/
  | bumping (item : ItemRef) (guard : BitVec 32)
  /-- An object has been taken, and nothing has been written to it. -/
  | taken (bag : BagRef) (ptr : ℕ)
  /-- The canary has been written. -/
  | sealed (bag : BagRef) (ptr : ℕ)
  /-- The shadow entry has been found marked. -/
  | found (object : Freeing)
  /-- `count` neighbors are left to check in a direction, starting at an entry. -/
  | walking (object : Freeing) (move : Direction) (count canaryShadow : ℕ)
  /-- The neighbor at an entry is in use, and its canary is next. -/
  | peeked (object : Freeing) (move : Direction) (count canaryShadow : ℕ)
  | checked (object : Freeing)
  | destroyed (object : Freeing)
deriving DecidableEq, Repr

namespace BibopHeap

variable (heap : BibopHeap)

/-! ## The pieces of an allocation -/

/-- What an allocation does under the lock: it takes the first object of the list, or leaves the list to
use the bump pointer. -/
def removeObject (curBag : BagRef) (draws : Draws) (s : HeapState) : Option (ℕ × HeapState) :=
  let (numBagSetItem, useBumpPointer) := heap.selectList draws.list
  let item : ItemRef := (curBag, numBagSetItem)
  if !IS_FREELIST_EMPTY (s.freelist item) && !useBumpPointer then
    let (shadowinfo, freelist) := FREELIST_REMOVE s.links (s.freelist item)
    some (heap.getAddrFromShadowInfo shadowinfo curBag,
      { s with freelist := Function.update s.freelist item freelist })
  else none

/-- The object under the bump pointer, which moves on. -/
def bumpObject (item : ItemRef) (guard : BitVec 32) (s : HeapState) : ℕ × HeapState :=
  let ptr := s.position item
  let s := heap.incrementBumpPointer item.1 item.2 s
  (ptr, if heap.build.randomGuard && s.position item &&& PageMask == 0 then
      heap.tryRandomGuardPage item.1 item.2 guard s
    else s)

/-- Write the canary of an object. -/
def sealObject (bag : BagRef) (ptr : ℕ) (s : HeapState) : HeapState :=
  { s with
    mem := if heap.build.canary then
        Function.update s.mem (ptr + (heap._threadBag bag).classSize - 1) CANARY_SENTINEL
      else s.mem }

/-- `shadowinfo->listentry.next = ALLOC_SENTINEL`. -/
def markEntry (bag : BagRef) (ptr : ℕ) (s : HeapState) : HeapState :=
  { s with links := Function.update s.links (heap.getShadowObjectInfoIn ptr bag) ALLOC_SENTINEL }

/-- The call of an allocation past the lock, and the state it leaves there. -/
def beginMalloc (threadIndex : ℕ) (sz : size_t) (draws : Draws) (s : HeapState) :
    ObjectCall × HeapState :=
  let curBag : BagRef := (threadIndex, heap.getBagNum (classSizeOf heap.build sz))
  match heap.removeObject curBag draws s with
  | some (ptr, s) => (.taken curBag ptr, s)
  | none => (.bumping (curBag, (heap.selectList draws.list).1) draws.guard, s)

/-! ## The pieces of a deallocation -/

/-- The call of a deallocation past the check for a double free. -/
def beginFree (addr : ℕ) (s : HeapState) : Except Stop ObjectCall := do
  let (bag, numBagSetItem, shadowinfo) ← heap.getShadowObjectInfo addr
  if isObjectFree s shadowinfo then .error (.doubleFree addr shadowinfo)
  else .ok (.found ⟨addr, bag, numBagSetItem, shadowinfo⟩)

/-- After one direction the check goes on with the other. -/
def turn (object : Freeing) : Direction → ObjectCall
  | .LEFT => .walking object .RIGHT NUM_MORE_CANARIES_TO_CHECK object.shadowinfo
  | .RIGHT => .checked object

/-- The next step of a thread in a call. -/
def advance (s : HeapState) : ObjectCall → Except Stop (ObjectCall × HeapState)
  | .idle => .ok (.idle, s)
  | .bumping item guard =>
    let (ptr, s) := heap.bumpObject item guard s
    .ok (.taken item.1 ptr, s)
  | .taken bag ptr => .ok (.sealed bag ptr, heap.sealObject bag ptr s)
  | .sealed bag ptr => .ok (.idle, heap.markEntry bag ptr s)
  | .found object =>
    if heap.build.canary then
      let canary := object.addr + (heap._threadBag object.bag).classSize - 1
      if s.mem canary != CANARY_SENTINEL then
        .error (.canary object.addr object.addr canary (s.mem canary))
      else .ok (.walking object .LEFT NUM_MORE_CANARIES_TO_CHECK object.shadowinfo, s)
    else .ok (.checked object, s)
  | .walking object move 0 _ => .ok (turn object move, s)
  | .walking object move (count + 1) canaryShadow =>
    match heap.getNextCanaryNeighbor canaryShadow object.bag move with
    | none => .ok (turn object move, s)
    | some canaryShadow =>
      if isObjectFree s canaryShadow then .ok (.walking object move count canaryShadow, s)
      else .ok (.peeked object move count canaryShadow, s)
  | .peeked object move count canaryShadow =>
    let neighborAddr := heap.getAddrFromShadowInfo canaryShadow object.bag
    let canary := neighborAddr + (heap._threadBag object.bag).classSize - 1
    if s.mem canary != CANARY_SENTINEL then
      .error (.canary neighborAddr object.addr canary (s.mem canary))
    else .ok (.walking object move count canaryShadow, s)
  | .checked object =>
    let objectSizeWoCanary := if heap.build.canary then (heap._threadBag object.bag).classSize - 1
      else (heap._threadBag object.bag).classSize
    .ok (.destroyed object,
      if heap.build.destroyOnFree then destroyObject object.addr objectSizeWoCanary s else s)
  | .destroyed object =>
    .ok (.idle, insertFreelist (object.bag, object.numBagSetItem) object.shadowinfo s)

end BibopHeap

/-- The block that the next step of a call gives to the program. -/
def ObjectCall.returns (heap : BibopHeap) : ObjectCall → Option Issue
  | .sealed bag ptr => some ⟨ptr, (heap._threadBag bag).classSize⟩
  | _ => none

structure HeapRace where
  state : HeapState
  calls : ℕ → ObjectCall
  /-- The class size of every block that the program holds, by its address. -/
  held : ℕ → Option ℕ

inductive HeapRaceEvent where
  | malloc (thread : ℕ) (sz : size_t) (draws : Draws)
  | free (thread addr : ℕ)
  | advance (thread : ℕ)
  | store (addr : ℕ) (value : UInt8)
deriving DecidableEq, Repr

/-- One step of one thread. -/
inductive HeapRaceStep (heap : BibopHeap) : HeapRace → HeapRaceEvent → HeapRace → Prop
  | malloc (s : HeapRace) {thread : ℕ} {sz : size_t} {draws : Draws} {call : ObjectCall}
      {state : HeapState} :
      thread < MAX_ALIVE_THREADS → heap.build.IF_CANARY_CONDITION sz = false →
      s.calls thread = .idle → heap.beginMalloc thread sz draws s.state = (call, state) →
      HeapRaceStep heap s (.malloc thread sz draws) { s with
        state := state
        calls := Function.update s.calls thread call }
  | free (s : HeapRace) {thread addr : ℕ} {call : ObjectCall} :
      thread < MAX_ALIVE_THREADS → heap._heapBegin ≤ addr →
      s.calls thread = .idle → heap.beginFree addr s.state = .ok call →
      HeapRaceStep heap s (.free thread addr) { s with
        calls := Function.update s.calls thread call
        held := Function.update s.held addr none }
  | advance (s : HeapRace) {thread : ℕ} {call : ObjectCall} {state : HeapState} :
      s.calls thread ≠ .idle → heap.advance s.state (s.calls thread) = .ok (call, state) →
      HeapRaceStep heap s (.advance thread)
        { state := state
          calls := Function.update s.calls thread call
          held := match (s.calls thread).returns heap with
            | some issue => Function.update s.held issue.addr (some issue.classSize)
            | none => s.held }
  | store (s : HeapRace) {addr : ℕ} {value : UInt8} :
      HeapRaceStep heap s (.store addr value) { s with
        state := { s.state with mem := Function.update s.state.mem addr value } }

end FreeGuard.Model
