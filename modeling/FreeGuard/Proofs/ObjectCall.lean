import FreeGuard.Model.HeapRace
import FreeGuard.Proofs.SmallHeap

/-! # A call on its own

Every step of a thread brings its call nearer to its end. A call whose steps no other step comes between
leaves what `allocateSmallObject` or `freeSmallObject` leaves, and ends the process with the same message.
-/

namespace FreeGuard.Model

variable {heap : BibopHeap} {s t : HeapState} {call next : ObjectCall} {object : Freeing} {move : Direction}

/-- The steps that a call has left at most. -/
def ObjectCall.remaining : ObjectCall → ℕ
  | .idle => 0
  | .bumping .. => 3
  | .taken .. => 2
  | .sealed .. => 1
  | .found _ => 5 + 4 * NUM_MORE_CANARIES_TO_CHECK
  | .walking _ .LEFT count _ => 4 + 2 * NUM_MORE_CANARIES_TO_CHECK + 2 * count
  | .peeked _ .LEFT count _ => 5 + 2 * NUM_MORE_CANARIES_TO_CHECK + 2 * count
  | .walking _ .RIGHT count _ => 3 + 2 * count
  | .peeked _ .RIGHT count _ => 4 + 2 * count
  | .checked _ => 2
  | .destroyed _ => 1

/-- The call has yet to mark the entry of its object. -/
def ObjectCall.Pending : ObjectCall → Prop
  | .bumping .. | .taken .. | .sealed .. => True
  | _ => False

theorem ObjectCall.turn_ok (count canaryShadow : ℕ) :
    (BibopHeap.turn object move).remaining < (ObjectCall.walking object move count canaryShadow).remaining ∧
      ((BibopHeap.turn object move).Pending → (ObjectCall.walking object move count canaryShadow).Pending) := by
  cases move with
  | LEFT => exact ⟨by simp only [BibopHeap.turn, remaining]; omega, id⟩
  | RIGHT => exact ⟨by simp only [BibopHeap.turn, remaining]; omega, id⟩

theorem ObjectCall.remaining_eq_zero (done : call.remaining = 0) : call = .idle := by
  cases call with
  | idle => rfl
  | walking _ move => cases move <;> simp [remaining] at done
  | peeked _ move => cases move <;> simp [remaining] at done
  | _ => simp [remaining] at done

namespace BibopHeap

/-- A deallocation that begins has found its entry marked. -/
theorem beginFree_ok {addr : ℕ} (begun : heap.beginFree addr s = .ok call) :
    ∃ object, call = .found object := by
  rw [beginFree] at begun
  cases decoded : heap.getShadowObjectInfo addr with
  | error stop =>
    rw [decoded] at begun
    cases begun
  | ok parts =>
    obtain ⟨bag, numBagSetItem, shadowinfo⟩ := parts
    simp only [decoded, bind, Except.bind] at begun
    split at begun
    · cases begun
    · exact ⟨_, (Except.ok.inj begun).symm⟩

/-- A step of a thread brings its call nearer to its end, and a deallocation goes on as one. -/
theorem advance_ok (working : call ≠ .idle) (advanced : heap.advance s call = .ok (next, t)) :
    next.remaining < call.remaining ∧ (next.Pending → call.Pending) := by
  cases call with
  | idle => exact absurd rfl working
  | found object =>
    simp only [advance] at advanced
    split at advanced
    · split at advanced
      · cases advanced
      · cases advanced
        exact ⟨by simp only [ObjectCall.remaining]; omega, id⟩
    · cases advanced
      exact ⟨by simp only [ObjectCall.remaining]; omega, id⟩
  | walking object move count canaryShadow =>
    cases count with
    | zero =>
      cases advanced
      exact ObjectCall.turn_ok ..
    | succ count =>
      simp only [advance] at advanced
      split at advanced
      · cases advanced
        exact ObjectCall.turn_ok ..
      · split at advanced <;> cases advanced <;>
          exact ⟨by cases move <;> simp only [ObjectCall.remaining] <;> omega, id⟩
  | peeked object move count canaryShadow =>
    simp only [advance] at advanced
    split at advanced
    · cases advanced
    · cases advanced
      exact ⟨by cases move <;> simp only [ObjectCall.remaining] <;> omega, id⟩
  | _ =>
    cases advanced
    simp [ObjectCall.remaining, ObjectCall.Pending]

variable (heap)

/-- What a deallocation does past the checks. -/
def release (object : Freeing) (s : HeapState) : HeapState :=
  insertFreelist (object.bag, object.numBagSetItem) object.shadowinfo
    (s.setMem (heap.destroyed object.addr object.bag s))

/-- The object is destroyed as `freeSmallObject` does it. -/
theorem advance_checked (object : Freeing) (s : HeapState) :
    heap.advance s (.checked object) =
      .ok (.destroyed object, s.setMem (heap.destroyed object.addr object.bag s)) := by
  rw [advance, heap.destroyObject_eq]

/-- Under the lock and past it, an allocation takes the object that it takes uninterrupted. -/
theorem takeObject_eq (curBag : BagRef) (draws : Draws) (s : HeapState) :
    heap.takeObject curBag draws s = (heap.removeObject curBag draws s).getD
      (heap.bumpObject (curBag, (heap.selectList draws.list).1) draws.guard s) := by
  simp only [takeObject, removeObject, bumpObject]
  split <;> rfl

/-- What is left of the checks of the neighbors. -/
def checkRest (object : Freeing) (s : HeapState) : Direction → ℕ → ℕ → Except Stop Unit
  | .LEFT, count, canaryShadow => do
    heap.checkNeighbors s object.addr object.bag .LEFT count canaryShadow
    heap.checkNeighbors s object.addr object.bag .RIGHT NUM_MORE_CANARIES_TO_CHECK object.shadowinfo
  | .RIGHT, count, canaryShadow => heap.checkNeighbors s object.addr object.bag .RIGHT count canaryShadow

/-- What is left of a call. -/
def rest (s : HeapState) : ObjectCall → Except Stop HeapState
  | .idle => .ok s
  | .bumping item guard =>
    let (ptr, s) := heap.bumpObject item guard s
    .ok (heap.markObject item.1 ptr s)
  | .taken bag ptr => .ok (heap.markObject bag ptr s)
  | .sealed bag ptr => .ok (heap.markEntry bag ptr s)
  | .found object => do
    if heap.build.canary then heap.checkCanaries s object.addr object.bag object.shadowinfo
    .ok (heap.release object s)
  | .walking object move count canaryShadow => do
    heap.checkRest object s move count canaryShadow
    .ok (heap.release object s)
  | .peeked object move count canaryShadow => do
    let neighborAddr := heap.getAddrFromShadowInfo canaryShadow object.bag
    let canary := neighborAddr + (heap._threadBag object.bag).classSize - 1
    if s.mem canary != CANARY_SENTINEL then
      .error (.canary neighborAddr object.addr canary (s.mem canary))
    heap.checkRest object s move count canaryShadow
    .ok (heap.release object s)
  | .checked object => .ok (heap.release object s)
  | .destroyed object => .ok (insertFreelist (object.bag, object.numBagSetItem) object.shadowinfo s)

/-- The steps of one thread, with none of another in between. -/
def finish : ℕ → HeapState → ObjectCall → Except Stop HeapState
  | 0, s, _ => .ok s
  | fuel + 1, s, call => do
    let (call, s) ← heap.advance s call
    finish fuel s call

theorem rest_walking (count canaryShadow : ℕ) :
    heap.rest s (.walking object move count canaryShadow) = (do
      heap.checkNeighbors s object.addr object.bag move count canaryShadow
      heap.rest s (turn object move)) := by
  cases move with
  | LEFT => simp only [rest, checkRest, turn, bind_assoc]
  | RIGHT => rfl

theorem rest_peeked (count canaryShadow : ℕ) :
    heap.rest s (.peeked object move count canaryShadow) =
      let neighborAddr := heap.getAddrFromShadowInfo canaryShadow object.bag
      let canary := neighborAddr + (heap._threadBag object.bag).classSize - 1
      if s.mem canary != CANARY_SENTINEL then
        .error (.canary neighborAddr object.addr canary (s.mem canary))
      else heap.rest s (.walking object move count canaryShadow) := by
  simp only [rest]
  split <;> rfl

/-- A step of a thread leaves of its call what was left, less what it does. -/
theorem rest_advance (s : HeapState) (call : ObjectCall) :
    (do
      let (call, s) ← heap.advance s call
      heap.rest s call) = heap.rest s call := by
  cases call with
  | found object =>
    simp only [advance, rest]
    by_cases canary : heap.build.canary = true
    · simp only [canary, if_true, checkCanaries]
      split
      · rfl
      · change heap.rest s (.walking object .LEFT NUM_MORE_CANARIES_TO_CHECK object.shadowinfo) = _
        simp only [rest, checkRest]
    · simp only [canary]
      rfl
  | walking object move count canaryShadow =>
    rw [rest_walking]
    cases count with
    | zero => rfl
    | succ count =>
      rw [advance, checkNeighbors]
      cases heap.getNextCanaryNeighbor canaryShadow object.bag move with
      | none => rfl
      | some neighbor =>
        by_cases free : isObjectFree s neighbor = true
        · simp only [free, if_true, Bool.not_true, Bool.false_and, Bool.false_eq_true, if_false]
          exact heap.rest_walking count neighbor
        · simp only [free, Bool.not_false, Bool.true_and]
          change heap.rest s (.peeked object move count neighbor) = _
          rw [heap.rest_peeked]
          dsimp only
          split
          · rfl
          · exact heap.rest_walking count neighbor
  | peeked object move count canaryShadow =>
    rw [advance, rest_peeked]
    dsimp only
    split <;> rfl
  | checked object =>
    rw [advance_checked]
    rfl
  | _ => rfl

/-- Run to its end, a call does what was left of it. -/
theorem finish_eq_rest (fuel : ℕ) (s : HeapState) (call : ObjectCall) (enough : call.remaining ≤ fuel) :
    heap.finish fuel s call = heap.rest s call := by
  induction fuel generalizing s call with
  | zero =>
    obtain rfl := ObjectCall.remaining_eq_zero (Nat.le_zero.mp enough)
    rfl
  | succ fuel ih =>
    rw [finish, ← heap.rest_advance]
    cases advanced : heap.advance s call with
    | error stop => rfl
    | ok after =>
      refine ih after.2 after.1 ?_
      by_cases idle : call = .idle
      · subst idle
        cases advanced
        exact Nat.zero_le fuel
      · have nearer := (advance_ok idle advanced).1
        omega

/-- An allocation that no other step comes between. -/
theorem rest_beginMalloc (threadIndex : ℕ) (sz : size_t) (draws : Draws) (s : HeapState) :
    heap.rest (heap.beginMalloc threadIndex sz draws s).2 (heap.beginMalloc threadIndex sz draws s).1 =
      .ok (heap.allocateSmallObject threadIndex sz draws s).2 := by
  simp only [beginMalloc, allocateSmallObject, takeObject_eq]
  cases heap.removeObject (threadIndex, heap.getBagNum (classSizeOf heap.build sz)) draws s with
  | none => rfl
  | some taken => rfl

/-- A deallocation that no other step comes between. -/
theorem rest_beginFree (plain : heap.build.cfreelist = false) (threadIndex addr : ℕ) (s : HeapState) :
    (do
      let call ← heap.beginFree addr s
      heap.rest s call) = heap.freeSmallObject threadIndex addr s := by
  rw [beginFree, freeSmallObject]
  cases heap.getShadowObjectInfo addr with
  | error stop => rfl
  | ok object =>
    obtain ⟨bag, numBagSetItem, shadowinfo⟩ := object
    cases free : isObjectFree s shadowinfo with
    | true => simp [bind, Except.bind, free]
    | false =>
      simp only [bind, Except.bind, free, Bool.false_eq_true, if_false, rest, freeMarked_eq, insertObject, plain,
        Bool.false_and]
      cases heap.build.canary <;> rfl

end BibopHeap

end FreeGuard.Model
