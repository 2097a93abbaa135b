import FreeGuard.Model.SmallHeap

/-! # Runs of the small heap

The calls of `allocateSmallObject` and `freeSmallObject` one after the other, and the stores of the
program between them. An allocation is one that `xxmalloc` routes to the small heap; a deallocation is
of any address from `_heapBegin` on. A call that ends the process has no successor.
-/

namespace FreeGuard.Model

/-- An address that an allocation returned, with the size of its class. -/
structure Issue where
  addr : ℕ
  classSize : ℕ
deriving DecidableEq, Repr

/-- The small heap, and the addresses returned so far, the latest first. -/
structure HeapSystem where
  state : HeapState
  returned : List Issue

inductive HeapEvent where
  | malloc (threadIndex : ℕ) (sz : size_t) (draws : Draws)
  | free (threadIndex addr : ℕ)
  | store (addr : ℕ) (value : UInt8)
deriving DecidableEq, Repr

/-- The system after an allocation. -/
def HeapSystem.malloc (heap : BibopHeap) (system : HeapSystem) (threadIndex : ℕ) (sz : size_t)
    (draws : Draws) : HeapSystem :=
  let (ptr, state) := heap.allocateSmallObject threadIndex sz draws system.state
  ⟨state, ⟨ptr, classSizeOf heap.build sz⟩ :: system.returned⟩

/-- One call, or one store of the program. -/
inductive HeapStep (heap : BibopHeap) : HeapSystem → HeapEvent → HeapSystem → Prop
  | malloc (system : HeapSystem) {threadIndex : ℕ} {sz : size_t} {draws : Draws} :
      threadIndex < MAX_ALIVE_THREADS → heap.build.IF_CANARY_CONDITION sz = false →
      HeapStep heap system (.malloc threadIndex sz draws) (system.malloc heap threadIndex sz draws)
  | free (system : HeapSystem) {threadIndex addr : ℕ} {state : HeapState} :
      threadIndex < MAX_ALIVE_THREADS → heap._heapBegin ≤ addr →
      heap.freeSmallObject threadIndex addr system.state = .ok state →
      HeapStep heap system (.free threadIndex addr) { system with state := state }
  | store (system : HeapSystem) {addr : ℕ} {value : UInt8} :
      HeapStep heap system (.store addr value) { system with
        state := { system.state with mem := Function.update system.state.mem addr value } }

/-- The system after an event, if the event is possible. -/
def HeapSystem.exec (heap : BibopHeap) (system : HeapSystem) : HeapEvent → Option HeapSystem
  | .malloc threadIndex sz draws =>
    if threadIndex < MAX_ALIVE_THREADS ∧ heap.build.IF_CANARY_CONDITION sz = false then
      some (system.malloc heap threadIndex sz draws)
    else none
  | .free threadIndex addr =>
    if threadIndex < MAX_ALIVE_THREADS ∧ heap._heapBegin ≤ addr then
      match heap.freeSmallObject threadIndex addr system.state with
      | .ok state => some { system with state := state }
      | .error _ => none
    else none
  | .store addr value =>
    some { system with
      state := { system.state with mem := Function.update system.state.mem addr value } }

theorem HeapSystem.exec_sound (heap : BibopHeap) (system : HeapSystem) (event : HeapEvent)
    (next : HeapSystem) (computed : system.exec heap event = some next) :
    HeapStep heap system event next := by
  cases event with
  | malloc threadIndex sz draws =>
    obtain ⟨⟨thread, routed⟩, same⟩ := Option.ite_none_right_eq_some.mp computed
    obtain rfl := Option.some.inj same
    exact .malloc system thread routed
  | free threadIndex addr =>
    obtain ⟨⟨thread, inside⟩, computed⟩ := Option.ite_none_right_eq_some.mp computed
    split at computed
    · next ok =>
      cases computed
      exact .free system thread inside ok
    · cases computed
  | store addr value =>
    cases computed
    exact .store system

end FreeGuard.Model
