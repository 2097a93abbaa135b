import FreeGuard.Model.LibFreeGuard

/-! # Runs of the library

The calls of `xxmalloc`, `xxfree` and `xxrealloc` one after the other, and the stores of the program
between them. The system records the pointers that the program holds, each with the heap whose branch
of `xxmalloc` returned it. A call that ends the process has no successor.
-/

namespace FreeGuard.Model

open Machine

/-- The heap that issued a pointer. -/
inductive Owner where
  | small
  | large
deriving DecidableEq, Repr

/-- The library, and the live pointers with their owners. -/
structure LibSystem where
  lib : LibFreeGuard
  live : List (ℕ × Owner)

inductive LibEvent where
  | malloc (threadIndex : ℕ) (size : size_t) (inputs : Inputs)
  | free (threadIndex ptr : ℕ)
  | realloc (threadIndex ptr : ℕ) (sz : size_t) (inputs : Inputs)
  | store (addr : ℕ) (value : UInt8)
deriving DecidableEq, Repr

/-- The branch of `xxmalloc`. -/
def ownerOf (build : Build) (size : size_t) : Owner :=
  if build.IF_CANARY_CONDITION size then .large else .small

/-- The pointers live after a pointer has been freed. -/
def dropLive (ptr : ℕ) (live : List (ℕ × Owner)) : List (ℕ × Owner) :=
  live.filter fun entry => entry.1 ≠ ptr

/-- `xxrealloc` gets to its call of `xxmalloc`. -/
def Reallocates (heap : BibopHeap) (ptr : ℕ) (sz : size_t) (lib : LibFreeGuard) : Prop :=
  ptr = NULL ∨ sz ≠ 0 ∧ ∃ oldSize, lib.oldSize heap ptr = .ok oldSize ∧ oldSize ≠ -1 ∧ oldSize < sz

/-- The pointers live after `xxrealloc` has returned `result`. -/
def liveAfterRealloc (heap : BibopHeap) (ptr : ℕ) (sz : size_t) (result : ℕ) (system : LibSystem) :
    List (ℕ × Owner) :=
  if ptr = NULL then (result, ownerOf heap.build sz) :: system.live
  else if sz = 0 then dropLive ptr system.live
  else match system.lib.oldSize heap ptr with
    | .error _ => system.live
    | .ok oldSize =>
      if oldSize = -1 ∨ oldSize ≥ sz then system.live
      else dropLive ptr ((result, ownerOf heap.build sz) :: system.live)

/-- What the operating system and `Real::malloc` promise for an allocation at the big heap: blocks that
are not in use, and a mapping. -/
structure Supplied (lib : LibFreeGuard) (size : size_t) (supply : Supply) : Prop where
  objStatus : supply.objStatus ∉ lib.big.statuses
  entry : supply.entry ∉ lib.big._xmap.blocks
  mmap : ∀ ptr, supply.mmap = some ptr →
    MmapResult lib.mapped (BigHeap.pageUpSize size).toNat ptr

/-- One call, or one store of the program. -/
inductive LibStep (heap : BibopHeap) : LibSystem → LibEvent → LibSystem → Prop
  | malloc (system : LibSystem) {threadIndex ptr : ℕ} {size : size_t} {inputs : Inputs}
      {lib : LibFreeGuard} :
      threadIndex < MAX_ALIVE_THREADS → Supplied system.lib size inputs.supply →
      system.lib.xxmalloc heap threadIndex size inputs = .ok (ptr, lib) →
      LibStep heap system (.malloc threadIndex size inputs)
        ⟨lib, (ptr, ownerOf heap.build size) :: system.live⟩
  | free (system : LibSystem) {threadIndex ptr : ℕ} {lib : LibFreeGuard} :
      threadIndex < MAX_ALIVE_THREADS → system.lib.xxfree heap threadIndex ptr = .ok lib →
      LibStep heap system (.free threadIndex ptr) ⟨lib, dropLive ptr system.live⟩
  | realloc (system : LibSystem) {threadIndex ptr result : ℕ} {sz : size_t} {inputs : Inputs}
      {lib : LibFreeGuard} :
      threadIndex < MAX_ALIVE_THREADS → Supplied system.lib sz inputs.supply →
      system.lib.xxrealloc heap threadIndex ptr sz inputs = .ok (result, lib) →
      LibStep heap system (.realloc threadIndex ptr sz inputs)
        ⟨lib, liveAfterRealloc heap ptr sz result system⟩
  | store (system : LibSystem) {addr : ℕ} {value : UInt8} :
      LibStep heap system (.store addr value) { system with
        lib := { system.lib with small := { system.lib.small with
          mem := Function.update system.lib.small.mem addr value } } }

end FreeGuard.Model
