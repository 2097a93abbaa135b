import FreeGuard.Model.BigHeap
import FreeGuard.Model.SmallHeap

/-! # The library calls

The interposed functions of `libfreeguard.cpp`, after the constructor of the library has run
`heapinitialize`, so that `heapInitStatus` is `E_HEAP_INIT_DONE` in every call. The memory of the small
heap's state is that of the whole process. The `malloc` that `xxcalloc` and `xxmemalign` call is
`xxmalloc`.
-/

namespace FreeGuard.Model

open Machine

/-- The two heaps and the mappings. -/
structure LibFreeGuard where
  small : HeapState
  big : BigHeap
  mapped : Mapped

/-- What the calls of one allocation draw and obtain. -/
structure Inputs where
  draws : Draws
  supply : Supply
deriving DecidableEq, Repr

namespace LibFreeGuard

variable (heap : BibopHeap)

def xxmalloc (threadIndex : ℕ) (size : size_t) (inputs : Inputs) (lib : LibFreeGuard) :
    Except Stop (ℕ × LibFreeGuard) :=
  if heap.build.IF_CANARY_CONDITION size then do
    let (ptr, big, mapped) ← lib.big.allocateAtBigHeap size inputs.supply lib.mapped
    pure (ptr, { lib with big := big, mapped := mapped })
  else
    let (ptr, small) := heap.allocateSmallObject threadIndex size inputs.draws lib.small
    .ok (ptr, { lib with small := small })

/-- An address of neither heap is reported and left alone. -/
def xxfree (threadIndex ptr : ℕ) (lib : LibFreeGuard) : Except Stop LibFreeGuard :=
  if ptr = NULL then .ok lib
  else if heap.isSmallObject ptr then do
    let small ← heap.freeSmallObject threadIndex ptr lib.small
    pure { lib with small := small }
  else if lib.big.isLargeObject ptr then do
    let (big, mapped) ← lib.big.deallocateToBigHeap ptr lib.mapped
    pure { lib with big := big, mapped := mapped }
  else .ok lib

/-- `oldSize` of `xxrealloc`. -/
def oldSize (ptr : ℕ) (lib : LibFreeGuard) : Except Stop size_t :=
  if heap.isSmallObject ptr then heap.getObjectSize ptr
  else if lib.big.isLargeObject ptr then .ok (lib.big.getObjectSize ptr)
  else .ok (-1)

/-- `memcpy`. -/
def memcpy (dest src count : ℕ) (lib : LibFreeGuard) : LibFreeGuard :=
  { lib with small := { lib.small with
      mem := fun a => if dest ≤ a ∧ a < dest + count then lib.small.mem (a - dest + src)
        else lib.small.mem a } }

/-- `memset`. -/
def memset (dest : ℕ) (value : UInt8) (count : ℕ) (lib : LibFreeGuard) : LibFreeGuard :=
  { lib with small := { lib.small with
      mem := fun a => if dest ≤ a ∧ a < dest + count then value else lib.small.mem a } }

def xxcalloc (threadIndex : ℕ) (nelem elsize : size_t) (inputs : Inputs) (lib : LibFreeGuard) :
    Except Stop (ℕ × LibFreeGuard) := do
  let (ptr, lib) ← xxmalloc heap threadIndex (nelem * elsize) inputs lib
  if ptr ≠ NULL then pure (ptr, memset ptr 0 (nelem * elsize).toNat lib)
  else pure (ptr, lib)

def xxmemalign (threadIndex : ℕ) (alignment size : size_t) (inputs : Inputs) (lib : LibFreeGuard) :
    Except Stop (ℕ × LibFreeGuard) :=
  if size = 0 then .ok (NULL, lib)
  else do
    let allocObjectSize := alignment + size
    let (object, lib) ← xxmalloc heap threadIndex allocObjectSize inputs lib
    let residualBytes := object % alignment.toNat
    let alignedObject := object + residualBytes
    pure (alignedObject, lib)

/-- The value returned, the value stored at `memptr`, and the library. -/
def xxposix_memalign (threadIndex : ℕ) (alignment size : size_t) (inputs : Inputs)
    (lib : LibFreeGuard) : Except Stop (ℕ × ℕ × LibFreeGuard) := do
  let (alignedObject, lib) ← xxmemalign heap threadIndex alignment size inputs lib
  pure (0, alignedObject, lib)

def xxrealloc (threadIndex ptr : ℕ) (sz : size_t) (inputs : Inputs) (lib : LibFreeGuard) :
    Except Stop (ℕ × LibFreeGuard) :=
  if ptr = NULL then xxmalloc heap threadIndex sz inputs lib
  else if sz = 0 then do
    let lib ← xxfree heap threadIndex ptr lib
    pure (NULL, lib)
  else do
    let oldSize ← oldSize heap ptr lib
    if oldSize = -1 then pure (NULL, lib)
    else if oldSize ≥ sz then pure (ptr, lib)
    else
      let (newObject, lib) ← xxmalloc heap threadIndex sz inputs lib
      let lib := memcpy newObject ptr oldSize.toNat lib
      let lib ← xxfree heap threadIndex ptr lib
      pure (newObject, lib)

end LibFreeGuard

end FreeGuard.Model
