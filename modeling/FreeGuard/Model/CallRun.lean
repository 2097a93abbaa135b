import FreeGuard.Model.LibRun

/-! # Runs of a program

The calls of `xxmalloc`, `xxcalloc`, `xxrealloc` and `xxfree` with what they return, and the loads and
stores of the program between them. The ledger records what the program knows: how many bytes it asked for
at every address that it holds. A call that ends the process has no successor.
-/

namespace FreeGuard.Model

inductive CallEvent where
  | malloc (threadIndex : ℕ) (size : size_t) (inputs : Inputs) (ptr : ℕ)
  | calloc (threadIndex : ℕ) (nelem elsize : size_t) (inputs : Inputs) (ptr : ℕ)
  | realloc (threadIndex ptr : ℕ) (sz : size_t) (inputs : Inputs) (result : ℕ)
  | free (threadIndex ptr : ℕ)
  | store (addr : ℕ) (value : UInt8)
  | load (addr : ℕ) (value : UInt8)
deriving DecidableEq, Repr

/-- One call, or one access of the program. -/
inductive CallStep (heap : BibopHeap) : LibFreeGuard → CallEvent → LibFreeGuard → Prop
  | malloc (lib : LibFreeGuard) {threadIndex ptr : ℕ} {size : size_t} {inputs : Inputs}
      {lib' : LibFreeGuard} :
      threadIndex < MAX_ALIVE_THREADS → Supplied lib size inputs.supply →
      lib.xxmalloc heap threadIndex size inputs = .ok (ptr, lib') →
      CallStep heap lib (.malloc threadIndex size inputs ptr) lib'
  | calloc (lib : LibFreeGuard) {threadIndex ptr : ℕ} {nelem elsize : size_t} {inputs : Inputs}
      {lib' : LibFreeGuard} :
      threadIndex < MAX_ALIVE_THREADS → Supplied lib (nelem * elsize) inputs.supply →
      lib.xxcalloc heap threadIndex nelem elsize inputs = .ok (ptr, lib') →
      CallStep heap lib (.calloc threadIndex nelem elsize inputs ptr) lib'
  | realloc (lib : LibFreeGuard) {threadIndex ptr result : ℕ} {sz : size_t} {inputs : Inputs}
      {lib' : LibFreeGuard} :
      threadIndex < MAX_ALIVE_THREADS → Supplied lib sz inputs.supply →
      lib.xxrealloc heap threadIndex ptr sz inputs = .ok (result, lib') →
      CallStep heap lib (.realloc threadIndex ptr sz inputs result) lib'
  | free (lib : LibFreeGuard) {threadIndex ptr : ℕ} {lib' : LibFreeGuard} :
      threadIndex < MAX_ALIVE_THREADS → lib.xxfree heap threadIndex ptr = .ok lib' →
      CallStep heap lib (.free threadIndex ptr) lib'
  | store (lib : LibFreeGuard) {addr : ℕ} {value : UInt8} :
      CallStep heap lib (.store addr value) { lib with
        small := { lib.small with mem := Function.update lib.small.mem addr value } }
  | load (lib : LibFreeGuard) {addr : ℕ} : CallStep heap lib (.load addr (lib.small.mem addr)) lib

/-- The bytes asked for at every address that the program holds. -/
abbrev Ledger := ℕ → Option ℕ

/-- The ledger after an event. -/
def Ledger.next (ledger : Ledger) : CallEvent → Ledger
  | .malloc _ size _ ptr => Function.update ledger ptr (some size.toNat)
  | .calloc _ nelem elsize _ ptr => Function.update ledger ptr (some (nelem.toNat * elsize.toNat))
  | .realloc _ ptr sz _ result =>
    if ptr = NULL then Function.update ledger result (some sz.toNat)
    else if sz = 0 then Function.update ledger ptr none
    else Function.update (Function.update ledger ptr none) result (some sz.toNat)
  | .free _ ptr => Function.update ledger ptr none
  | .store .. | .load .. => ledger

end FreeGuard.Model
