import FreeGuard.Model.BigHeap

/-! # Runs of the big heap

The calls of `allocateAtBigHeap`, `deallocateToBigHeap`, `isLargeObject` and `getObjectSize` one after
the other. An allocation meets the function's assertion. The system records the live pointers with the
sizes requested, and every region that was mapped and that was unmapped, the latest first. A call that
ends the process has no successor.
-/

namespace FreeGuard.Model

open Machine

/-- The big heap, the mappings, and what has happened to them. -/
structure BigSystem where
  big : BigHeap
  mapped : Mapped
  live : List (ℕ × size_t)
  maps : List Region
  unmaps : List Region

inductive BigEvent where
  | allocate (size : size_t) (supply : Supply)
  | deallocate (ptr : ℕ)
  | isLargeObject (addr : ℕ)
  | getObjectSize (addr : ℕ)
deriving DecidableEq, Repr

/-- The region that a status object describes. -/
def BigObjectStatus.region (status : BigObjectStatus) : Region :=
  ⟨status.start, status.pageUpSize.toNat⟩

/-- One call. -/
inductive BigStep (build : Build) : BigSystem → BigEvent → BigSystem → Prop
  | allocate (system : BigSystem) {size : size_t} {supply : Supply} {start ptr : ℕ} {big : BigHeap}
      {mapped : Mapped} :
      build.IF_CANARY_CONDITION size = true → supply.objStatus ∉ system.big.statuses →
      supply.entry ∉ system.big._xmap.blocks → supply.mmap = some start →
      MmapResult system.mapped (BigHeap.pageUpSize size).toNat start →
      system.big.allocateAtBigHeap size supply system.mapped = .ok (ptr, big, mapped) →
      BigStep build system (.allocate size supply)
        ⟨big, mapped, (ptr, size) :: system.live,
          ⟨start, (BigHeap.pageUpSize size).toNat⟩ :: system.maps, system.unmaps⟩
  | deallocate (system : BigSystem) {ptr objStatus : ℕ} {big : BigHeap} {mapped : Mapped} :
      system.big._xmap.find ptr sizeofPointer = some objStatus →
      system.big.deallocateToBigHeap ptr system.mapped = .ok (big, mapped) →
      BigStep build system (.deallocate ptr)
        ⟨big, mapped, system.live.filter fun entry => entry.1 ≠ ptr, system.maps,
          (system.big.status objStatus).region :: system.unmaps⟩
  | isLargeObject (system : BigSystem) {addr : ℕ} : BigStep build system (.isLargeObject addr) system
  | getObjectSize (system : BigSystem) {addr : ℕ} : BigStep build system (.getObjectSize addr) system

/-- The big heap after `initBigHeap`, over memory and mappings of any contents. -/
def BigSystem.initial (links : LinkedPath.Links ListRef) (count : ℕ → size_t)
    (entryAt : ListRef → Entry ℕ ℕ) (status : ℕ → BigObjectStatus) (mapped : Mapped) : BigSystem :=
  ⟨.initBigHeap links count entryAt status, mapped, [], [], []⟩

end FreeGuard.Model
