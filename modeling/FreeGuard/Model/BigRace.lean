import FreeGuard.Model.BigRun

/-! # Concurrent calls of the big heap

Threads in `allocateAtBigHeap` and `deallocateToBigHeap`, one atomic step of one thread after the other.
An allocation obtains its status object and its mapping, inserts its entry under the global lock, and
fills the status object. A deallocation looks the pointer up, erases the entry under the global lock,
unmaps, and returns the status object. A lookup that finds nothing ends the process and has no
successor. The record counts the insertions and the deallocations past the check, by pointer.
-/

namespace FreeGuard.Model

open Machine

/-- How far a thread is in a call. -/
inductive BigCall where
  | idle
  | reserved (objStatus start : ℕ) (size : size_t)
  | inserted (objStatus start : ℕ) (size : size_t)
  | found (ptr objStatus : ℕ)
  | erased (ptr objStatus : ℕ)
  | unmapped (objStatus : ℕ)
deriving DecidableEq, Repr

structure BigRace where
  big : BigHeap
  mapped : Mapped
  calls : ℕ → BigCall
  /-- The pointers inserted, once for each insertion. -/
  inserted : List ℕ
  /-- The pointers found by a deallocation, once for each. -/
  passed : List ℕ
  maps : List Region
  unmaps : List Region

/-- `objStartPtr`. -/
def objStartPtr (start : ℕ) (size : size_t) : ℕ := start + (BigHeap.pageUpSize size - size).toNat

inductive RaceEvent where
  | reserve (thread : ℕ) (size : size_t) (objStatus start : ℕ)
  | insert (thread entry : ℕ)
  | fill (thread : ℕ)
  | lookup (thread ptr : ℕ)
  | erase (thread : ℕ)
  | munmap (thread : ℕ)
  | release (thread : ℕ)
deriving DecidableEq, Repr

/-- One step of one thread. -/
inductive RaceStep (build : Build) : BigRace → RaceEvent → BigRace → Prop
  | reserve (s : BigRace) {thread objStatus start : ℕ} {size : size_t} :
      s.calls thread = .idle → build.IF_CANARY_CONDITION size = true →
      objStatus ∉ s.big.statuses → MmapResult s.mapped (BigHeap.pageUpSize size).toNat start →
      RaceStep build s (.reserve thread size objStatus start) { s with
        big := { s.big with statuses := objStatus :: s.big.statuses }
        mapped := s.mapped.map start (BigHeap.pageUpSize size).toNat
        calls := Function.update s.calls thread (.reserved objStatus start size)
        maps := ⟨start, (BigHeap.pageUpSize size).toNat⟩ :: s.maps }
  | insert (s : BigRace) {thread entry objStatus start : ℕ} {size : size_t} :
      s.calls thread = .reserved objStatus start size → entry ∉ s.big._xmap.blocks →
      RaceStep build s (.insert thread entry) { s with
        big := { s.big with
          _xmap := s.big._xmap.insert entry (objStartPtr start size) sizeofPointer objStatus }
        calls := Function.update s.calls thread (.inserted objStatus start size)
        inserted := objStartPtr start size :: s.inserted }
  | fill (s : BigRace) {thread objStatus start : ℕ} {size : size_t} :
      s.calls thread = .inserted objStatus start size →
      RaceStep build s (.fill thread) { s with
        big := { s.big with
          status := Function.update s.big.status objStatus ⟨start, size, BigHeap.pageUpSize size⟩ }
        calls := Function.update s.calls thread .idle }
  | lookup (s : BigRace) {thread ptr objStatus : ℕ} :
      s.calls thread = .idle → s.big._xmap.find ptr sizeofPointer = some objStatus →
      RaceStep build s (.lookup thread ptr) { s with
        calls := Function.update s.calls thread (.found ptr objStatus)
        passed := ptr :: s.passed }
  | erase (s : BigRace) {thread ptr objStatus : ℕ} :
      s.calls thread = .found ptr objStatus →
      RaceStep build s (.erase thread) { s with
        big := { s.big with _xmap := (s.big._xmap.erase ptr sizeofPointer).2 }
        calls := Function.update s.calls thread (.erased ptr objStatus) }
  | munmap (s : BigRace) {thread ptr objStatus : ℕ} :
      s.calls thread = .erased ptr objStatus →
      RaceStep build s (.munmap thread) { s with
        mapped := s.mapped.unmap (s.big.status objStatus).start
          (s.big.status objStatus).pageUpSize.toNat
        calls := Function.update s.calls thread (.unmapped objStatus)
        unmaps := (s.big.status objStatus).region :: s.unmaps }
  | release (s : BigRace) {thread objStatus : ℕ} :
      s.calls thread = .unmapped objStatus →
      RaceStep build s (.release thread) { s with
        big := { s.big with statuses := s.big.statuses.filter (· ≠ objStatus) }
        calls := Function.update s.calls thread .idle }

/-- No thread is in a call, over memory and mappings of any contents. -/
def BigRace.initial (links : LinkedPath.Links ListRef) (count : ℕ → size_t)
    (entryAt : ListRef → Entry ℕ ℕ) (status : ℕ → BigObjectStatus) (mapped : Mapped) : BigRace :=
  ⟨.initBigHeap links count entryAt status, mapped, fun _ => .idle, [], [], [], []⟩

end FreeGuard.Model
