import FreeGuard.Model.HashMap

/-! # Threads and their heap rows

`xthread.hh`. A thread is created with an index, which selects its row of the small heap, its stack
and its `thread_t`. The functions of the class that hold the global lock, and the writes of
`thread_create` between its two locked parts, are the atomic steps of `ThreadStep`; any number of
calls take them in any order. `Creation` records how far a call and the thread it made have come.
-/

namespace FreeGuard.Model

open Machine
open LinkedPath (Links)

/-- The fields of `thread_t` that the index bookkeeping uses. -/
structure thread_t where
  available : Bool
  pthreadt : ℕ
  index : ℤ
deriving DecidableEq, Repr

structure xthread where
  _threadIndex : ℤ
  _xmap : HashMap ℕ ℤ
  _aliveThreads : ℤ
  /-- The array `_threads`, and behind its end the memory that an index out of range would reach. -/
  _threads : ℤ → thread_t

namespace xthread

/-- The slot search of `allocThreadIndex`: the first available index up to `_threadIndex`. -/
def firstAvailable (threads : xthread) : Option ℕ :=
  (List.range (threads._threadIndex + 1).toNat).find? fun i => (threads._threads i).available

def allocThreadIndex (threads : xthread) : ℤ × xthread :=
  let taken (index : ℤ) := Function.update threads._threads index
    { threads._threads index with available := false }
  let alive := threads._aliveThreads + 1
  if threads._aliveThreads = threads._threadIndex then
    let index := threads._threadIndex
    (index, { threads with
      _threadIndex := index + 1, _aliveThreads := alive, _threads := taken index })
  else
    match threads.firstAvailable with
    | some index => (index, { threads with _aliveThreads := alive, _threads := taken index })
    | none => (-1, { threads with _aliveThreads := alive })

/-- `children->index = tindex`. -/
def setIndex (threads : xthread) (tindex : ℤ) : xthread :=
  { threads with
    _threads := Function.update threads._threads tindex
      { threads._threads tindex with index := tindex } }

/-- `children->pthreadt = *tid`. -/
def setPthread (threads : xthread) (tindex : ℤ) (tid : ℕ) : xthread :=
  { threads with
    _threads := Function.update threads._threads tindex
      { threads._threads tindex with pthreadt := tid } }

/-- The last locked part of `thread_create`. -/
def bind (threads : xthread) (block tid : ℕ) (tindex : ℤ) : xthread :=
  { threads with _xmap := (threads._xmap.insertIfAbsent block tid sizeofPointer tindex).2 }

/-- The locked part of `thread_join`. -/
def release (threads : xthread) (tid : ℕ) : xthread :=
  let released := match threads._xmap.find tid sizeofPointer with
    | none => threads._threads
    | some joinee => Function.update threads._threads joinee
        { threads._threads joinee with available := true }
  { threads with _threads := released, _aliveThreads := threads._aliveThreads - 1 }

/-- A call of `thread_create` with no other call in between. `pthreadOf` is the `pthread_t` of the thread
that `Real::pthread_create` starts on the stack of an index; if it starts none, the program ends. -/
def thread_create (threads : xthread) (pthreadOf : ℤ → ℕ) (block : ℕ) : ℤ × xthread :=
  let (tindex, threads) := threads.allocThreadIndex
  let threads := threads.setIndex tindex
  let tid := pthreadOf tindex
  let threads := threads.setPthread tindex tid
  (tindex, threads.bind block tid tindex)

/-- A call of `thread_join`, given what `Real::pthread_join` returns. -/
def thread_join (threads : xthread) (tid : ℕ) (joinretval : ℤ) : xthread :=
  if joinretval = 0 then threads.release tid else threads

/-- The loop body of `initialize`. -/
def initThread (i : ℕ) (threads : ℤ → thread_t) : ℤ → thread_t :=
  Function.update threads i ⟨true, 0, i⟩

/-- `initialize`, called by the initial thread `self`: every slot is available, the initial thread
takes one, and the map binds it to index 0. -/
def initializeThreads (self block : ℕ) (memory : ℤ → thread_t) (links : Links ListRef)
    (count : ℕ → size_t) (entryAt : ListRef → Entry ℕ ℤ) : xthread :=
  let map := HashMap.initializeMap addrFuncs (BitVec.ofNat 64 THREAD_MAP_SIZE) links count entryAt
  let threads : xthread := ⟨0, map, 0, forRange MAX_ALIVE_THREADS initThread memory⟩
  let (tindex, threads) := threads.allocThreadIndex
  let threads := threads.setPthread tindex self
  { threads with _xmap := threads._xmap.insert block self sizeofPointer 0 }

end xthread

/-! ## The system of calls and threads -/

/-- A `thread_create` call past its first locked part, and the thread it creates. -/
structure Creation where
  index : ℤ
  /-- The `pthread_t` that `Real::pthread_create` returned. -/
  tid : Option ℕ
  /-- The call has run its last locked part. -/
  bound : Bool
  /-- The start routine has returned. -/
  finished : Bool
  detached : Bool
  /-- `Real::pthread_join` has succeeded on the thread. -/
  joined : Bool
  /-- That `thread_join` call has run its locked part. -/
  released : Bool
deriving DecidableEq, Repr

namespace Creation

/-- The call has taken its index. -/
def start (index : ℤ) : Creation := ⟨index, none, false, false, false, false, false⟩

/-- The thread has been created and not yet joined. -/
def Unjoined (creation : Creation) : Prop := creation.tid.isSome ∧ creation.joined = false

/-- The thread has ended and nobody can name it any more. -/
def Gone (creation : Creation) : Prop :=
  creation.joined ∨ creation.finished ∧ creation.detached

/-- From its creation until its start routine has returned and it has been joined or was detached. -/
def Alive (creation : Creation) : Prop :=
  creation.tid.isSome ∧ ¬ (creation.finished ∧ (creation.joined ∨ creation.detached))

instance : DecidablePred Unjoined := fun _ => inferInstanceAs (Decidable (_ ∧ _))
instance : DecidablePred Gone := fun _ => inferInstanceAs (Decidable (_ ∨ _))
instance : DecidablePred Alive := fun _ => inferInstanceAs (Decidable (_ ∧ _))

end Creation

/-- The shared structure and every call so far, the initial thread first. -/
structure ThreadSystem where
  shared : xthread
  creations : List Creation
  /-- The arguments of every insertion into `_xmap` so far, in order. -/
  bindings : List (ℕ × ℤ)

/-- An atomic step of the call or thread at a position of `creations`. -/
inductive ThreadEvent where
  | alloc
  | spawn (call tid : ℕ)
  | bind (call block : ℕ)
  | finish (call : ℕ)
  | detach (call : ℕ)
  | join (call : ℕ)
  | release (call : ℕ)
deriving DecidableEq, Repr

namespace ThreadSystem

def start (shared : xthread) (self : ℕ) : ThreadSystem :=
  ⟨shared, [{ Creation.start 0 with tid := some self, bound := true }], [(self, 0)]⟩

/-- The threads created whose end has not been seen. -/
def aliveCount (system : ThreadSystem) : ℕ := system.creations.countP fun c => c.Alive

/-- The calls that took an index which no `thread_join` has given back. -/
def heldCount (system : ThreadSystem) : ℕ := system.creations.countP fun c => !c.released

/-- Replace the record of one call. -/
def record (system : ThreadSystem) (call : ℕ) (creation : Creation) : ThreadSystem :=
  { system with creations := system.creations.set call creation }

end ThreadSystem

open ThreadSystem in
/-- The steps of `thread_create` (`alloc`, `spawn`, `bind`) and `thread_join` (`join`, `release`), and
the end and the detaching of a thread, which the library does not see. A new `pthread_t` differs from
that of every thread that can still be named. -/
inductive ThreadStep : ThreadSystem → ThreadEvent → ThreadSystem → Prop
  | alloc (system : ThreadSystem) {tindex : ℤ} {shared : xthread} :
      system.shared.allocThreadIndex = (tindex, shared) →
      ThreadStep system .alloc { system with
        shared := shared.setIndex tindex
        creations := system.creations ++ [Creation.start tindex] }
  | spawn (system : ThreadSystem) {call tid : ℕ} {creation : Creation} :
      system.creations[call]? = some creation → creation.tid = none →
      (∀ other ∈ system.creations, other.tid = some tid → other.Gone) →
      ThreadStep system (.spawn call tid) (record
        { system with shared := system.shared.setPthread creation.index tid }
        call { creation with tid := some tid })
  | bind (system : ThreadSystem) {call block tid : ℕ} {creation : Creation} :
      system.creations[call]? = some creation → creation.tid = some tid → creation.bound = false →
      block ∉ system.shared._xmap.blocks →
      ThreadStep system (.bind call block) (record
        { system with
          shared := system.shared.bind block tid creation.index
          bindings := system.bindings ++ [(tid, creation.index)] }
        call { creation with bound := true })
  | finish (system : ThreadSystem) {call : ℕ} {creation : Creation} :
      system.creations[call]? = some creation → creation.tid.isSome → creation.finished = false →
      ThreadStep system (.finish call) (system.record call { creation with finished := true })
  | detach (system : ThreadSystem) {call : ℕ} {creation : Creation} :
      system.creations[call]? = some creation → creation.tid.isSome → creation.joined = false →
      creation.detached = false →
      ThreadStep system (.detach call) (system.record call { creation with detached := true })
  | join (system : ThreadSystem) {call : ℕ} {creation : Creation} :
      system.creations[call]? = some creation → creation.finished = true → creation.joined = false →
      creation.detached = false →
      ThreadStep system (.join call) (system.record call { creation with joined := true })
  | release (system : ThreadSystem) {call tid : ℕ} {creation : Creation} :
      system.creations[call]? = some creation → creation.tid = some tid → creation.joined = true →
      creation.released = false →
      ThreadStep system (.release call) (record
        { system with shared := system.shared.release tid }
        call { creation with released := true })

/-- The state after an event, if the event is possible. -/
def ThreadSystem.exec (system : ThreadSystem) : ThreadEvent → Option ThreadSystem
  | .alloc =>
    let (tindex, shared) := system.shared.allocThreadIndex
    some { system with
      shared := shared.setIndex tindex
      creations := system.creations ++ [Creation.start tindex] }
  | .spawn call tid => do
    let creation ← system.creations[call]?
    if creation.tid = none ∧ ∀ other ∈ system.creations, other.tid = some tid → other.Gone then
      some (record { system with shared := system.shared.setPthread creation.index tid }
        call { creation with tid := some tid })
    else none
  | .bind call block => do
    let creation ← system.creations[call]?
    let tid ← creation.tid
    if creation.bound = false ∧ block ∉ system.shared._xmap.blocks then
      some (record
        { system with
          shared := system.shared.bind block tid creation.index
          bindings := system.bindings ++ [(tid, creation.index)] }
        call { creation with bound := true })
    else none
  | .finish call => do
    let creation ← system.creations[call]?
    if creation.tid.isSome ∧ creation.finished = false then
      some (system.record call { creation with finished := true })
    else none
  | .detach call => do
    let creation ← system.creations[call]?
    if creation.tid.isSome ∧ creation.joined = false ∧ creation.detached = false then
      some (system.record call { creation with detached := true })
    else none
  | .join call => do
    let creation ← system.creations[call]?
    if creation.finished = true ∧ creation.joined = false ∧ creation.detached = false then
      some (system.record call { creation with joined := true })
    else none
  | .release call => do
    let creation ← system.creations[call]?
    let tid ← creation.tid
    if creation.joined = true ∧ creation.released = false then
      some (record { system with shared := system.shared.release tid }
        call { creation with released := true })
    else none

theorem ThreadSystem.exec_sound (system : ThreadSystem) (event : ThreadEvent) (next : ThreadSystem)
    (computed : system.exec event = some next) : ThreadStep system event next := by
  cases event <;> simp only [exec, Option.bind_eq_bind, Option.bind_eq_some_iff,
    Option.ite_none_right_eq_some, Option.some.injEq] at computed
  case alloc =>
    subst computed
    exact .alloc system rfl
  case spawn =>
    obtain ⟨creation, found, ⟨unnamed, unused⟩, rfl⟩ := computed
    exact .spawn system found unnamed unused
  case bind =>
    obtain ⟨creation, found, tid, named, ⟨unbound, fresh⟩, rfl⟩ := computed
    exact .bind system found named unbound fresh
  case finish =>
    obtain ⟨creation, found, ⟨created, running⟩, rfl⟩ := computed
    exact .finish system found created running
  case detach =>
    obtain ⟨creation, found, ⟨created, unjoined, attached⟩, rfl⟩ := computed
    exact .detach system found created unjoined attached
  case join =>
    obtain ⟨creation, found, ⟨finished, unjoined, attached⟩, rfl⟩ := computed
    exact .join system found finished unjoined attached
  case release =>
    obtain ⟨creation, found, tid, named, ⟨joined, unreleased⟩, rfl⟩ := computed
    exact .release system found named joined unreleased

end FreeGuard.Model
