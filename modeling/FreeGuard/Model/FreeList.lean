import FreeGuard.Model.Defines
import Mathlib.Logic.Function.Basic

/-! # Intrusive free lists

`slist.h` and `dlist.h`. A node is an address and its `next` word lives in the memory `next`; a list
is its head record. The walks of `getTailSLL` and `insertAllDLLTail` take the number of nodes they
may visit as fuel, and `none` stands for a walk that is still going when the fuel is used up or for
a write through a null pointer. `FreeList` is `FREELIST_TYPE`, and the functions on it are the
`FREELIST_` macros.
-/

namespace FreeGuard.Model

/-- The `next` word of every node. -/
abbrev LinkWords := ℕ → ℕ

/-- `slist_t` as a list head. -/
structure SList where
  next : ℕ
deriving DecidableEq, Repr

/-- `dlist_t`: a list head with a pointer to its last node. -/
structure DList where
  next : ℕ
  prev : ℕ
deriving DecidableEq, Repr

/-! ## slist.h -/

def initSLL : SList := ⟨NULL⟩

def isSLLEmpty (slist : SList) : Bool := slist.next == NULL

/-- `node->next = slist->next; slist->next = node`. -/
def insertSLLHead (links : LinkWords) (node : ℕ) (slist : SList) : LinkWords × SList :=
  (Function.update links node slist.next, ⟨node⟩)

def removeSLLHead (links : LinkWords) (slist : SList) : ℕ × SList :=
  (slist.next, ⟨links slist.next⟩)

/-- The loop of `getTailSLL`: advance while the current node has a successor. -/
def tailFrom (links : LinkWords) : ℕ → ℕ → Option ℕ
  | 0, _ => none
  | fuel + 1, current =>
    if links current ≠ NULL then tailFrom links fuel (links current) else some current

def getTailSLL (fuel : ℕ) (links : LinkWords) (slist : ℕ) : Option ℕ :=
  if slist = NULL then some NULL else tailFrom links fuel slist

/-- The source list goes in front; `tail->next = tmp` faults when the source is empty. -/
def insertAllSLLHead (fuel : ℕ) (links : LinkWords) (node slist : SList) : Option (LinkWords × SList) := do
  let tmp := slist.next
  let tail ← getTailSLL fuel links node.next
  if tail = NULL then none else some (Function.update links tail tmp, ⟨node.next⟩)

/-! ## dlist.h -/

def initDLL : DList := ⟨NULL, NULL⟩

def isDLLEmpty (dlist : DList) : Bool := dlist.next == NULL

def insertDLLTail (links : LinkWords) (node : ℕ) (dlist : DList) : LinkWords × DList :=
  let oldTail := dlist.prev
  let links := Function.update links node NULL
  if oldTail ≠ NULL then (Function.update links oldTail node, ⟨dlist.next, node⟩)
  else (links, ⟨node, node⟩)

def removeDLLHead (links : LinkWords) (dlist : DList) : ℕ × DList :=
  let oldHead := dlist.next
  let replacement := links oldHead
  (oldHead, ⟨replacement, if replacement = NULL then NULL else dlist.prev⟩)

/-- The loop of `insertAllDLLTail`: turn the links of the first segment around onto the second. -/
def reverseOnto : ℕ → LinkWords → ℕ → ℕ → Option (LinkWords × ℕ)
  | 0, _, _, _ => none
  | fuel + 1, links, segment1, segment2 =>
    let next := links segment1
    let links := Function.update links segment1 segment2
    if next ≠ NULL then reverseOnto fuel links next segment1 else some (links, segment1)

def insertAllDLLTail (fuel : ℕ) (links : LinkWords) (slist : SList) (dlist : DList) :
    Option (LinkWords × DList) :=
  let segment1 := slist.next
  let oldTail := dlist.prev
  if segment1 = NULL then some (links, dlist)
  else do
    let (links, segment2) ← reverseOnto fuel links segment1 NULL
    if oldTail ≠ NULL then some (Function.update links oldTail segment2, ⟨dlist.next, segment1⟩)
    else some (links, ⟨segment2, segment1⟩)

/-! ## The `FREELIST_` macros -/

/-- `FREELIST_TYPE`. -/
inductive FreeList where
  | sll (slist : SList)
  | dll (dlist : DList)
deriving DecidableEq, Repr

def FREELIST_INIT (build : Build) : FreeList :=
  if build.fifo then .dll initDLL else .sll initSLL

def IS_FREELIST_EMPTY : FreeList → Bool
  | .sll slist => isSLLEmpty slist
  | .dll dlist => isDLLEmpty dlist

def FREELIST_INSERT (links : LinkWords) (node : ℕ) : FreeList → LinkWords × FreeList
  | .sll slist => let (links, slist) := insertSLLHead links node slist; (links, .sll slist)
  | .dll dlist => let (links, dlist) := insertDLLTail links node dlist; (links, .dll dlist)

def FREELIST_REMOVE (links : LinkWords) : FreeList → ℕ × FreeList
  | .sll slist => let (node, slist) := removeSLLHead links slist; (node, .sll slist)
  | .dll dlist => let (node, dlist) := removeDLLHead links dlist; (node, .dll dlist)

def FREELIST_MERGE (fuel : ℕ) (links : LinkWords) (source : SList) :
    FreeList → Option (LinkWords × FreeList)
  | .sll slist => (insertAllSLLHead fuel links source slist).map fun (links, slist) => (links, .sll slist)
  | .dll dlist => (insertAllDLLTail fuel links source dlist).map fun (links, dlist) => (links, .dll dlist)

end FreeGuard.Model
