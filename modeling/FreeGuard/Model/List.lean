import FreeGuard.ToMathlib.LinkedPath
import FreeGuard.ToMathlib.Ring

/-! # Circular intrusive lists

Functions of `list.hh`, as updates of the `prev` and `next` fields of list nodes. Every C assignment
is one field update, in the order of the source.
-/

namespace FreeGuard.Model

open LinkedPath (Links)

variable {α : Type*} [DecidableEq α]

/-- `node->next = value`. -/
def setNext (list : Links α) (node value : α) : Links α :=
  { list with next := Function.update list.next node value }

/-- `node->prev = value`. -/
def setPrev (list : Links α) (node value : α) : Links α :=
  { list with prev := Function.update list.prev node value }

/-- `node->next = node->prev = node`. -/
def nodeInit (list : Links α) (node : α) : Links α :=
  setNext (setPrev list node node) node node

def listInit (list : Links α) (node : α) : Links α := nodeInit list node

/-- The list has no item besides its head. -/
def isListEmpty (list : Links α) (head : α) : Bool := list.next head == head

theorem isListEmpty_iff {list : Links α} {head : α} {items : List α}
    (ring : LinkedPath.IsRing list head items) : isListEmpty list head = true ↔ items = [] := by
  have first := ring.next_head
  cases items with
  | nil => exact iff_of_true (beq_iff_eq.mpr first) rfl
  | cons item rest =>
    apply iff_of_false _ (List.cons_ne_nil _ _)
    intro empty
    have home : list.next head = head := eq_of_beq empty
    exact ring.head_not_mem (home ▸ first.1 ▸ List.mem_cons_self ..)

/-- `__insert_between`. -/
def insertBetween (list : Links α) (node prev next : α) : Links α :=
  let list := setNext list node next
  let list := setPrev list node prev
  let list := setNext list prev node
  setPrev list next node

def listInsertTail (list : Links α) (node head : α) : Links α :=
  insertBetween list node (list.prev head) head

/-- `__list_link`. -/
def listLink (list : Links α) (p n : α) : Links α :=
  setPrev (setNext list p n) n p

/-- The second link reads the fields that the first one has just written. -/
def listInsertList (links : Links α) (list place : α) : Links α :=
  let links := listLink links place list
  listLink links (links.prev list) (links.next place)

def listRemoveNode (list : Links α) (node : α) : Links α :=
  nodeInit (listLink list (list.prev node) (list.next node)) node

/-- The node is the last one of the list with this head. -/
def isListTail (list : Links α) (node head : α) : Bool := list.next node == head

/-- Hang the items of `src` under `dest`, then make `src` an empty list. -/
def listRetrieveAllItems (list : Links α) (dest src : α) : Links α :=
  let first := list.next src
  let last := list.prev src
  let list := setPrev list first dest
  let list := setNext list last dest
  let list := setNext list dest first
  let list := setPrev list dest last
  listInit list src

end FreeGuard.Model
