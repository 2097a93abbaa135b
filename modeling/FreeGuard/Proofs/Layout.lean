import FreeGuard.Model.BibopHeap
import FreeGuard.ToMathlib.Radix

/-! # Closed forms of the heap layout

A `Config` is a build, a power-of-two bag size that is not below `LARGE_OBJECT_THRESHOLD`, and the
two regions that `mmap` returned. The loops of `initialize` leave every usable bag of every thread
with fields that are explicit functions of the thread and the bag number, and every other bag zero.
-/

namespace FreeGuard.Model

open Machine

/-- What one initialization of the small heap depends on. -/
structure Config where
  build : Build
  /-- The base-two logarithm of `_bibopBagSize`. -/
  bagPower : ℕ
  heapBegin : ℕ
  shadowMemBegin : ℕ
  /-- "Bag size cannot be smaller than the large object threshold." -/
  large : build.LARGE_OBJECT_THRESHOLD ≤ 2 ^ bagPower
  /-- The items of a bag start in different heaps. -/
  bagSet : build.BIBOP_BAG_SET_SIZE ≤ BIBOP_NUM_HEAPS
  heapBegin_aligned : PageSize ∣ heapBegin
  heapBegin_pos : 0 < heapBegin
  shadowMemBegin_aligned : PageSize ∣ shadowMemBegin
  shadowMemBegin_pos : 0 < shadowMemBegin

/-- The class size of a bag number. -/
def classSize (b : ℕ) : ℕ := 2 ^ (b + 4)

theorem classSize_pos (b : ℕ) : 0 < classSize b := Nat.two_pow_pos _

namespace Config

variable (c : Config) {t b : ℕ}

def bagSize : ℕ := 2 ^ c.bagPower

def numBags : ℕ := c.build.BIBOP_NUM_BAGS

/-- `BIBOP_SUBHEAP_SIZE`. -/
def threadSize : ℕ := c.numBags * c.bagSize

/-- `BIBOP_HEAP_SIZE`. -/
def heapSize : ℕ := MAX_ALIVE_THREADS * c.numBags * c.bagSize

/-- `_numUsableBags`. -/
def usable : ℕ := if c.build.manyBags then 19 else 16

/-- The objects of a bag that make room for its guard. -/
def reserved (b : ℕ) : ℕ := if c.build.guardPage ∧ b + 4 < c.bagPower then 2 ^ (8 - b) else 0

def numObjects (b : ℕ) : ℕ := 2 ^ (c.bagPower - (b + 4)) - c.reserved b

/-- The objects of a thread in the bags before `b`. -/
def objectsBefore : ℕ → ℕ
  | 0 => 0
  | b + 1 => objectsBefore b + c.numObjects b

def objectsPerThread : ℕ := c.objectsBefore c.usable

/-- `_shadowObjectInfoSizeShiftBits`. -/
def infoPower : ℕ := if c.build.detect then 5 else 3

/-- `_shadowObjectInfoSize`. -/
def infoSize : ℕ := 2 ^ c.infoPower

/-- `_shadowMemSizePerHeapCeilShiftBits`. -/
def ceilPower : ℕ := Nat.size (MAX_ALIVE_THREADS * c.objectsPerThread * c.infoSize - 1)

/-- `BIBOP_BAG_SET_SIZE`. -/
def items : ℕ := c.build.BIBOP_BAG_SET_SIZE

def guardoffset (b : ℕ) : ℕ := c.reserved b * classSize b

def guardsize (b : ℕ) : ℕ :=
  if c.build.guardPage then
    if b + 1 = c.usable then c.guardoffset b + (c.numBags - c.usable) * c.bagSize
    else c.guardoffset b
  else 0

def startOffset (t b : ℕ) : ℕ := t * c.threadSize + b * c.bagSize

/-- A usable bag before its last field is set. -/
def bagStart (t b : ℕ) : PerThreadBag where
  numObjects := c.numObjects b
  lastObjectIndex := c.numObjects b - 1
  bagNum := b
  threadIndex := t
  classMask := classSize b - 1
  classSize := classSize b
  shiftBits := b + 4
  startOffset := c.startOffset t b
  startShadowMemOffset := (t * c.objectsPerThread + c.objectsBefore b) * c.infoSize
  nextHeapObjectOffset := c.heapSize * (c.items - 1) +
    (c.heapSize - c.bagSize + classSize b + c.guardoffset b)
  nextShadowHeapObjectOffset := 0
  cflthreshold := c.numObjects b / CACHEDFREELIST_THRESHOLD_RATIO_BYBAG
  guardsize := c.guardsize b
  guardoffset := c.guardoffset b

/-- A usable bag. -/
def bag (t b : ℕ) : PerThreadBag :=
  { c.bagStart t b with
    nextShadowHeapObjectOffset := 2 ^ c.ceilPower * c.items - (c.numObjects b - 1) * c.infoSize }

/-- The small heap that `initialize` builds. -/
def heap : BibopHeap :=
  (BibopHeap.initializeHeap c.build c.bagSize c.heapBegin c.shadowMemBegin).1

/-- Its state before the first allocation. -/
def start : HeapState :=
  (BibopHeap.initializeHeap c.build c.bagSize c.heapBegin c.shadowMemBegin).2

/-! ## Sizes -/

theorem numBags_eq : c.numBags = if c.build.manyBags then 32 else 16 := rfl

theorem usable_le_numBags : c.usable ≤ c.numBags := by
  rw [usable, numBags_eq]
  split <;> decide

theorem usable_pos : 0 < c.usable := by
  rw [usable]
  split <;> decide

theorem usable_ge : 16 ≤ c.usable := by
  rw [usable]
  split <;> decide

theorem usable_le (c : Config) : c.usable ≤ 19 := by
  rw [usable]
  split <;> decide

theorem threshold_eq : c.build.LARGE_OBJECT_THRESHOLD = 2 ^ (c.usable + 3) := by
  rw [Build.LARGE_OBJECT_THRESHOLD, usable]
  split <;> decide

theorem usable_le_bagPower : c.usable + 3 ≤ c.bagPower := by
  have large := c.large
  rw [threshold_eq] at large
  exact (Nat.pow_le_pow_iff_right (by decide)).mp large

theorem bagSize_pos : 0 < c.bagSize := Nat.two_pow_pos _

theorem page_dvd_bagSize : PageSize ∣ c.bagSize := by
  have fits := c.usable_le_bagPower
  have many := c.usable_ge
  exact Nat.pow_dvd_pow 2 (by omega : 12 ≤ c.bagPower)

theorem numBags_pos : 0 < c.numBags := Nat.lt_of_lt_of_le c.usable_pos c.usable_le_numBags

theorem infoSize_pos : 0 < c.infoSize := Nat.two_pow_pos _

variable {c}

theorem power_le (usable : b < c.usable) : b + 4 ≤ c.bagPower := by
  have := c.usable_le_bagPower
  omega

/-- A bag is its class size times a power of two. -/
theorem slots_mul_classSize (usable : b < c.usable) :
    2 ^ (c.bagPower - (b + 4)) * classSize b = c.bagSize := by
  rw [classSize, bagSize, ← Nat.pow_add, Nat.sub_add_cancel (power_le usable)]

/-- A block that starts in a bag ends in it. -/
theorem block_fits (usable : b < c.usable) {i : ℕ} (small : i * classSize b < c.bagSize) :
    i * classSize b + classSize b ≤ c.bagSize := by
  rw [← slots_mul_classSize usable] at small ⊢
  rw [← Nat.succ_mul]
  exact Nat.mul_le_mul_right _ (Nat.lt_of_mul_lt_mul_right small)

theorem reserved_lt (c : Config) (b : ℕ) : c.reserved b < 2 ^ (c.bagPower - (b + 4)) := by
  rw [reserved]
  split
  · rename_i guarded
    have fits := c.usable_le_bagPower
    have many := c.usable_ge
    exact Nat.pow_lt_pow_right (by decide) (by omega)
  · exact Nat.two_pow_pos _

theorem numObjects_pos (c : Config) (b : ℕ) : 0 < c.numObjects b :=
  Nat.sub_pos_of_lt (c.reserved_lt b)

/-- The objects of a bag and the room for its guard fill the bag. -/
theorem objects_add_guard (usable : b < c.usable) :
    c.numObjects b * classSize b + c.guardoffset b = c.bagSize := by
  rw [guardoffset, ← Nat.add_mul, numObjects, Nat.sub_add_cancel (c.reserved_lt b).le,
    slots_mul_classSize usable]

theorem guardoffset_le (usable : b < c.usable) : c.guardoffset b ≤ c.bagSize := by
  have := objects_add_guard usable
  omega

/-- The guard of a bag ends in its own thread's part of the heap. -/
theorem guard_fits (usable : b < c.usable) :
    b * c.bagSize + c.bagSize - c.guardoffset b + c.guardsize b ≤ c.threadSize := by
  have fits := guardoffset_le usable
  have bags := c.usable_le_numBags
  have next : (b + 1) * c.bagSize ≤ c.usable * c.bagSize := Nat.mul_le_mul_right _ usable
  have all : c.usable * c.bagSize + (c.numBags - c.usable) * c.bagSize = c.threadSize := by
    rw [← Nat.add_mul, Nat.add_sub_cancel' bags, threadSize]
  rw [Nat.add_mul, Nat.one_mul] at next
  rw [guardsize]
  split
  · split <;> omega
  · omega

/-! ## The loops of `initialize` -/

variable (c)

/-- The heap of the loops, before its bags and shadow sizes are set. -/
def parameters : BibopHeap :=
  BibopHeap.parameters c.build c.bagSize c.heapBegin c.shadowMemBegin

@[simp] theorem parameters_build : c.parameters.build = c.build := (rfl)

@[simp] theorem parameters_bagSize : c.parameters._bibopBagSize = c.bagSize := (rfl)

theorem lastUsableBagSize_eq :
    BibopHeap.lastUsableBagSize c.build c.bagSize = 2 ^ (c.usable + 3) := by
  rw [BibopHeap.lastUsableBagSize, threshold_eq, bagSize]
  split
  · rfl
  · rename_i small
    exact le_antisymm (by omega) (c.threshold_eq ▸ c.large)

theorem numUsableBags_eq : BibopHeap.numUsableBags c.build c.bagSize = c.usable := by
  have most := c.usable_le_numBags
  have some := c.usable_pos
  have bags : LOG2 (2 ^ (c.usable + 3)) - LOG2 BIBOP_MIN_BLOCK_SIZE + 1 = c.usable := by
    rw [LOG2, Nat.log2_two_pow, show LOG2 BIBOP_MIN_BLOCK_SIZE = 4 by decide]
    omega
  rw [BibopHeap.numUsableBags, lastUsableBagSize_eq, bags, if_neg (by rw [numBags] at most; omega)]

variable {c}

/-- The room that a guard takes, in bytes: a page, or one object of a larger class. -/
theorem reserved_mul_classSize (guarded : c.build.guardPage = true) (room : b + 4 < c.bagPower) :
    c.guardoffset b = if classSize b > PAGESIZE then classSize b else PAGESIZE := by
  have page : PAGESIZE = 2 ^ 12 := rfl
  rw [guardoffset, reserved, if_pos ⟨guarded, room⟩, classSize, ← Nat.pow_add, page]
  split
  · rename_i big
    have := (Nat.pow_lt_pow_iff_right (by decide)).mp big
    congr 1
    omega
  · rename_i small
    have := (Nat.pow_le_pow_iff_right (by decide)).mp (Nat.le_of_not_gt small)
    congr 1
    omega

theorem bagGuard_eq (usable : b < c.usable) :
    c.parameters.bagGuard b (classSize b) = (c.guardsize b, c.guardoffset b) := by
  have fits := c.usable_le_bagPower
  simp only [BibopHeap.bagGuard, parameters_build, parameters_bagSize]
  split
  · rename_i guarded
    have last : b = c.parameters._lastUsableBag ↔ b + 1 = c.usable := by
      change b = BibopHeap.numUsableBags c.build c.bagSize - 1 ↔ _
      rw [numUsableBags_eq]
      omega
    have spare : (c.build.BIBOP_NUM_BAGS + 2 ^ 32 - LOG2 (2 ^ (c.usable + 3)) +
        LOG2 BIBOP_MIN_BLOCK_SIZE - 1) % 2 ^ 32 = c.numBags - c.usable := by
      rw [LOG2, Nat.log2_two_pow, Config.usable, numBags, Build.BIBOP_NUM_BAGS]
      split <;> decide
    have whole : c.bagSize = 2 ^ (c.usable + 3) ↔ c.bagPower = c.usable + 3 :=
      Nat.pow_right_inj (by decide)
    simp only [last, lastUsableBagSize_eq, spare, whole, guardsize, guarded, if_true]
    rcases eq_or_ne (b + 1) c.usable with atEnd | atEnd
    · rw [if_pos atEnd, if_pos atEnd]
      split
      · have none : c.guardoffset b = 0 := by
          rw [guardoffset, reserved, if_neg (by omega), Nat.zero_mul]
        simp only [none, Nat.zero_add]
      · rw [reserved_mul_classSize guarded (by omega)]
    · rw [if_neg atEnd, if_neg atEnd, reserved_mul_classSize guarded (by omega)]
  · rename_i unguarded
    simp [guardsize, guardoffset, reserved, unguarded]

theorem bagObjects_eq (usable : b < c.usable) :
    c.parameters.bagObjects (classSize b) = c.numObjects b := by
  have bags : c.bagSize / classSize b = 2 ^ (c.bagPower - (b + 4)) := by
    rw [← slots_mul_classSize usable, Nat.mul_div_cancel _ (classSize_pos b)]
  have many : 2 ^ (c.bagPower - (b + 4)) > 1 ↔ b + 4 < c.bagPower := by
    rw [gt_iff_lt, Nat.one_lt_two_pow_iff]
    omega
  have small : classSize b < PageSize ↔ b < 8 := by
    rw [classSize, show PageSize = 2 ^ 12 from rfl, Nat.pow_lt_pow_iff_right (by decide)]
    omega
  simp only [BibopHeap.bagObjects, parameters_build, parameters_bagSize, bags, many, small]
  rw [numObjects, reserved]
  by_cases guarded : c.build.guardPage = true
  · by_cases room : b + 4 < c.bagPower
    · rw [if_pos guarded, if_pos room]
      by_cases page : b < 8
      · rw [if_pos page, if_pos (And.intro guarded room), classSize, show PageSize = 2 ^ 12 from rfl,
          Nat.pow_div (by omega) (by decide), show 12 - (b + 4) = 8 - b by omega]
      · rw [if_neg page, if_pos (And.intro guarded room), show 8 - b = 0 by omega, Nat.pow_zero]
    · rw [if_pos guarded, if_neg room, if_neg fun both => room both.2, Nat.sub_zero]
  · rw [if_neg guarded, if_neg fun both => guarded both.1, Nat.sub_zero]

variable (c)

/-- The address of a bag in a heap. -/
def bagBegin (h t b : ℕ) : ℕ := c.heapBegin + h * c.heapSize + c.startOffset t b

/-- The guard at the end of a bag in a heap. -/
def endGuard (h t b : ℕ) : Guard :=
  ⟨false, c.bagBegin h t b + c.bagSize - c.guardoffset b, c.guardsize b⟩

variable {c}

theorem subHeaps_eq : c.build.BIBOP_NUM_BAGS * c.bagSize * BIBOP_NUM_SUBHEAPS = c.heapSize := by
  change c.numBags * c.bagSize * MAX_ALIVE_THREADS = _
  rw [heapSize, Nat.mul_comm, Nat.mul_assoc]

@[simp] theorem parameters_heapSize : c.parameters.BIBOP_HEAP_SIZE = c.heapSize := c.subHeaps_eq

/-- The last object of a bag is one class size before its guard. -/
theorem lastOfBag_eq (usable : b < c.usable) (start : ℕ) :
    start + c.bagSize - c.guardoffset b - classSize b =
      start + (c.numObjects b - 1) * classSize b := by
  have fill := objects_add_guard usable
  have one := Nat.mul_le_mul_right (classSize b) (c.numObjects_pos b)
  rw [Nat.sub_mul]
  omega

/-- What setting up the items of one bag has done to the state. -/
structure ItemsSet (c : Config) (t b n : ℕ) (old new : HeapState) : Prop where
  position : ∀ i < n, new.position ((t, b), i) = c.bagBegin i t b
  last : ∀ i < n, new.lastofCurBag ((t, b), i) =
    c.bagBegin i t b + (c.numObjects b - 1) * classSize b
  otherPosition : ∀ r : ItemRef, r.1 ≠ (t, b) → new.position r = old.position r
  otherLast : ∀ r : ItemRef, r.1 ≠ (t, b) → new.lastofCurBag r = old.lastofCurBag r
  freelist : new.freelist = old.freelist
  cfreelist : new.cfreelist = old.cfreelist
  ncfree : new.ncfree = old.ncfree
  links : new.links = old.links
  mem : new.mem = old.mem
  guards : ∀ g ∈ new.guards, g ∈ old.guards ∨
    c.build.guardPage = true ∧ ∃ i < n, g = c.endGuard i t b

theorem itemsSet (usable : b < c.usable) (old : HeapState) :
    ItemsSet c t b c.items old (forRange c.items (c.parameters.initPosition (t, b)
      (c.startOffset t b) (classSize b) (c.guardsize b, c.guardoffset b)) old) := by
  refine forRange_invariant (fun n new => ItemsSet c t b n old new) ?_ ?_
  · exact ⟨fun i bound => absurd bound (Nat.not_lt_zero i),
      fun i bound => absurd bound (Nat.not_lt_zero i), fun _ _ => rfl, fun _ _ => rfl, rfl, rfl, rfl,
      rfl, rfl, fun g member => .inl member⟩
  · intro n bound new set
    have position : c.parameters._heapBegin + c.startOffset t b + n * c.parameters.BIBOP_HEAP_SIZE =
        c.bagBegin n t b := by
      rw [parameters_heapSize, bagBegin]
      change c.heapBegin + _ + _ = _
      omega
    have last : c.parameters.getLastOfBag (c.bagBegin n t b) (c.guardoffset b) (classSize b) =
        c.bagBegin n t b + (c.numObjects b - 1) * classSize b :=
      lastOfBag_eq usable _
    simp only [BibopHeap.initPosition, position, last, parameters_build]
    refine ⟨?_, ?_, ?_, ?_, set.freelist, set.cfreelist, set.ncfree, set.links, set.mem, ?_⟩ <;>
      dsimp only
    · intro i below
      rcases eq_or_ne i n with same | same
      · simp only [same, Function.update_self]
      · rw [Function.update_of_ne (fun equal => same (congrArg Prod.snd equal))]
        exact set.position i (by omega)
    · intro i below
      rcases eq_or_ne i n with same | same
      · simp only [same, Function.update_self]
      · rw [Function.update_of_ne (fun equal => same (congrArg Prod.snd equal))]
        exact set.last i (by omega)
    · intro r other
      rw [Function.update_of_ne fun same => other (congrArg Prod.fst same)]
      exact set.otherPosition r other
    · intro r other
      rw [Function.update_of_ne fun same => other (congrArg Prod.fst same)]
      exact set.otherLast r other
    · intro g member
      have carried : g ∈ new.guards → g ∈ old.guards ∨
          c.build.guardPage = true ∧ ∃ i < n + 1, g = c.endGuard i t b := fun inside =>
        (set.guards g inside).imp_right fun ⟨guarded, i, below, same⟩ =>
          ⟨guarded, i, Nat.lt_succ_of_lt below, same⟩
      split at member
      · rename_i guarded
        rw [BibopHeap.setGuardPage] at member
        split at member
        · exact carried member
        · rcases List.mem_append.mp member with before | fresh
          · exact carried before
          · exact .inr ⟨guarded, n, Nat.lt_succ_self n, List.mem_singleton.mp fresh⟩
      · exact carried member

/-- A bag that the loops have passed when they are at bag `j` of thread `t`. -/
def Visited (c : Config) (t j t' b' : ℕ) : Prop := t' < t ∧ b' < c.usable ∨ t' = t ∧ b' < j

/-- What the loops have done when they are at bag `j` of thread `t`. -/
structure Initialized (c : Config) (t j : ℕ) (s : BibopHeap.InitState) : Prop where
  numCumObjects : s.numCumObjects = t * c.objectsPerThread + c.objectsBefore j
  offsetShadowMem :
    s.offsetShadowMem = (t * c.objectsPerThread + c.objectsBefore j) * c.infoSize
  bag : ∀ t' b', c.Visited t j t' b' → s.threadBag (t', b') = c.bagStart t' b'
  unusable : ∀ t' b', c.usable ≤ b' → s.threadBag (t', b') = .zero
  position : ∀ t' b', c.Visited t j t' b' → ∀ i < c.items,
    s.state.position ((t', b'), i) = c.bagBegin i t' b'
  last : ∀ t' b', c.Visited t j t' b' → ∀ i < c.items,
    s.state.lastofCurBag ((t', b'), i) =
      c.bagBegin i t' b' + (c.numObjects b' - 1) * classSize b'
  freelist : s.state.freelist = fun _ => FREELIST_INIT c.build
  cfreelist : s.state.cfreelist = fun _ => initSLL
  ncfree : s.state.ncfree = fun _ => 0
  links : s.state.links = fun _ => NULL
  mem : s.state.mem = fun _ => 0
  guards : ∀ g ∈ s.state.guards, c.build.guardPage = true ∧
    ∃ t' b', c.Visited t j t' b' ∧ ∃ i < c.items, g = c.endGuard i t' b'

theorem Visited.succ {j t' b' : ℕ} (visited : c.Visited t j t' b') : c.Visited t (j + 1) t' b' :=
  visited.imp_right fun ⟨same, below⟩ => ⟨same, Nat.lt_succ_of_lt below⟩

theorem visited_succ_iff {j t' b' : ℕ} :
    c.Visited t (j + 1) t' b' ↔ c.Visited t j t' b' ∨ t' = t ∧ b' = j := by
  simp only [Visited, Nat.lt_succ_iff_lt_or_eq]
  tauto

theorem visited_self {j : ℕ} : ¬c.Visited t j t j := by
  simp [Visited]

theorem visited_thread_iff {t' b' : ℕ} :
    c.Visited t c.usable t' b' ↔ c.Visited (t + 1) 0 t' b' := by
  simp only [Visited, Nat.lt_succ_iff_lt_or_eq]
  constructor
  · rintro (⟨before, below⟩ | ⟨same, below⟩)
    · exact .inl ⟨.inl before, below⟩
    · exact .inl ⟨.inr same, below⟩
  · rintro (⟨before | same, below⟩ | ⟨-, none⟩)
    · exact .inl ⟨before, below⟩
    · exact .inr ⟨same, below⟩
    · exact absurd none (Nat.not_lt_zero _)

/-- Initializing empty lists again changes nothing. -/
theorem initFreelist_eq {bag : BagRef} {s : HeapState}
    (empty : s.freelist = fun _ => FREELIST_INIT c.build) :
    forRange c.items (c.parameters.initFreelist bag) s = s := by
  apply forRange_invariant (fun _ new => new = s) rfl
  rintro i - new rfl
  have same : Function.update new.freelist (bag, i) (FREELIST_INIT c.build) = new.freelist := by
    rw [empty]
    exact Function.update_eq_self (bag, i) fun _ => FREELIST_INIT c.build
  simp only [BibopHeap.initFreelist, parameters_build, same]

/-- The body of the bag loop. -/
theorem Initialized.initBag {s : BibopHeap.InitState} (usable : b < c.usable)
    (done : Initialized c t b s) (offset : s.offsetBag = c.startOffset t b)
    (size : s.classSize = Model.classSize b) (shift : s.shiftBits = b + 4) :
    Initialized c t (b + 1) (c.parameters.initBag t b s) ∧
      (c.parameters.initBag t b s).offsetBag = c.startOffset t (b + 1) ∧
      (c.parameters.initBag t b s).classSize = Model.classSize (b + 1) ∧
      (c.parameters.initBag t b s).shiftBits = b + 1 + 4 := by
  have guard := bagGuard_eq usable
  have objects := bagObjects_eq usable
  have info : c.parameters._shadowObjectInfoSize = c.infoSize := by
    change c.build.sizeofShadowObjectInfo = _
    rw [Build.sizeofShadowObjectInfo, infoSize, infoPower]
    split <;> rfl
  have items : c.parameters.build.BIBOP_BAG_SET_SIZE = c.items := rfl
  simp only [BibopHeap.initBag, offset, size, shift, guard, objects, info, items,
    initFreelist_eq done.freelist, parameters_heapSize, parameters_bagSize]
  generalize prepared : ({ s.state with
    cfreelist := Function.update s.state.cfreelist (t, b) initSLL
    ncfree := Function.update s.state.ncfree (t, b) 0 } : HeapState) = state
  have set := itemsSet (t := t) usable state
  have next : c.objectsBefore (b + 1) = c.objectsBefore b + c.numObjects b := rfl
  refine ⟨⟨?_, ?_, ?_, ?_, ?_, ?_, ?_, ?_, ?_, ?_, ?_, ?_⟩, ?_, ?_, ?_⟩ <;> try dsimp only
  · simp only [done.numCumObjects, next, Nat.add_assoc]
  · rw [done.offsetShadowMem, next, ← Nat.add_assoc, Nat.add_mul _ (c.numObjects b)]
  · intro t' b' visited
    rcases visited_succ_iff.mp visited with before | ⟨rfl, rfl⟩
    · have other : (t', b') ≠ (t, b) := by
        rintro same
        obtain ⟨rfl, rfl⟩ := Prod.mk.inj same
        exact visited_self before
      simp only [Function.update_of_ne other, done.bag t' b' before]
    · rw [Function.update_self, done.offsetShadowMem]
      rfl
  · intro t' b' unusable
    have other : (t', b') ≠ (t, b) := fun same => by
      have := congrArg Prod.snd same
      dsimp only at this
      omega
    simp only [Function.update_of_ne other, done.unusable t' b' unusable]
  · intro t' b' visited i bound
    rcases visited_succ_iff.mp visited with before | ⟨rfl, rfl⟩
    · have other : (t', b') ≠ (t, b) := by
        rintro same
        obtain ⟨rfl, rfl⟩ := Prod.mk.inj same
        exact visited_self before
      rw [set.otherPosition _ other, ← prepared]
      exact done.position t' b' before i bound
    · exact set.position i bound
  · intro t' b' visited i bound
    rcases visited_succ_iff.mp visited with before | ⟨rfl, rfl⟩
    · have other : (t', b') ≠ (t, b) := by
        rintro same
        obtain ⟨rfl, rfl⟩ := Prod.mk.inj same
        exact visited_self before
      rw [set.otherLast _ other, ← prepared]
      exact done.last t' b' before i bound
    · exact set.last i bound
  · rw [set.freelist, ← prepared]
    exact done.freelist
  · rw [set.cfreelist, ← prepared, done.cfreelist]
    exact Function.update_eq_self (t, b) fun _ => initSLL
  · rw [set.ncfree, ← prepared, done.ncfree]
    exact Function.update_eq_self (t, b) fun _ => 0
  · rw [set.links, ← prepared]
    exact done.links
  · rw [set.mem, ← prepared]
    exact done.mem
  · intro g member
    rcases set.guards g member with old | ⟨guarded, i, bound, same⟩
    · rw [← prepared] at old
      obtain ⟨guarded, t', b', visited, end'⟩ := done.guards g old
      exact ⟨guarded, t', b', visited.succ, end'⟩
    · exact ⟨guarded, t, b, visited_succ_iff.mpr (.inr ⟨rfl, rfl⟩), i, bound, same⟩
  · simp only [startOffset, Nat.add_mul, Nat.one_mul, Nat.add_assoc]
  · rw [Model.classSize, Model.classSize, Nat.add_right_comm]
    exact (Nat.pow_succ ..).symm

/-- The body of the thread loop. -/
theorem Initialized.initThreadBags {s : BibopHeap.InitState} (done : Initialized c t 0 s)
    (offset : s.offsetBag = t * c.threadSize) :
    Initialized c (t + 1) 0 (c.parameters.initThreadBags t s) ∧
      (c.parameters.initThreadBags t s).offsetBag = (t + 1) * c.threadSize := by
  have bags : c.parameters._numUsableBags = c.usable := numUsableBags_eq c
  have loop := @forRange_invariant _ c.usable (c.parameters.initBag t)
    { s with classSize := BIBOP_MIN_BLOCK_SIZE, shiftBits := LOG2 BIBOP_MIN_BLOCK_SIZE }
    (fun b s => Initialized c t b s ∧ s.offsetBag = c.startOffset t b ∧
      s.classSize = Model.classSize b ∧ s.shiftBits = b + 4)
    ⟨⟨done.numCumObjects, done.offsetShadowMem, done.bag, done.unusable, done.position, done.last,
      done.freelist, done.cfreelist, done.ncfree, done.links, done.mem, done.guards⟩,
      by rw [startOffset, Nat.zero_mul]; exact offset, rfl,
      show LOG2 BIBOP_MIN_BLOCK_SIZE = 0 + 4 by decide⟩
    fun b usable s ⟨done, offset, size, shift⟩ => done.initBag usable offset size shift
  obtain ⟨done, offset, -, -⟩ := loop
  simp only [BibopHeap.initThreadBags, bags, parameters_build, parameters_bagSize]
  generalize forRange c.usable (c.parameters.initBag t) _ = final at done offset
  have threads : (t + 1) * c.objectsPerThread + c.objectsBefore 0 =
      t * c.objectsPerThread + c.objectsBefore c.usable := by
    rw [Nat.add_mul, Nat.one_mul]
    rfl
  refine ⟨⟨?_, ?_, ?_, done.unusable, ?_, ?_, done.freelist, done.cfreelist, done.ncfree, done.links,
    done.mem, ?_⟩, ?_⟩
  · rw [threads]
    exact done.numCumObjects
  · rw [threads]
    exact done.offsetShadowMem
  · exact fun t' b' visited => done.bag t' b' (visited_thread_iff.mpr visited)
  · exact fun t' b' visited => done.position t' b' (visited_thread_iff.mpr visited)
  · exact fun t' b' visited => done.last t' b' (visited_thread_iff.mpr visited)
  · intro g member
    obtain ⟨guarded, t', b', visited, end'⟩ := done.guards g member
    exact ⟨guarded, t', b', visited_thread_iff.mp visited, end'⟩
  · have bags := c.usable_le_numBags
    rw [offset, startOffset, Nat.add_assoc, ← Nat.add_mul]
    change _ + (c.usable + (c.numBags - c.usable)) * _ = _
    simp only [Nat.add_sub_cancel' bags, Nat.add_mul, Nat.one_mul, threadSize]

/-- The state after the loop over threads and bags. -/
def loop (c : Config) : BibopHeap.InitState :=
  forRange MAX_ALIVE_THREADS c.parameters.initThreadBags
    ⟨0, 0, 0, BIBOP_MIN_BLOCK_SIZE, LOG2 BIBOP_MIN_BLOCK_SIZE, fun _ => .zero, .zero c.build⟩

theorem initialized_loop (c : Config) : Initialized c MAX_ALIVE_THREADS 0 c.loop := by
  have none (t' b' : ℕ) : ¬c.Visited 0 0 t' b' := by simp [Visited]
  refine (forRange_invariant (fun t s => Initialized c t 0 s ∧ s.offsetBag = t * c.threadSize)
    ⟨⟨?_, ?_, ?_, ?_, ?_, ?_, rfl, rfl, rfl, rfl, rfl, ?_⟩, ?_⟩
    fun t _ s ⟨done, offset⟩ => done.initThreadBags offset).1
  · simp [objectsBefore]
  · simp [objectsBefore]
  · exact fun t' b' visited => absurd visited (none t' b')
  · exact fun _ _ _ => rfl
  · exact fun t' b' visited => absurd visited (none t' b')
  · exact fun t' b' visited => absurd visited (none t' b')
  · exact fun g member => absurd member List.not_mem_nil
  · exact (Nat.zero_mul _).symm

theorem visited_all_iff {t' b' : ℕ} :
    c.Visited MAX_ALIVE_THREADS 0 t' b' ↔ t' < MAX_ALIVE_THREADS ∧ b' < c.usable := by
  simp [Visited]

/-- Exactly the bags that the loops have passed are changed. -/
def Rewritten (c : Config) (t j : ℕ) (change : PerThreadBag → PerThreadBag)
    (old new : BagRef → PerThreadBag) : Prop :=
  ∀ t' b', (c.Visited t j t' b' → new (t', b') = change (old (t', b'))) ∧
    (¬c.Visited t j t' b' → new (t', b') = old (t', b'))

theorem initNextShadow_rewritten (heap : BibopHeap) (bags : heap._numUsableBags = c.usable) :
    c.Rewritten MAX_ALIVE_THREADS 0 heap.setNextShadow heap._threadBag heap.initNextShadow := by
  rw [BibopHeap.initNextShadow, bags]
  refine forRange_invariant
    (fun t new => c.Rewritten t 0 heap.setNextShadow heap._threadBag new) ?_ ?_
  · exact fun t' b' => ⟨fun visited => absurd visited (by simp [Visited]), fun _ => rfl⟩
  · intro t _ threadBag done
    have thread : c.Rewritten t c.usable heap.setNextShadow heap._threadBag
        (forRange c.usable (fun bagNum threadBag => Function.update threadBag (t, bagNum)
          (heap.setNextShadow (threadBag (t, bagNum)))) threadBag) := by
      refine forRange_invariant
        (fun b new => c.Rewritten t b heap.setNextShadow heap._threadBag new) done ?_
      intro b _ threadBag done t' b'
      rw [visited_succ_iff]
      rcases eq_or_ne (t', b') (t, b) with same | same
      · obtain ⟨rfl, rfl⟩ := Prod.mk.inj same
        rw [Function.update_self, (done t' b').2 visited_self]
        exact ⟨fun _ => rfl, fun fresh => absurd (.inr ⟨rfl, rfl⟩) fresh⟩
      · rw [Function.update_of_ne same]
        have other : ¬(t' = t ∧ b' = b) := fun ⟨first, second⟩ => same (by rw [first, second])
        rw [or_iff_left other]
        exact done t' b'
    intro t' b'
    rw [← visited_thread_iff]
    exact thread t' b'

/-! ## The fields of the initialized heap -/

variable (c)

/-- The base-two logarithm of `BIBOP_NUM_BAGS`. -/
def bagsPower : ℕ := if c.build.manyBags then 5 else 4

theorem numBags_eq_pow : c.numBags = 2 ^ c.bagsPower := by
  rw [numBags_eq, bagsPower]
  split <;> rfl

theorem threadSize_eq_pow : c.threadSize = 2 ^ (c.bagsPower + c.bagPower) := by
  simp only [threadSize, numBags_eq_pow, bagSize, Nat.pow_add]

theorem heapSize_eq_pow : c.heapSize = 2 ^ (7 + c.bagsPower + c.bagPower) := by
  rw [heapSize, numBags_eq_pow, bagSize, Nat.pow_add, Nat.pow_add]
  rfl

theorem heapSize_eq : c.heapSize = MAX_ALIVE_THREADS * c.threadSize := Nat.mul_assoc ..

theorem infoSize_eq : c.build.sizeofShadowObjectInfo = c.infoSize := by
  rw [Build.sizeofShadowObjectInfo, infoSize, infoPower]
  split <;> rfl

@[simp] theorem heap_build : c.heap.build = c.build := (rfl)

@[simp] theorem heap_heapBegin : c.heap._heapBegin = c.heapBegin := (rfl)

@[simp] theorem heap_shadowMemBegin : c.heap._shadowMemBegin = c.shadowMemBegin := (rfl)

@[simp] theorem heap_bibopBagSize : c.heap._bibopBagSize = c.bagSize := (rfl)

@[simp] theorem heap_bagMask : c.heap._bagMask = 2 ^ c.bagPower - 1 := (rfl)

@[simp] theorem heap_firstBagPower : c.heap._firstBagPower = 4 :=
  show LOG2 BIBOP_MIN_BLOCK_SIZE = 4 by decide

@[simp] theorem heap_bagShiftBits : c.heap._bagShiftBits = c.bagPower :=
  show LOG2 (2 ^ c.bagPower) = _ from Nat.log2_two_pow

@[simp] theorem heap_threadShiftBits : c.heap._threadShiftBits = c.bagsPower + c.bagPower := by
  change LOG2 (c.bagSize * c.numBags) = _
  rw [Nat.mul_comm]
  change LOG2 c.threadSize = _
  simp only [threadSize_eq_pow, LOG2, Nat.log2_two_pow]

@[simp] theorem heap_heapEnd : c.heap._heapEnd = c.heapBegin + BIBOP_NUM_HEAPS * c.heapSize := by
  change c.heapBegin + BIBOP_NUM_HEAPS * (_ * _ * _) = _
  rw [subHeaps_eq]

@[simp] theorem heap_heapMask : c.heap._heapMask = 2 ^ (7 + c.bagsPower + c.bagPower) - 1 := by
  change _ * _ * _ - 1 = _
  simp only [subHeaps_eq, heapSize_eq_pow]

@[simp] theorem heap_heapSizeShiftBits :
    c.heap._heapSizeShiftBits = 7 + c.bagsPower + c.bagPower := by
  change LOG2 (_ * _ * _) = _
  simp only [subHeaps_eq, heapSize_eq_pow, LOG2, Nat.log2_two_pow]

@[simp] theorem heap_heapSize : c.heap.BIBOP_HEAP_SIZE = c.heapSize := c.subHeaps_eq

@[simp] theorem heap_numBagsPerSubHeapMask :
    c.heap._numBagsPerSubHeapMask = 2 ^ c.bagsPower - 1 := by
  change c.numBags - 1 = _
  rw [numBags_eq_pow]

@[simp] theorem heap_numBagsPerHeapShiftBits :
    c.heap._numBagsPerHeapShiftBits = c.bagsPower + 7 := by
  change LOG2 (c.numBags * 2 ^ 7) = _
  rw [numBags_eq_pow, ← Nat.pow_add, LOG2, Nat.log2_two_pow]

@[simp] theorem heap_numUsableBags : c.heap._numUsableBags = c.usable := c.numUsableBags_eq

@[simp] theorem heap_shadowObjectInfoSize : c.heap._shadowObjectInfoSize = c.infoSize :=
  c.infoSize_eq

@[simp] theorem heap_shadowObjectInfoSizeShiftBits :
    c.heap._shadowObjectInfoSizeShiftBits = c.infoPower := by
  change LOG2 c.build.sizeofShadowObjectInfo = _
  simp only [infoSize_eq, infoSize, LOG2, Nat.log2_two_pow]

theorem numCumObjects_eq : c.loop.numCumObjects = MAX_ALIVE_THREADS * c.objectsPerThread :=
  c.initialized_loop.numCumObjects

@[simp] theorem heap_shadowMemSizePerHeap :
    c.heap._shadowMemSizePerHeap = MAX_ALIVE_THREADS * c.objectsPerThread * c.infoSize := by
  change c.loop.numCumObjects * c.build.sizeofShadowObjectInfo = _
  simp only [numCumObjects_eq, infoSize_eq]

@[simp] theorem heap_shadowMemEnd : c.heap._shadowMemEnd =
    c.shadowMemBegin +
      BIBOP_NUM_HEAPS * (MAX_ALIVE_THREADS * c.objectsPerThread * c.infoSize) := by
  change c.shadowMemBegin + BIBOP_NUM_HEAPS *
    (c.loop.numCumObjects * c.build.sizeofShadowObjectInfo) = _
  simp only [numCumObjects_eq, infoSize_eq]

@[simp] theorem heap_ceilShiftBits :
    c.heap._shadowMemSizePerHeapCeilShiftBits = c.ceilPower := by
  change Nat.size (c.loop.numCumObjects * c.build.sizeofShadowObjectInfo - 1) = _
  simp only [numCumObjects_eq, infoSize_eq, ceilPower]

@[simp] theorem heap_shadowMemSizePerHeapCeil :
    c.heap._shadowMemSizePerHeapCeil = 2 ^ c.ceilPower := by
  rw [← heap_ceilShiftBits, ← Nat.one_shiftLeft]
  rfl

@[simp] theorem heap_shadowMemSizePerHeapMask :
    c.heap._shadowMemSizePerHeapMask = 2 ^ c.ceilPower - 1 := by
  rw [← heap_shadowMemSizePerHeapCeil]
  rfl

variable {c}

theorem heap_threadBag (thread : t < MAX_ALIVE_THREADS) (usable : b < c.usable) :
    c.heap._threadBag (t, b) = c.bag t b := by
  have visited : c.Visited MAX_ALIVE_THREADS 0 t b := visited_all_iff.mpr ⟨thread, usable⟩
  apply ((initNextShadow_rewritten _ c.numUsableBags_eq t b).1 visited).trans
  change BibopHeap.setNextShadow _ (c.loop.threadBag (t, b)) = _
  rw [c.initialized_loop.bag t b visited, BibopHeap.setNextShadow, bag, infoSize, ← Nat.shiftLeft_eq,
    ← heap_shadowObjectInfoSizeShiftBits, ← heap_shadowMemSizePerHeapCeil]
  rfl

theorem heap_unusable (t : ℕ) (unusable : c.usable ≤ b) : c.heap._threadBag (t, b) = .zero := by
  have unvisited : ¬c.Visited MAX_ALIVE_THREADS 0 t b := fun visited =>
    absurd (visited_all_iff.mp visited).2 (by omega)
  apply ((initNextShadow_rewritten _ c.numUsableBags_eq t b).2 unvisited).trans
  exact c.initialized_loop.unusable t b unusable

/-- The default build with the smallest bag size. -/
def makefile : Config where
  build := .makefile
  bagPower := 22
  heapBegin := 0x100000000000
  shadowMemBegin := 0x700000000000
  large := by decide
  bagSet := by decide
  heapBegin_aligned := by decide
  heapBegin_pos := by decide
  shadowMemBegin_aligned := by decide
  shadowMemBegin_pos := by decide

end Config

end FreeGuard.Model
