import FreeGuard.Machine.AddressSpace
import FreeGuard.Machine.Run
import Mathlib.Data.List.Infix
import Mathlib.Logic.Function.Basic

/-! # A store of blocks

What an allocator is for: blocks of bytes by their addresses, each with contents of its own. No two
blocks share an address, which is part of the structure, so a new block can only be put where it meets no
other. A call changes the block that it names and no other one; a byte of a block keeps its value as long
as it is not stored to and the block is neither released nor resized.
-/

namespace FreeGuard.Machine

/-- Blocks by their addresses, no two of which share an address. -/
structure BlockStore (Byte : Type*) where
  blocks : ℕ → Option (List Byte)
  apart : ∀ p q l m, blocks p = some l → blocks q = some m → p ≠ q →
    Region.Apart ⟨p, l.length⟩ ⟨q, m.length⟩

/-- A call with its result, and the accesses of the program between the calls. -/
inductive BlockCall (Byte : Type*) where
  | alloc (size p : ℕ)
  | zeroed (size p : ℕ)
  | resize (p size q : ℕ)
  | release (p : ℕ)
  | store (a : ℕ) (value : Byte)
  | load (a : ℕ) (value : Byte)

namespace BlockStore

variable {Byte : Type*} {s t : BlockStore Byte} {p q a i : ℕ} {l m : List Byte} {value other : Byte}

def empty : BlockStore Byte := ⟨fun _ => none, fun _ _ _ _ absent => by cases absent⟩

/-- No block is at an address, and none meets as many bytes from there on. -/
def Fresh (s : BlockStore Byte) (p length : ℕ) : Prop :=
  s.blocks p = none ∧ ∀ q m, s.blocks q = some m → Region.Apart ⟨p, length⟩ ⟨q, m.length⟩

/-- A new block. -/
def insert (s : BlockStore Byte) (p : ℕ) (l : List Byte) (fresh : s.Fresh p l.length) :
    BlockStore Byte where
  blocks := Function.update s.blocks p (some l)
  apart q r m n atQ atR other := by
    rw [Function.update_apply] at atQ atR
    split_ifs at atQ atR with first second
    · exact absurd (first.trans second.symm) other
    · cases atQ
      exact first ▸ fresh.2 r n atR
    · cases atR
      rename_i same
      exact same ▸ symm (fresh.2 q m atQ)
    · exact s.apart q r m n atQ atR other

/-- The store without a block. -/
def erase (s : BlockStore Byte) (p : ℕ) : BlockStore Byte where
  blocks := Function.update s.blocks p none
  apart q r m n atQ atR other := by
    rw [Function.update_apply] at atQ atR
    split_ifs at atQ atR
    exact s.apart q r m n atQ atR other

/-- Another value of one byte of a block. -/
def write (s : BlockStore Byte) (p i : ℕ) (value : Byte) : BlockStore Byte where
  blocks := fun q => (s.blocks q).map fun l => if q = p then l.set i value else l
  apart q r m n atQ atR other := by
    obtain ⟨m', atQ', rfl⟩ := Option.map_eq_some_iff.mp atQ
    obtain ⟨n', atR', rfl⟩ := Option.map_eq_some_iff.mp atR
    have apart := s.apart q r m' n' atQ' atR' other
    split_ifs <;> simpa using apart

theorem insert_apply (fresh : s.Fresh p l.length) (q : ℕ) :
    (s.insert p l fresh).blocks q = if q = p then some l else s.blocks q :=
  Function.update_apply ..

theorem erase_apply (q : ℕ) : (s.erase p).blocks q = if q = p then none else s.blocks q :=
  Function.update_apply ..

theorem write_apply (q : ℕ) : (s.write p i value).blocks q =
    (s.blocks q).map fun l => if q = p then l.set i value else l := rfl

/-- A byte lies in one block. -/
theorem eq_of_covers (atP : s.blocks p = some l) (atQ : s.blocks q = some m)
    (first : Region.Covers ⟨p, l.length⟩ a) (second : Region.Covers ⟨q, m.length⟩ a) : p = q := by
  by_contra other
  exact s.apart p q l m atP atQ other a first second

/-- One call. A resized block either stays, or moves to a new one that begins with all its bytes. -/
inductive Step [Zero Byte] (null : ℕ) : BlockStore Byte → BlockCall Byte → BlockStore Byte → Prop
  | alloc {s : BlockStore Byte} {size p : ℕ} {l : List Byte} (fresh : s.Fresh p l.length) :
      p ≠ null → size ≤ l.length → Step null s (.alloc size p) (s.insert p l fresh)
  | zeroed {s : BlockStore Byte} {size p : ℕ} {l : List Byte} (fresh : s.Fresh p l.length) :
      p ≠ null → List.replicate size 0 <+: l → Step null s (.zeroed size p) (s.insert p l fresh)
  | releaseNull {s : BlockStore Byte} : Step null s (.release null) s
  | release {s : BlockStore Byte} {p : ℕ} : s.blocks p ≠ none → Step null s (.release p) (s.erase p)
  | resizeNull {s : BlockStore Byte} {size p : ℕ} {l : List Byte} (fresh : s.Fresh p l.length) :
      p ≠ null → size ≤ l.length → Step null s (.resize null size p) (s.insert p l fresh)
  | resizeZero {s : BlockStore Byte} {p : ℕ} :
      s.blocks p ≠ none → Step null s (.resize p 0 null) (s.erase p)
  | stays {s : BlockStore Byte} {size p : ℕ} {l : List Byte} :
      s.blocks p = some l → 0 < size → size ≤ l.length → Step null s (.resize p size p) s
  | moves {s : BlockStore Byte} {size p q : ℕ} {l m : List Byte} (fresh : s.Fresh q m.length) :
      s.blocks p = some l → l.length < size → l <+: m → q ≠ null → size ≤ m.length →
      Step null s (.resize p size q) ((s.insert q m fresh).erase p)
  | store {s : BlockStore Byte} {p i : ℕ} {l : List Byte} {value : Byte} :
      s.blocks p = some l → i < l.length → Step null s (.store (p + i) value) (s.write p i value)
  | load {s : BlockStore Byte} {p i : ℕ} {l : List Byte} {value : Byte} :
      s.blocks p = some l → l[i]? = some value → Step null s (.load (p + i) value) s

/-- The value of a byte of a block. -/
def Holds (s : BlockStore Byte) (p i : ℕ) (value : Byte) : Prop :=
  ∃ l, s.blocks p = some l ∧ l[i]? = some value

theorem Holds.unique (first : s.Holds p i value) (second : s.Holds p i other) : value = other := by
  obtain ⟨l, atP, byte⟩ := first
  obtain ⟨m, atP', byte'⟩ := second
  obtain rfl := Option.some.inj (atP.symm.trans atP')
  exact Option.some.inj (byte.symm.trans byte')

theorem Holds.insert (holds : s.Holds p i value) (fresh : s.Fresh q m.length) :
    (s.insert q m fresh).Holds p i value := by
  obtain ⟨l, atP, byte⟩ := holds
  refine ⟨l, ?_, byte⟩
  rw [insert_apply, if_neg, atP]
  rintro rfl
  rw [fresh.1] at atP
  cases atP

theorem Holds.erase (holds : s.Holds p i value) (apart : q ≠ p) : (s.erase q).Holds p i value := by
  obtain ⟨l, atP, byte⟩ := holds
  exact ⟨l, by rw [erase_apply, if_neg apart.symm, atP], byte⟩

/-- The call neither stores to an address nor releases or resizes a block. -/
def Spares (p a : ℕ) : BlockCall Byte → Prop
  | .resize q _ _ | .release q => q ≠ p
  | .store b _ => b ≠ a
  | _ => True

/-- A call that spares a byte and its block keeps its value. -/
theorem Holds.step [Zero Byte] {null : ℕ} {call : BlockCall Byte} (holds : s.Holds p i value)
    (step : Step null s call t) (spares : Spares p (p + i) call) : t.Holds p i value := by
  cases step with
  | alloc fresh | zeroed fresh | resizeNull fresh => exact holds.insert fresh
  | releaseNull | stays | load => exact holds
  | release | resizeZero => exact holds.erase spares
  | moves fresh => exact (holds.insert fresh).erase spares
  | @store q j m written atQ below =>
    obtain ⟨l, atP, byte⟩ := holds
    refine ⟨if p = q then l.set j written else l, ?_, ?_⟩
    · simp only [write_apply, atP, Option.map_some]
    · split_ifs with same
      · subst same
        rw [List.getElem?_set_ne (fun same => spares (congrArg (p + ·) same)), byte]
      · exact byte

theorem Holds.run [Zero Byte] {null : ℕ} {calls : List (BlockCall Byte)} (holds : s.Holds p i value)
    (run : Run (Step null) s calls t) (spares : ∀ call ∈ calls, Spares p (p + i) call) :
    t.Holds p i value := by
  induction run with
  | nil => exact holds
  | cons head _ ih =>
    obtain ⟨now, later⟩ := List.forall_mem_cons.mp spares
    exact ih (holds.step head now) later

/-- A byte that has been stored is held. -/
theorem Step.stored [Zero Byte] {null : ℕ} (step : Step null s (.store a value) t)
    (atP : s.blocks p = some l) (first : p ≤ a) (last : a < p + l.length) :
    t.Holds p (a - p) value := by
  generalize same : BlockCall.store a value = call at step
  cases step with
  | @store q j m _ atQ below =>
    cases same
    obtain rfl := eq_of_covers atP atQ ⟨first, last⟩ ⟨Nat.le_add_right .., Nat.add_lt_add_left below q⟩
    obtain rfl := Option.some.inj (atP.symm.trans atQ)
    rw [Nat.add_sub_cancel_left]
    refine ⟨l.set j value, by simp [write_apply, atP], List.getElem?_set_self below⟩
  | _ => cases same

/-- A byte that is loaded is held. -/
theorem Step.loaded [Zero Byte] {null : ℕ} (step : Step null s (.load a value) t)
    (atP : s.blocks p = some l) (first : p ≤ a) (last : a < p + l.length) :
    s.Holds p (a - p) value := by
  generalize same : BlockCall.load a value = call at step
  cases step with
  | @load q j m _ atQ byte =>
    cases same
    have below : j < m.length := (List.getElem?_eq_some_iff.mp byte).1
    obtain rfl := eq_of_covers atP atQ ⟨first, last⟩ ⟨Nat.le_add_right .., Nat.add_lt_add_left below q⟩
    rw [Nat.add_sub_cancel_left]
    exact ⟨m, atQ, byte⟩
  | _ => cases same

end BlockStore

end FreeGuard.Machine
