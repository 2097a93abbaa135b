import Mathlib.Algebra.Group.Nat.Defs
import Mathlib.Data.Int.Notation
import Mathlib.Data.Nat.Size
import Mathlib.Tactic.Common

/-! # Build configuration and global constants

The constants of `xdefines.hh` and the compile-time switches that select between them. A `Build` is
one choice of switches; whatever the preprocessor decides is a function of it. Sizes are `size_t`,
with the wrapping arithmetic of the code. Addresses are natural numbers.
-/

namespace FreeGuard.Model

/-- `size_t` on the 64-bit target. -/
abbrev size_t := BitVec 64

/-- The compile-time switches, under the names of their macros. -/
structure Build where
  /-- `MANYBAGS` -/
  manyBags : Bool
  /-- `ENABLE_GUARDPAGE` -/
  guardPage : Bool
  /-- `RANDOM_GUARD` -/
  randomGuard : Bool
  /-- `USE_CANARY` -/
  canary : Bool
  /-- `FIFO_FREELIST` -/
  fifo : Bool
  /-- `CFREELIST` -/
  cfreelist : Bool
  /-- `DESTROY_ON_FREE` -/
  destroyOnFree : Bool
  /-- `DETECT_UAF` or `DETECT_BO` -/
  detect : Bool
  /-- `SSE2RNG` -/
  sse2rng : Bool
  /-- The base-two logarithm of `BIBOP_BAG_SET_SIZE`, which the code requires to be a power of two. -/
  bagSetPower : ℕ
  /-- The base-two logarithm of `BIBOP_BAG_SET_WEIGHT`. -/
  bagSetWeightPower : ℕ
deriving DecidableEq, Repr

/-- The build of the Makefile without further flags. -/
def Build.makefile : Build where
  manyBags := true
  guardPage := true
  randomGuard := true
  canary := true
  fifo := true
  cfreelist := false
  destroyOnFree := false
  detect := false
  sse2rng := true
  bagSetPower := 2
  bagSetWeightPower := 3

def MAX_ALIVE_THREADS : ℕ := 128
def BIBOP_NUM_HEAPS : ℕ := 1024
def BIBOP_NUM_SUBHEAPS : ℕ := MAX_ALIVE_THREADS
def BIBOP_MIN_BLOCK_SIZE : ℕ := 16
def CACHEDFREELIST_THRESHOLD_RATIO_BYBAG : ℕ := 10
def PAGESIZE : ℕ := 0x1000
def PageSize : ℕ := 4096
def PageMask : ℕ := PageSize - 1
def TWO_KILOBYTES : ℕ := 2048
def THREAD_MAP_SIZE : ℕ := 1280
def CANARY_SENTINEL : UInt8 := 0x7B
def NUM_MORE_CANARIES_TO_CHECK : ℕ := 2

/-- The null pointer. -/
def NULL : ℕ := 0

/-- `(slist_t *)0x1`: the link of an allocated object's shadow entry. -/
def ALLOC_SENTINEL : ℕ := 1

namespace Build

def BIBOP_NUM_BAGS (build : Build) : ℕ := if build.manyBags then 32 else 16

def LARGE_OBJECT_THRESHOLD (build : Build) : ℕ := if build.manyBags then 0x400000 else 0x80000

def BIBOP_BAG_SET_SIZE (build : Build) : ℕ := 2 ^ build.bagSetPower

def BIBOP_BAG_SET_WEIGHT (build : Build) : ℕ := 2 ^ build.bagSetWeightPower

def BIBOP_BAG_SET_RANDOMIZER (build : Build) : ℕ :=
  build.BIBOP_BAG_SET_SIZE * build.BIBOP_BAG_SET_WEIGHT

def BIBOP_BAG_SET_RANDOMIZER_MASK (build : Build) : ℕ := build.BIBOP_BAG_SET_RANDOMIZER - 1

def BIBOP_BAG_SET_MASK (build : Build) : ℕ := build.BIBOP_BAG_SET_SIZE - 1

/-- `RAND_MAX` unless the SSE2 generator is built in. -/
def RNG_MAX (build : Build) : ℕ := if build.sse2rng then 0x8000 else 0x7fffffff

/-- `draw < RANDOM_GUARD_RAND_CUTOFF`, that is `draw < 0.1 * RNG_MAX`, for an integer draw. -/
def belowGuardCutoff (build : Build) (draw : ℤ) : Bool := 10 * draw < build.RNG_MAX

/-- The routing test of `xxmalloc`: the request does not fit a small object. -/
def IF_CANARY_CONDITION (build : Build) (size : size_t) : Bool :=
  if build.canary then build.LARGE_OBJECT_THRESHOLD < (size + 1).toNat
  else build.LARGE_OBJECT_THRESHOLD < size.toNat

/-- `sizeof(shadowObjectInfo)`: the link, and three call-site words in a detecting build. -/
def sizeofShadowObjectInfo (build : Build) : ℕ := if build.detect then 8 + 3 * 8 else 8

end Build

/-- `LOG2`: the position of the highest set bit. -/
def LOG2 (x : ℕ) : ℕ := Nat.log2 x

/-- `alignup`, in the wrapping arithmetic of `size_t`. -/
def alignup (size alignto : size_t) : size_t :=
  if size % alignto = 0 then size else (size + (alignto - 1)) &&& ~~~(alignto - 1)

end FreeGuard.Model
