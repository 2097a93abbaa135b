import Mathlib.Data.UInt
import Mathlib.Tactic.Common

/-! # The cipher of `chacha_private.h`

`KEYSTREAM_ONLY` is defined: what is encrypted is never read, and the output is the keystream itself.
-/

namespace FreeGuard.Model

abbrev u8 := UInt8
abbrev u32 := BitVec 32

/-- `chacha_ctx`. -/
structure ChachaCtx where
  input : Vector u32 16
deriving DecidableEq, Repr

def U8TO32_LITTLE (p : List u8) (i : ℕ) : u32 :=
  let byte (k : ℕ) : u32 := (p.getD (i + k) 0).toBitVec.setWidth 32
  byte 0 ||| byte 1 <<< 8 ||| byte 2 <<< 16 ||| byte 3 <<< 24

def U32TO8_LITTLE (v : u32) : List u8 :=
  [⟨v.setWidth 8⟩, ⟨(v >>> 8).setWidth 8⟩, ⟨(v >>> 16).setWidth 8⟩, ⟨(v >>> 24).setWidth 8⟩]

def ROTATE (v : u32) (n : ℕ) : u32 := v <<< n ||| v >>> (32 - n)

def QUARTERROUND (x : Vector u32 16) (a b c d : Fin 16) : Vector u32 16 :=
  let x := x.set a (x[a] + x[b])
  let x := x.set d (ROTATE (x[d] ^^^ x[a]) 16)
  let x := x.set c (x[c] + x[d])
  let x := x.set b (ROTATE (x[b] ^^^ x[c]) 12)
  let x := x.set a (x[a] + x[b])
  let x := x.set d (ROTATE (x[d] ^^^ x[a]) 8)
  let x := x.set c (x[c] + x[d])
  x.set b (ROTATE (x[b] ^^^ x[c]) 7)

/-- `sigma`, "expand 32-byte k". -/
def sigma : List u8 :=
  [0x65, 0x78, 0x70, 0x61, 0x6e, 0x64, 0x20, 0x33, 0x32, 0x2d, 0x62, 0x79, 0x74, 0x65, 0x20, 0x6b]

/-- `tau`, "expand 16-byte k". -/
def tau : List u8 :=
  [0x65, 0x78, 0x70, 0x61, 0x6e, 0x64, 0x20, 0x31, 0x36, 0x2d, 0x62, 0x79, 0x74, 0x65, 0x20, 0x6b]

def chacha_keysetup (x : ChachaCtx) (k : List u8) (kbits : u32) : ChachaCtx :=
  let input := x.input.set 4 (U8TO32_LITTLE k 0)
  let input := input.set 5 (U8TO32_LITTLE k 4)
  let input := input.set 6 (U8TO32_LITTLE k 8)
  let input := input.set 7 (U8TO32_LITTLE k 12)
  let (k, constants) := if kbits = 256 then (k.drop 16, sigma) else (k, tau)
  let input := input.set 8 (U8TO32_LITTLE k 0)
  let input := input.set 9 (U8TO32_LITTLE k 4)
  let input := input.set 10 (U8TO32_LITTLE k 8)
  let input := input.set 11 (U8TO32_LITTLE k 12)
  let input := input.set 0 (U8TO32_LITTLE constants 0)
  let input := input.set 1 (U8TO32_LITTLE constants 4)
  let input := input.set 2 (U8TO32_LITTLE constants 8)
  ⟨input.set 3 (U8TO32_LITTLE constants 12)⟩

def chacha_ivsetup (x : ChachaCtx) (iv : List u8) : ChachaCtx :=
  let input := x.input.set 12 0
  let input := input.set 13 0
  let input := input.set 14 (U8TO32_LITTLE iv 0)
  ⟨input.set 15 (U8TO32_LITTLE iv 4)⟩

/-- Two of the 20 rounds. -/
def doubleRound (x : Vector u32 16) : Vector u32 16 :=
  let x := QUARTERROUND x 0 4 8 12
  let x := QUARTERROUND x 1 5 9 13
  let x := QUARTERROUND x 2 6 10 14
  let x := QUARTERROUND x 3 7 11 15
  let x := QUARTERROUND x 0 5 10 15
  let x := QUARTERROUND x 1 6 11 12
  let x := QUARTERROUND x 2 7 8 13
  QUARTERROUND x 3 4 9 14

/-- The 64 bytes that the words `j` give. -/
def chachaBlock (j : Vector u32 16) : List u8 :=
  (Vector.zipWith (· + ·) (doubleRound^[10] j) j).toList.flatMap U32TO8_LITTLE

def j12 (j : Vector u32 16) : u32 := j[12]
def j13 (j : Vector u32 16) : u32 := j[13]

def setCounter (j : Vector u32 16) (low high : u32) : Vector u32 16 := (j.set 12 low).set 13 high

/-- The words of the next block: the counter is `j12`, with its carry in `j13`. -/
def nextBlock (j : Vector u32 16) : Vector u32 16 :=
  let j := j.set 12 (j12 j + 1)
  if j12 j = 0 then j.set 13 (j13 j + 1) else j

/-- The loop of `chacha_encrypt_bytes`: the bytes written, and the words that it leaves. Of the last block,
which goes to `tmp` where it is not whole, as many bytes are copied as are left. -/
def encryptLoop (j : Vector u32 16) (bytes : ℕ) : List u8 × Vector u32 16 :=
  let c := chachaBlock j
  if bytes ≤ 64 then (c.take bytes, nextBlock j)
  else
    let (rest, j) := encryptLoop (nextBlock j) (bytes - 64)
    (c ++ rest, j)
termination_by bytes

/-- What is written to `c`, and the context left. -/
def chacha_encrypt_bytes (x : ChachaCtx) (bytes : ℕ) : List u8 × ChachaCtx :=
  if bytes = 0 then ([], x)
  else
    let (c, j) := encryptLoop x.input bytes
    (c, ⟨setCounter x.input (j12 j) (j13 j)⟩)

end FreeGuard.Model
