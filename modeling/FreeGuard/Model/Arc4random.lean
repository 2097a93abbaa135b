import FreeGuard.Model.Chacha

/-! # The random numbers of `arc4random.c`

Every thread has a generator of its own. `_rs_pid` is shared by the threads of a process. What the kernel
gives is an input: the process's number, and for the calls that need them the pages of `mmap` and the bytes
of `getentropy`.
-/

namespace FreeGuard.Model

def KEYSZ : ℕ := 32
def IVSZ : ℕ := 8
def BLOCKSZ : ℕ := 64
def RSBUFSZ : ℕ := 16 * BLOCKSZ

/-- `struct _rs`. -/
structure Rs where
  rs_have : ℕ
  rs_count : ℕ
deriving DecidableEq, Repr

/-- `struct _rsx`. -/
structure Rsx where
  rs_chacha : ChachaCtx
  rs_buf : List u8
deriving DecidableEq, Repr

/-- What the two pointers of a thread point to. -/
structure Arc4 where
  rs : Rs
  rsx : Rsx
deriving DecidableEq, Repr

/-- The ends of the process. -/
inductive Arc4Stop where
  /-- `abort`, without memory. -/
  | aborted
  /-- `raise(SIGKILL)`, without entropy. -/
  | killed
deriving DecidableEq, Repr

/-- What the kernel gives to one call. -/
structure Arc4Inputs where
  pid : ℕ
  /-- The two calls of `mmap` succeed. -/
  mapped : Bool
  entropy : Option (Vector u8 (KEYSZ + IVSZ))

namespace Arc4

/-- Zero pages. -/
def fresh : Arc4 := ⟨⟨0, 0⟩, ⟨⟨Vector.replicate 16 0⟩, List.replicate RSBUFSZ 0⟩⟩

/-- `_rs_init` of a generator that has been allocated. -/
def _rs_init (buf : List u8) (a : Arc4) : Arc4 :=
  if buf.length < KEYSZ + IVSZ then a
  else
    let rs_chacha := chacha_keysetup a.rsx.rs_chacha buf (BitVec.ofNat 32 (KEYSZ * 8))
    let rs_chacha := chacha_ivsetup rs_chacha (buf.drop KEYSZ)
    { a with rsx := { a.rsx with rs_chacha := rs_chacha } }

/-- `dat` is empty where the code has a null pointer. -/
def _rs_rekey (dat : List u8) (a : Arc4) : Arc4 :=
  let (rs_buf, rs_chacha) := chacha_encrypt_bytes a.rsx.rs_chacha RSBUFSZ
  let m := min dat.length (KEYSZ + IVSZ)
  let rs_buf := List.zipWith (· ^^^ ·) (rs_buf.take m) dat ++ rs_buf.drop m
  let a := _rs_init (rs_buf.take (KEYSZ + IVSZ)) { a with rsx := ⟨rs_chacha, rs_buf⟩ }
  { rs := { a.rs with rs_have := RSBUFSZ - KEYSZ - IVSZ }
    rsx := { a.rsx with
      rs_buf := List.replicate (KEYSZ + IVSZ) 0 ++ a.rsx.rs_buf.drop (KEYSZ + IVSZ) } }

/-- A generator that has not been allocated is none. -/
def _rs_stir (inputs : Arc4Inputs) (rs : Option Arc4) : Except Arc4Stop Arc4 :=
  match inputs.entropy with
  | none => .error .killed
  | some rnd => do
    let a ← match rs with
      | none => if inputs.mapped then .ok (_rs_init rnd.toList fresh) else .error .aborted
      | some a => .ok (_rs_rekey rnd.toList a)
    .ok {
      rs := { rs_have := 0, rs_count := 1600000 }
      rsx := { a.rsx with rs_buf := List.replicate RSBUFSZ 0 } }

/-- The last part of `_rs_stir_if_needed`. -/
def spend (len : ℕ) (a : Arc4) : Arc4 :=
  { a with rs := { a.rs with rs_count := if a.rs.rs_count ≤ len then 0 else a.rs.rs_count - len } }

/-- Take `m` bytes of the keystream, and leave zeros. -/
def take (m : ℕ) (a : Arc4) : List u8 × Arc4 :=
  let start := RSBUFSZ - a.rs.rs_have
  ((a.rsx.rs_buf.drop start).take m,
    { rs := { a.rs with rs_have := a.rs.rs_have - m }
      rsx := { a.rsx with
        rs_buf := a.rsx.rs_buf.take start ++ List.replicate m 0 ++ a.rsx.rs_buf.drop (start + m) } })

/-- The loop of `_rs_random_buf`. A turn that takes nothing makes a new block, so the fuel of two turns a
byte is enough. -/
def fill : ℕ → ℕ → Arc4 → List u8 × Arc4
  | 0, _, a => ([], a)
  | fuel + 1, n, a =>
    if n = 0 then ([], a)
    else
      let m := if 0 < a.rs.rs_have then min n a.rs.rs_have else 0
      let (keystream, a) := if 0 < a.rs.rs_have then a.take m else ([], a)
      let a := if a.rs.rs_have = 0 then _rs_rekey [] a else a
      let (rest, a) := fill fuel (n - m) a
      (keystream ++ rest, a)

/-- The end of `_rs_random_u32`. -/
def word (a : Arc4) : u32 × Arc4 :=
  let a := if a.rs.rs_have < 4 then _rs_rekey [] a else a
  let (keystream, a) := a.take 4
  (U8TO32_LITTLE keystream 0, a)

end Arc4

/-- The generator of a thread, and its `_rs_forked`. -/
structure Arc4Thread where
  rs : Option Arc4
  _rs_forked : Bool
deriving DecidableEq, Repr

/-- The pid that the static variable is left with, and the thread. -/
def _rs_forkdetect (pid _rs_pid : ℕ) (thread : Arc4Thread) : ℕ × Arc4Thread :=
  if _rs_pid = 0 ∨ _rs_pid = 1 ∨ _rs_pid ≠ pid ∨ thread._rs_forked then
    (pid, { rs := thread.rs.map fun a => { a with rs := ⟨0, 0⟩ }, _rs_forked := false })
  else (_rs_pid, thread)

/-- The generator that the request is served from; `_rs_forked` is zero then. -/
def _rs_stir_if_needed (len : ℕ) (inputs : Arc4Inputs) (_rs_pid : ℕ) (thread : Arc4Thread) :
    Except Arc4Stop (ℕ × Arc4) := do
  let (_rs_pid, thread) := _rs_forkdetect inputs.pid _rs_pid thread
  let a ← match thread.rs with
    | none => Arc4._rs_stir inputs none
    | some a => if a.rs.rs_count ≤ len then Arc4._rs_stir inputs (some a) else .ok a
  .ok (_rs_pid, a.spend len)

def _rs_random_buf (n : ℕ) (inputs : Arc4Inputs) (_rs_pid : ℕ) (thread : Arc4Thread) :
    Except Arc4Stop (List u8 × ℕ × Arc4Thread) := do
  let (_rs_pid, a) ← _rs_stir_if_needed n inputs _rs_pid thread
  let (buf, a) := a.fill (2 * n) n
  .ok (buf, _rs_pid, ⟨some a, false⟩)

def arc4random (inputs : Arc4Inputs) (_rs_pid : ℕ) (thread : Arc4Thread) :
    Except Arc4Stop (u32 × ℕ × Arc4Thread) := do
  let (_rs_pid, a) ← _rs_stir_if_needed 4 inputs _rs_pid thread
  let (val, a) := a.word
  .ok (val, _rs_pid, ⟨some a, false⟩)

/-- The loop of `arc4random_uniform`, over the inputs of its calls of `arc4random`; none while all that they
gave was rejected. -/
def uniformLoop (upper_bound min : u32) : List Arc4Inputs → ℕ → Arc4Thread →
    Except Arc4Stop (Option (u32 × ℕ × Arc4Thread))
  | [], _, _ => .ok none
  | inputs :: rest, _rs_pid, thread => do
    let (r, _rs_pid, thread) ← arc4random inputs _rs_pid thread
    if min ≤ r then .ok (some (r % upper_bound, _rs_pid, thread))
    else uniformLoop upper_bound min rest _rs_pid thread

def arc4random_uniform (upper_bound : u32) (inputs : List Arc4Inputs) (_rs_pid : ℕ) (thread : Arc4Thread) :
    Except Arc4Stop (Option (u32 × ℕ × Arc4Thread)) :=
  if upper_bound < 2 then .ok (some (0, _rs_pid, thread))
  else uniformLoop upper_bound (-upper_bound % upper_bound) inputs _rs_pid thread

def RAND_MAX : u32 := 0x7fffffff

/-- `getRandomNumber` of a build with `ARC4RNG`. -/
def getRandomNumberArc4 (inputs : List Arc4Inputs) (_rs_pid : ℕ) (thread : Arc4Thread) :
    Except Arc4Stop (Option (u32 × ℕ × Arc4Thread)) :=
  arc4random_uniform RAND_MAX inputs _rs_pid thread

end FreeGuard.Model
