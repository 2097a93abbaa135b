import FreeGuard.Model.Arc4random
import Mathlib.Logic.Function.Basic

/-! # Runs of processes that draw random numbers

Processes and their threads are numbered, and a thread is known by both numbers. A fork makes a process with
one thread, which has the memory of the thread that forked; the handler that `_rs_allocate` has registered
sets its `_rs_forked`. Two threads of a process share nothing but `_rs_pid`, so a call is one step.
-/

namespace FreeGuard.Model

structure Arc4World where
  processes : ℕ
  _rs_pid : ℕ → ℕ
  /-- `_ARC4_ATFORK` has been called in the process or in one that it was forked from. -/
  registered : ℕ → Bool
  thread : ℕ × ℕ → Arc4Thread

inductive Arc4Event where
  | word (process thread : ℕ) (inputs : Arc4Inputs) (val : u32)
  | buf (process thread n : ℕ) (inputs : Arc4Inputs) (buf : List u8)
  | fork (process thread child : ℕ)

namespace Arc4World

/-- One process, no thread of which has drawn anything. -/
def boot : Arc4World := ⟨1, fun _ => 0, fun _ => false, fun _ => ⟨none, false⟩⟩

/-- The world after a call of a thread. -/
def served (w : Arc4World) (process thread _rs_pid : ℕ) (after : Arc4Thread) : Arc4World where
  processes := w.processes
  _rs_pid := Function.update w._rs_pid process _rs_pid
  registered := Function.update w.registered process
    (w.registered process || (w.thread (process, thread)).rs.isNone)
  thread := Function.update w.thread (process, thread) after

/-- The world after a fork. -/
def forked (w : Arc4World) (process thread : ℕ) : Arc4World where
  processes := w.processes + 1
  _rs_pid := Function.update w._rs_pid w.processes (w._rs_pid process)
  registered := Function.update w.registered w.processes (w.registered process)
  thread := Function.update w.thread (w.processes, thread)
    { w.thread (process, thread) with
      _rs_forked := (w.thread (process, thread))._rs_forked || w.registered process }

end Arc4World

inductive Arc4Step : Arc4World → Arc4Event → Arc4World → Prop
  | word {w : Arc4World} {process thread _rs_pid : ℕ} {inputs : Arc4Inputs} {val : u32} {after : Arc4Thread} :
      process < w.processes →
      arc4random inputs (w._rs_pid process) (w.thread (process, thread)) = .ok (val, _rs_pid, after) →
      Arc4Step w (.word process thread inputs val) (w.served process thread _rs_pid after)
  | buf {w : Arc4World} {process thread n _rs_pid : ℕ} {inputs : Arc4Inputs} {buf : List u8}
      {after : Arc4Thread} :
      process < w.processes →
      _rs_random_buf n inputs (w._rs_pid process) (w.thread (process, thread)) = .ok (buf, _rs_pid, after) →
      Arc4Step w (.buf process thread n inputs buf) (w.served process thread _rs_pid after)
  | fork {w : Arc4World} {process : ℕ} (thread : ℕ) : process < w.processes →
      Arc4Step w (.fork process thread w.processes) (w.forked process thread)

end FreeGuard.Model
