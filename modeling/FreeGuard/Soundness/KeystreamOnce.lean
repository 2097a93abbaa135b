import FreeGuard.Model.Arc4Run
import FreeGuard.Proofs.Arc4random

/-! # No random byte is given twice

Whatever threads draw and whatever processes fork, the bytes given are those of streams that seeds start,
and no part of a stream is given to two threads, in a parent and its child, or twice to one. What a thread
keeps in memory is what comes next in its stream.
-/

namespace FreeGuard.Soundness.KeystreamOnce

open Machine Model Arc4

abbrev Owner := ℕ × ℕ
abbrev Streams := KeyStreams Owner (List u8)
abbrev Act := KeyStreamAct Owner (Vector u8 (KEYSZ + IVSZ)) u8

variable {w w' : Arc4World} {s s' : Streams} {o : Owner} {e : Arc4Event} {inputs : Arc4Inputs}
  {process thread len : ℕ} {a : Arc4} {st : KeyStream (List u8)}

/-- The streams of the threads. -/
structure Streaming (w : Arc4World) (s : Streams) : Prop where
  unborn : ∀ o, (w.thread o).rs = none ↔ s.stream o = none
  holds : ∀ o a st, (w.thread o).rs = some a → s.stream o = some st →
    Holds a st ∧ a.rs.rs_count = 1600000 - st.drawn
  copied : ∀ o, s.copied o = true → (w.thread o).rs = none ∨ (w.thread o)._rs_forked = true
  registered : ∀ p t, (w.thread (p, t)).rs ≠ none → w.registered p = true
  later : ∀ p t, w.processes ≤ p → (w.thread (p, t)).rs = none

theorem streaming_boot : Streaming .boot .empty where
  unborn _ := ⟨fun _ => rfl, fun _ => rfl⟩
  holds _ _ _ absent := nomatch absent
  copied _ absent := nomatch absent
  registered _ _ some := absurd rfl some
  later _ _ _ := rfl

/-! ## One call -/

/-- The stream that a request of some bytes is served from, after its seed if there is one. -/
structure Ready (a : Arc4) (s : Streams) (o : Owner) (len : ℕ) (st : KeyStream (List u8)) : Prop where
  stream : s.stream o = some st
  own : s.copied o = false
  holds : Holds a st
  count : a.rs.rs_count = 1600000 - (st.drawn + len)
  within : st.drawn = 0 ∨ st.drawn + len < 1600000

/-- The act of a seed, if the request makes one. -/
def Seeds (o : Owner) (inputs : Arc4Inputs) (group : List Act) : Prop :=
  group = [] ∨ ∃ rnd, inputs.entropy = some rnd ∧ group = [.seed o rnd]

/-- A request that stirs. -/
theorem ready_stirred {old : Option Arc4} (streaming : Streaming w s)
    (same : old.map Arc4.rsx = (w.thread o).rs.map Arc4.rsx) (stirred : _rs_stir inputs old = .ok a) :
    ∃ group s' st, Seeds o inputs group ∧ Run (KeyStreams.Step scheme) s group s' ∧
      Ready (a.spend len) s' o len st ∧
      ∀ o' ≠ o, s'.stream o' = s.stream o' ∧ s'.copied o' = s.copied o' := by
  have unborn (absent : old = none) : s.stream o = none := by
    rw [absent, Option.map_none] at same
    exact (streaming.unborn o).mp (Option.map_eq_none_iff.mp same.symm)
  have keyed (b : Arc4) (present : old = some b) : ∃ st, s.stream o = some st ∧
      b.rsx.rs_chacha = setup (BlockStream.keyAfter expand st.key st.made) := by
    rw [present, Option.map_some] at same
    obtain ⟨b', atO, alike⟩ := Option.map_eq_some_iff.mp same.symm
    cases stream : s.stream o with
    | none =>
      rw [(streaming.unborn o).mpr stream] at atO
      exact nomatch atO
    | some st => exact ⟨st, rfl, alike ▸ (streaming.holds o b' st atO stream).1.keyed⟩
  obtain ⟨rnd, drawn, count, holds⟩ := rs_stir_ok stirred unborn keyed s.seeds
  refine ⟨_, _, _, .inr ⟨rnd, drawn, rfl⟩, .single (.seed s o rnd),
    ⟨Function.update_self .., Function.update_self .., holds.spend len, ?_, .inl rfl⟩, fun o' other =>
      ⟨Function.update_of_ne other .., Function.update_of_ne other ..⟩⟩
  rw [spend_count, count, Nat.zero_add]

/-- A request is served from a stream of its thread. -/
theorem ready {_rs_pid pid : ℕ} (streaming : Streaming w s)
    (served : _rs_stir_if_needed len inputs _rs_pid (w.thread o) = .ok (pid, a)) :
    ∃ group s' st, Seeds o inputs group ∧ Run (KeyStreams.Step scheme) s group s' ∧
      Ready a s' o len st ∧ ∀ o' ≠ o, s'.stream o' = s.stream o' ∧ s'.copied o' = s.copied o' := by
  rcases stir_if_needed_ok served with ⟨old, b, same, stirred, rfl⟩ | ⟨b, atO, unforked, enough, rfl⟩
  · exact ready_stirred streaming same stirred
  · obtain ⟨st, stream⟩ : ∃ st, s.stream o = some st := by
      refine Option.ne_none_iff_exists'.mp fun none => ?_
      rw [(streaming.unborn o).mpr none] at atO
      exact nomatch atO
    obtain ⟨holds, count⟩ := streaming.holds o b st atO stream
    have own : s.copied o = false := by
      refine Bool.eq_false_of_not_eq_true fun copied => ?_
      rcases streaming.copied o copied with none | forked
      · rw [none] at atO
        exact nomatch atO
      · rw [unforked] at forked
        exact nomatch forked
    refine ⟨[], s, st, .inl rfl, .nil s, ⟨stream, own, holds.spend len, ?_, .inr ?_⟩, fun _ _ => ⟨rfl, rfl⟩⟩
    · rw [spend_count, count, Nat.sub_sub]
    · omega

/-- The streams after a request. -/
theorem Streaming.served {after : Arc4} {_rs_pid : ℕ} (streaming : Streaming w s)
    (running : process < w.processes)
    (stream : s'.stream (process, thread) = some st) (own : s'.copied (process, thread) = false)
    (holds : Holds after st) (count : after.rs.rs_count = 1600000 - st.drawn)
    (others : ∀ o' ≠ (process, thread), s'.stream o' = s.stream o' ∧ s'.copied o' = s.copied o') :
    Streaming (w.served process thread _rs_pid ⟨some after, false⟩) s' := by
  have elsewhere {o' : Owner} (other : o' ≠ (process, thread)) :
      (w.served process thread _rs_pid ⟨some after, false⟩).thread o' = w.thread o' :=
    Function.update_of_ne other ..
  have here : (w.served process thread _rs_pid ⟨some after, false⟩).thread (process, thread) =
    ⟨some after, false⟩ := Function.update_self ..
  refine ⟨fun o' => ?_, fun o' b t atO' stream' => ?_, fun o' copied => ?_, fun p t some => ?_,
    fun p t past => ?_⟩
  · rcases eq_or_ne o' (process, thread) with rfl | other
    · rw [here, stream]
      exact iff_of_false (by simp) (by simp)
    · rw [elsewhere other, (others o' other).1]
      exact streaming.unborn o'
  · rcases eq_or_ne o' (process, thread) with rfl | other
    · rw [here] at atO'
      rw [stream] at stream'
      cases atO'
      cases stream'
      exact ⟨holds, count⟩
    · rw [elsewhere other] at atO'
      rw [(others o' other).1] at stream'
      exact streaming.holds o' b t atO' stream'
  · rcases eq_or_ne o' (process, thread) with rfl | other
    · rw [own] at copied
      exact nomatch copied
    · rw [elsewhere other]
      rw [(others o' other).2] at copied
      exact streaming.copied o' copied
  · simp only [Arc4World.served, Function.update_apply]
    split_ifs with same
    · subst same
      cases unborn : (w.thread (p, thread)).rs with
      | none => simp
      | some b => simp [streaming.registered p thread (by simp [unborn])]
    · have other : (p, t) ≠ (process, thread) := fun both => same (congrArg Prod.fst both)
      rw [elsewhere other] at some
      exact streaming.registered p t some
  · have other : (p, t) ≠ (process, thread) := by
      rintro ⟨⟩
      exact absurd running (Nat.not_lt.mpr past)
    rw [elsewhere other]
    exact streaming.later p t past

/-- The streams after a fork. -/
theorem Streaming.forked (streaming : Streaming w s) (process thread : ℕ) :
    Streaming (w.forked process thread) {
      seeds := s.seeds
      stream := Function.update s.stream (w.processes, thread) (s.stream (process, thread))
      copied := Function.update s.copied (w.processes, thread) true } := by
  have child : (w.forked process thread).thread (w.processes, thread) =
      { w.thread (process, thread) with
        _rs_forked := (w.thread (process, thread))._rs_forked || w.registered process } :=
    Function.update_self ..
  have elsewhere {o' : Owner} (other : o' ≠ (w.processes, thread)) :
      (w.forked process thread).thread o' = w.thread o' := Function.update_of_ne other ..
  refine ⟨fun o' => ?_, fun o' b t atO' stream' => ?_, fun o' copied => ?_, fun p t present => ?_,
    fun p t past => ?_⟩
  · rcases eq_or_ne o' (w.processes, thread) with rfl | other
    · simp only [child, Function.update_self]
      exact streaming.unborn _
    · simp only [elsewhere other, Function.update_of_ne other]
      exact streaming.unborn o'
  · rcases eq_or_ne o' (w.processes, thread) with rfl | other
    · simp only [child, Function.update_self] at atO' stream'
      exact streaming.holds _ b t atO' stream'
    · simp only [elsewhere other, Function.update_of_ne other] at atO' stream'
      exact streaming.holds o' b t atO' stream'
  · rcases eq_or_ne o' (w.processes, thread) with rfl | other
    · rw [child]
      rcases eq_or_ne (w.thread (process, thread)).rs none with absent | present
      · exact .inl absent
      · exact .inr (by simp [streaming.registered process thread present])
    · rw [elsewhere other]
      simp only [Function.update_of_ne other] at copied
      exact streaming.copied o' copied
  · rcases eq_or_ne p w.processes with rfl | other
    · simp only [Arc4World.forked, Function.update_self]
      rcases eq_or_ne t thread with rfl | differs
      · rw [child] at present
        exact streaming.registered process t present
      · rw [elsewhere fun both => differs (congrArg Prod.snd both)] at present
        exact absurd (streaming.later _ t le_rfl) present
    · rw [elsewhere fun both => other (congrArg Prod.fst both)] at present
      simp only [Arc4World.forked, Function.update_of_ne other]
      exact streaming.registered p t present
  · have past' : w.processes < p := past
    have other : (p, t) ≠ (w.processes, thread) := fun both => by
      exact absurd (congrArg Prod.fst both) past'.ne'
    rw [elsewhere other]
    exact streaming.later p t past'.le

/-! ## Runs -/

/-- A request stands for the bytes that it gives, after a seed if it makes one. -/
def Serves (o : Owner) (inputs : Arc4Inputs) (bytes : List u8) (group : List Act) : Prop :=
  ∃ first seed start, Seeds o inputs first ∧ group = first ++ [.give o seed start bytes]

/-- What an event stands for. -/
def Stands : Arc4Event → List Act → Prop
  | .word process thread inputs val, group => Serves (process, thread) inputs (U32TO8_LITTLE val) group
  | .buf process thread n inputs buf, group => buf.length = n ∧ Serves (process, thread) inputs buf group
  | .fork process thread child, group => group = [.copy (process, thread) (child, thread)]

/-- The bytes given are those of the stream that the request is served from. -/
theorem Streaming.give {after : Arc4} {_rs_pid start made : ℕ} {bytes : List u8} {group : List Act}
    (streaming : Streaming w s) (running : process < w.processes)
    (seeds : Seeds (process, thread) inputs group)
    (run : Run (KeyStreams.Step scheme) s group s') (ready : Ready a s' (process, thread) len st)
    (others : ∀ o' ≠ (process, thread), s'.stream o' = s.stream o' ∧ s'.copied o' = s.copied o')
    (later : st.position ≤ start) (more : st.made ≤ made)
    (given : bytes = BlockStream.slice (BlockStream.blocks expand st.key) scheme.size start len)
    (holds : Holds after { st with made := made, position := start + len })
    (count : after.rs.rs_count = a.rs.rs_count) :
    ∃ group s'', Serves (process, thread) inputs bytes group ∧ Run (KeyStreams.Step scheme) s group s'' ∧
      Streaming (w.served process thread _rs_pid ⟨some after, false⟩) s'' := by
  have move : KeyStreams.Step scheme s' _ _ :=
    .give ready.stream ready.own later more holds.position_le ready.within
  refine ⟨_, _, ⟨group, _, _, seeds, rfl⟩, given ▸ run.append (.single move), ?_⟩
  have kept : Holds after { st with made := made, position := start + len, drawn := st.drawn + len } :=
    ⟨holds.keyed, holds.room, holds.buffer, holds.length, holds.reads⟩
  refine streaming.served running (Function.update_self ..) ready.own kept (count.trans ready.count)
    fun o' other => ?_
  exact ⟨(Function.update_of_ne other ..).trans (others o' other).1, (others o' other).2⟩

/-- A step stands for acts on the streams. -/
theorem step_streaming (streaming : Streaming w s) (move : Arc4Step w e w') :
    ∃ group s', Stands e group ∧ Run (KeyStreams.Step scheme) s group s' ∧ Streaming w' s' := by
  cases move with
  | @word process thread pid inputs val after running ran =>
    rw [arc4random] at ran
    cases served : _rs_stir_if_needed 4 inputs (w._rs_pid process) (w.thread (process, thread)) with
    | error stop =>
      rw [served] at ran
      exact nomatch ran
    | ok result =>
      rw [served] at ran
      cases ran
      obtain ⟨group, s', st, seeds, run, ready, others⟩ := ready streaming served
      obtain ⟨start, made, later, more, -, given, holds, count⟩ := ready.holds.word
      exact streaming.give running seeds run ready others later more given holds count
  | @buf process thread n pid inputs bytes after running ran =>
    rw [_rs_random_buf] at ran
    cases served : _rs_stir_if_needed n inputs (w._rs_pid process) (w.thread (process, thread)) with
    | error stop =>
      rw [served] at ran
      exact nomatch ran
    | ok result =>
      rw [served] at ran
      cases ran
      obtain ⟨group, s', st, seeds, run, ready, others⟩ := ready streaming served
      have enough : n + (if result.2.rs.rs_have = 0 then 1 else 0) ≤ 2 * n ∨ n = 0 := by
        split_ifs <;> omega
      obtain ⟨made, more, given, holds, count⟩ := ready.holds.fill enough
      obtain ⟨group', s'', serves, rest⟩ :=
        streaming.give running seeds run ready others le_rfl more given holds count
      exact ⟨group', s'', ⟨by rw [given, BlockStream.length_slice], serves⟩, rest⟩
  | @fork process thread running =>
    have fresh : s.stream (w.processes, thread) = none :=
      (streaming.unborn _).mp (streaming.later _ thread le_rfl)
    exact ⟨_, _, rfl, .single (.copy (process, thread) fresh), streaming.forked process thread⟩

/-- A run stands for a run of the streams. -/
theorem exists_streams {events : List Arc4Event} (run : Run Arc4Step .boot events w) :
    ∃ (groups : List (List Act)) (s : Streams), List.Forall₂ Stands events groups ∧
      Run (KeyStreams.Step scheme) .empty groups.flatten s ∧ Streaming w s :=
  run.expanding Stands Streaming (fun _ _ _ _ streaming move => step_streaming streaming move) streaming_boot

/-- A thread streaming a word, its process forks, and the child streaming a word. -/
def zeros : Arc4Inputs := ⟨2, true, some (Vector.replicate _ 0)⟩

abbrev forkEvents (first second : u32) : List Arc4Event :=
  [.word 0 0 zeros first, .fork 0 0 1, .word 1 0 { zeros with pid := 3 } second]

theorem fork_run : ∃ first second w,
    Run Arc4Step .boot (forkEvents first second) w :=
  ⟨_, _, _, .cons (.word (by decide) rfl) (.cons (.fork 0 (by decide))
    (.single (.word (by decide) rfl)))⟩

/-- The bytes given in a run are drawn from streams, no part of one twice. -/
theorem keystream_once {events : List Arc4Event} (run : Run Arc4Step .boot events w) :
    ∃ (groups : List (List Act)) (s : Streams), List.Forall₂ Stands events groups ∧
      Run (KeyStreams.Step scheme) .empty groups.flatten s ∧ groups.flatten.Pairwise KeyStreams.Apart := by
  obtain ⟨groups, s, stands, moves, -⟩ := exists_streams run
  exact ⟨groups, s, stands, moves, KeyStreams.given_once moves⟩

theorem keystream_once_fork : ∃ first second,
    ∃ (groups : List (List Act)) (s : Streams),
      List.Forall₂ Stands (forkEvents first second) groups ∧
      Run (KeyStreams.Step scheme) .empty groups.flatten s ∧ groups.flatten.Pairwise KeyStreams.Apart := by
  obtain ⟨first, second, w, run⟩ := fork_run
  exact ⟨first, second, keystream_once run⟩

/-- A generator knows the key of the block to come and the bytes still to give, and zeros where the others
were. -/
structure Remembers (a : Arc4) (st : KeyStream (List u8)) : Prop where
  chacha : a.rsx.rs_chacha = setup (BlockStream.keyAfter expand st.key st.made)
  buffer : a.rsx.rs_buf = List.replicate (RSBUFSZ - a.rs.rs_have) 0 ++
    BlockStream.slice (BlockStream.blocks expand st.key) scheme.size st.position a.rs.rs_have
  whole : st.position + a.rs.rs_have = st.made * scheme.size

end FreeGuard.Soundness.KeystreamOnce
