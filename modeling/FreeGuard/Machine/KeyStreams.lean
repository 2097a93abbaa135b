import FreeGuard.Machine.Run
import FreeGuard.ToMathlib.BlockStream

/-! # Generators with keys that are erased

Every owner draws from a stream of its own, which a seed starts. A new owner may begin with a copy of
another one's stream, and then has to be seeded before it draws. However seeding, drawing and copying
interleave, no byte of a stream is given twice, and only one owner is given bytes of it.
-/

namespace FreeGuard.Machine

/-- How keys are made and used. -/
structure KeyScheme (Entropy Key Byte : Type*) where
  /-- The next key, and the block that comes with it. -/
  expand : Key → Key × List Byte
  size : ℕ
  length_expand : ∀ k, (expand k).2.length = size
  /-- The key of the first seed of an owner. -/
  start : Entropy → Key
  /-- The key of a later seed, for which the next key of the old stream is used up. -/
  mix : Entropy → Key → Key
  /-- The bytes that may be drawn from one seed in more than one draw. -/
  limit : ℕ

/-- The stream of an owner: the number and the key of its seed, the blocks made, the bytes given or passed
over, and the bytes given. -/
structure KeyStream (Key : Type*) where
  seed : ℕ
  key : Key
  made : ℕ
  position : ℕ
  drawn : ℕ

/-- The key that a seed gives to the owner of a stream or of none. -/
def KeyScheme.newKey {Entropy Key Byte : Type*} (scheme : KeyScheme Entropy Key Byte) (entropy : Entropy) :
    Option (KeyStream Key) → Key
  | none => scheme.start entropy
  | some st => scheme.mix entropy (BlockStream.keyAfter scheme.expand st.key (st.made + 1))

structure KeyStreams (Owner Key : Type*) where
  seeds : ℕ
  stream : Owner → Option (KeyStream Key)
  /-- The stream is a copy. -/
  copied : Owner → Bool

inductive KeyStreamAct (Owner Entropy Byte : Type*) where
  | seed (o : Owner) (entropy : Entropy)
  | give (o : Owner) (seed start : ℕ) (bytes : List Byte)
  | copy (o o' : Owner)

namespace KeyStreams

variable {Owner Entropy Key Byte : Type*} [DecidableEq Owner] [Inhabited Byte]
  {scheme : KeyScheme Entropy Key Byte} {s s' : KeyStreams Owner Key} {o : Owner}
  {a b : KeyStreamAct Owner Entropy Byte} {acts : List (KeyStreamAct Owner Entropy Byte)}

def empty : KeyStreams Owner Key := ⟨0, fun _ => none, fun _ => false⟩

inductive Step (scheme : KeyScheme Entropy Key Byte) :
    KeyStreams Owner Key → KeyStreamAct Owner Entropy Byte → KeyStreams Owner Key → Prop
  | seed (s : KeyStreams Owner Key) (o : Owner) (entropy : Entropy) :
      Step scheme s (.seed o entropy) {
        seeds := s.seeds + 1
        stream := Function.update s.stream o (some ⟨s.seeds, scheme.newKey entropy (s.stream o), 0, 0, 0⟩)
        copied := Function.update s.copied o false }
  | give {s : KeyStreams Owner Key} {o : Owner} {st : KeyStream Key} {start count made : ℕ} :
      s.stream o = some st → s.copied o = false → st.position ≤ start →
      st.made ≤ made → start + count ≤ made * scheme.size →
      st.drawn = 0 ∨ st.drawn + count < scheme.limit →
      Step scheme s
        (.give o st.seed start
          (BlockStream.slice (BlockStream.blocks scheme.expand st.key) scheme.size start count))
        { s with
          stream := Function.update s.stream o
            (some { st with made := made, position := start + count, drawn := st.drawn + count }) }
  | copy {s : KeyStreams Owner Key} {o' : Owner} (o : Owner) : s.stream o' = none →
      Step scheme s (.copy o o') {
        seeds := s.seeds
        stream := Function.update s.stream o' (s.stream o)
        copied := Function.update s.copied o' true }

/-- Bytes given later from the same seed go to the same owner, and lie behind. -/
def Apart : KeyStreamAct Owner Entropy Byte → KeyStreamAct Owner Entropy Byte → Prop
  | .give o seed start bytes, .give o' seed' start' _ => seed = seed' → o = o' ∧ start + bytes.length ≤ start'
  | _, _ => True

/-- Every stream comes from a seed, and one that is no copy has its seed for itself. -/
structure Own (s : KeyStreams Owner Key) : Prop where
  seeded : ∀ o st, s.stream o = some st → st.seed < s.seeds
  single : ∀ o o' st st', s.stream o = some st → s.stream o' = some st' → s.copied o = false →
    s.copied o' = false → st.seed = st'.seed → o = o'

omit [DecidableEq Owner] in
theorem own_empty : Own (empty : KeyStreams Owner Key) where
  seeded _ _ absent := nomatch absent
  single _ _ _ _ absent := nomatch absent

theorem Own.step (own : Own s) (move : Step scheme s a s') : Own s' := by
  cases move with
  | seed o entropy =>
    refine ⟨fun p st stream => ?_, fun p q st st' atP atQ ownP ownQ same => ?_⟩
    · simp only [Function.update_apply] at stream
      split_ifs at stream with at_o
      · cases stream
        exact Nat.lt_succ_self _
      · exact (own.seeded p st stream).trans (Nat.lt_succ_self _)
    · simp only [Function.update_apply] at atP atQ ownP ownQ
      split_ifs at atP atQ ownP ownQ with isP isQ isQ
      · rw [isP, isQ]
      · cases atP
        exact absurd (own.seeded q st' atQ) (by simp [← same])
      · cases atQ
        exact absurd (own.seeded p st atP) (by simp [same])
      · exact own.single p q st st' atP atQ ownP ownQ same
  | @give o st start count made stream mine =>
    have before (p : Owner) (st' : KeyStream Key)
        (atP : Function.update s.stream o (some ⟨st.seed, st.key, made, start + count, st.drawn + count⟩) p =
          some st') : ∃ old, s.stream p = some old ∧ old.seed = st'.seed := by
      simp only [Function.update_apply] at atP
      split_ifs at atP with at_o
      · cases atP
        exact ⟨st, at_o ▸ stream, rfl⟩
      · exact ⟨st', atP, rfl⟩
    refine ⟨fun p st' atP => ?_, fun p q st st' atP atQ ownP ownQ same => ?_⟩
    · obtain ⟨old, stream', seed⟩ := before p st' atP
      exact seed ▸ own.seeded p old stream'
    · obtain ⟨first, streamP, seedP⟩ := before p _ atP
      obtain ⟨second, streamQ, seedQ⟩ := before q _ atQ
      exact own.single p q first second streamP streamQ ownP ownQ (by rw [seedP, seedQ, same])
  | @copy o' o fresh =>
    refine ⟨fun p st stream => ?_, fun p q st st' atP atQ ownP ownQ same => ?_⟩
    · simp only [Function.update_apply] at stream
      split_ifs at stream with at_o
      · exact own.seeded o st stream
      · exact own.seeded p st stream
    · simp only [Function.update_apply] at atP atQ ownP ownQ
      split_ifs at atP atQ ownP ownQ with isP isQ
      exact own.single p q st st' atP atQ ownP ownQ same

/-- Bytes of a seed that there is already go to its owner, from its position on. -/
def Ahead (s : KeyStreams Owner Key) : KeyStreamAct Owner Entropy Byte → Prop
  | .give o seed start _ => seed < s.seeds →
      ∃ st, s.stream o = some st ∧ s.copied o = false ∧ st.seed = seed ∧ st.position ≤ start
  | _ => True

/-- What is ahead after a step was ahead before it. -/
theorem Ahead.before (move : Step scheme s a s') (ahead : Ahead s' b) : Ahead s b := by
  cases b with
  | give p seed first bytes =>
    intro old
    cases move with
    | seed o entropy =>
      obtain ⟨st, stream, mine, same, later⟩ := ahead (old.trans (Nat.lt_succ_self _))
      simp only [Function.update_apply] at stream mine
      split_ifs at stream mine with at_o
      · cases stream
        exact absurd old (by simp [← same])
      · exact ⟨st, stream, mine, same, later⟩
    | @give o st start count made stream mine position =>
      obtain ⟨st', stream', mine', same, later⟩ := ahead old
      simp only [Function.update_apply] at stream'
      split_ifs at stream' with at_o
      · cases stream'
        exact ⟨st, at_o ▸ stream, mine', same, by simp only at later; omega⟩
      · exact ⟨st', stream', mine', same, later⟩
    | @copy o' o fresh =>
      obtain ⟨st', stream', mine', same, later⟩ := ahead old
      simp only [Function.update_apply] at stream' mine'
      split_ifs at stream' mine' with at_o
      exact ⟨st', stream', mine', same, later⟩
  | _ => trivial

/-- A step gives bytes that are apart from all that is ahead after it. -/
theorem Ahead.apart (own : Own s) (move : Step scheme s a s') (ahead : Ahead s' b) : Apart a b := by
  cases move with
  | @give o st start count made stream mine =>
    cases b with
    | give p seed first bytes =>
      rintro rfl
      have own' := own.step (.give stream mine ‹_› ‹_› ‹_› ‹_›)
      obtain ⟨st', stream', mine', same, later⟩ := ahead (own.seeded o st stream)
      have owner := own'.single o p _ st' (Function.update_self ..) stream' mine mine' same.symm
      subst owner
      simp only [Function.update_self] at stream'
      cases stream'
      exact ⟨rfl, by rwa [BlockStream.length_slice]⟩
    | _ => trivial
  | _ => cases b <;> trivial

/-- What a step gives is ahead of it. -/
theorem ahead_step (move : Step scheme s a s') : Ahead s a := by
  cases move with
  | give stream mine later => exact fun _ => ⟨_, stream, mine, rfl, later⟩
  | _ => trivial

theorem run_apart (own : Own s) (run : Run (Step scheme) s acts s') :
    acts.Pairwise Apart ∧ ∀ a ∈ acts, Ahead s a := by
  induction run with
  | nil => exact ⟨.nil, fun _ among => nomatch among⟩
  | @cons s middle t a acts move _ ih =>
    obtain ⟨pairwise, ahead⟩ := ih (own.step move)
    refine ⟨.cons (fun b among => (ahead b among).apart own move) pairwise, ?_⟩
    rw [List.forall_mem_cons]
    exact ⟨ahead_step move, fun b among => (ahead b among).before move⟩

/-- No byte of a stream is given twice. -/
theorem given_once (run : Run (Step scheme) (empty : KeyStreams Owner Key) acts s) :
    acts.Pairwise Apart :=
  (run_apart own_empty run).1

/-- The stream of a seed, where it is no copy, has come to a position. -/
def Reached (seed position : ℕ) (s : KeyStreams Owner Key) : Prop :=
  seed < s.seeds ∧ ∀ o st, s.stream o = some st → s.copied o = false → st.seed = seed → position ≤ st.position

theorem Reached.step {seed position : ℕ} (reached : Reached seed position s)
    (move : Step scheme s a s') : Reached seed position s' := by
  obtain ⟨old, before⟩ := reached
  cases move with
  | seed o entropy =>
    refine ⟨old.trans (Nat.lt_succ_self _), fun p st stream mine same => ?_⟩
    simp only [Function.update_apply] at stream mine
    split_ifs at stream mine with at_o
    · cases stream
      exact absurd old (by simp [← same])
    · exact before p st stream mine same
  | @give o st start count made stream mine later =>
    refine ⟨old, fun p st' stream' mine' same => ?_⟩
    simp only [Function.update_apply] at stream'
    split_ifs at stream' with at_o
    · cases stream'
      exact (before o st stream mine same).trans (later.trans (Nat.le_add_right ..))
    · exact before p st' stream' mine' same
  | @copy o' o fresh =>
    refine ⟨old, fun p st stream mine same => ?_⟩
    simp only [Function.update_apply] at stream mine
    split_ifs at stream mine with at_o
    exact before p st stream mine same

/-- All bytes given of a stream come before its position. -/
theorem given_before (own : Own s) (run : Run (Step scheme) s acts s') {seed start : ℕ} {bytes : List Byte}
    (given : .give o seed start bytes ∈ acts) : Reached seed (start + bytes.length) s' := by
  induction run with
  | nil => exact nomatch given
  | @cons s middle t a acts move rest ih =>
    rcases List.mem_cons.mp given with rfl | later
    · refine rest.invariant (Reached seed (start + bytes.length)) (fun _ _ _ => Reached.step) ?_
      have own' := own.step move
      cases move with
      | @give _ st _ count made stream mine =>
        rw [BlockStream.length_slice]
        refine ⟨own.seeded o st stream, fun p st' stream' mine' same => ?_⟩
        obtain rfl := own'.single o p _ st' (Function.update_self ..) stream' mine mine' same.symm
        simp only [Function.update_self] at stream'
        cases stream'
        exact le_rfl
    · exact ih (own.step move) later

end KeyStreams

end FreeGuard.Machine
