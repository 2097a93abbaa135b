import FreeGuard.Proofs.BigRace

/-! # Concurrent frees of large objects

The check of a deallocation and the removal of the entry are two steps, and only the second holds the
lock. Where no two calls look one pointer up before the first has erased it, each insertion is passed by
one call, which unmaps the block, and the counts are right. Two calls that both look up before either
erases unmap the block twice and leave a bucket with a count that is off.
-/

namespace FreeGuard.Soundness.ConcurrentFree

open Machine Model HashMap

variable {build : Build} {s t : BigRace} {event : RaceEvent} {events : List RaceEvent}
  {entries : List ((ℕ × size_t) × ℕ)} {objects : List Large} {thread objStatus : ℕ}

/-- A deallocation of a pointer is past its lookup and has not erased the entry. -/
def Claimed (s : BigRace) (p : ℕ) : Prop := ∃ thread st, s.calls thread = .found p st

/-- What holds between two steps. -/
structure CaughtOnce (s : BigRace) : Prop where
  /-- Every bucket counts its linked entries. -/
  counted : ∀ i < s.big._xmap.buckets.toNat, ∃ nodes,
    LinkedPath.IsRing s.big._xmap.links (.bucket i) nodes ∧
      (s.big._xmap.count i).toNat = nodes.length
  /-- Of the insertions of a pointer, all but the last have been passed, each once. -/
  once : ∀ p, s.passed.count p ≤ s.inserted.count p ∧ s.inserted.count p ≤ s.passed.count p + 1
  /-- A lookup passes exactly when the last insertion has not been passed. -/
  checked : ∀ p, ¬Claimed s p →
    ((s.big._xmap.find p sizeofPointer).isSome ↔ s.passed.count p < s.inserted.count p)
  /-- A region is unmapped at most as often as it was mapped. -/
  unmapped : ∃ remaining, s.maps.Perm (s.unmaps ++ remaining)
  /-- What a deallocation is about to unmap is the block of its pointer, and mapped. -/
  releases : ∀ thread ptr st, s.calls thread = .erased ptr st →
    (∀ other start size, s.calls other ≠ .inserted st start size) →
    (s.big.status st).Places ptr ∧ ∀ a, (s.big.status st).region.Covers a → s.mapped a = true

/-- The records agree with the map and the objects in existence. -/
structure Recorded (s : BigRace) (entries : List ((ℕ × size_t) × ℕ)) (objects : List Large) : Prop where
  waiting : ∀ p, (p, sizeofPointer) ∈ entries.map Prod.fst → ¬Claimed s p →
    s.inserted.count p = s.passed.count p + 1
  settled : ∀ p, (p, sizeofPointer) ∉ entries.map Prod.fst ∨ Claimed s p →
    s.inserted.count p = s.passed.count p
  maps : s.maps.Perm (s.unmaps ++ objects.map fun o => o.status.region)

/-- A step that neither starts nor ends the claim on a pointer. -/
theorem claimed_update {calls : ℕ → BigCall} {call : BigCall} {p : ℕ}
    (was : ∀ st, calls thread ≠ .found p st) (becomes : ∀ st, call ≠ .found p st) :
    (∃ other st, Function.update calls thread call other = .found p st) ↔
      ∃ other st, calls other = .found p st := by
  constructor
  · rintro ⟨other, st, found⟩
    rcases eq_or_ne other thread with rfl | different
    · rw [Function.update_self] at found
      exact absurd found (becomes st)
    · rw [Function.update_of_ne different] at found
      exact ⟨other, st, found⟩
  · rintro ⟨other, st, found⟩
    have different : other ≠ thread := by
      rintro rfl
      exact was st found
    exact ⟨other, st, by rwa [Function.update_of_ne different]⟩

/-- A claimed pointer is in the map. -/
theorem Claimed.linked (held : Held s entries objects) {p : ℕ} (claimed : Claimed s p) :
    (p, sizeofPointer) ∈ entries.map Prod.fst := by
  obtain ⟨thread, st, call⟩ := claimed
  have relies := held.relies thread
  rw [call] at relies
  exact List.mem_map_of_mem (f := Prod.fst) relies

namespace Recorded

/-- A step that changes neither the entries nor the pointers recorded nor the claims. -/
theorem congr (recorded : Recorded s entries objects) {call : BigCall} {objects' : List Large}
    (inserted : t.inserted = s.inserted) (passed : t.passed = s.passed)
    (calls : t.calls = Function.update s.calls thread call)
    (was : ∀ p st, s.calls thread ≠ .found p st) (becomes : ∀ p st, call ≠ .found p st)
    (maps : t.maps.Perm (t.unmaps ++ objects'.map fun o => o.status.region)) :
    Recorded t entries objects' := by
  have claims (p : ℕ) : Claimed t p ↔ Claimed s p := by
    rw [Claimed, calls]
    exact claimed_update (was p) (becomes p)
  refine ⟨fun p member free => ?_, fun p out => ?_, maps⟩
  · rw [inserted, passed]
    exact recorded.waiting p member fun claimed => free ((claims p).mpr claimed)
  · rw [inserted, passed]
    exact recorded.settled p (out.imp id (claims p).mp)

theorem insert (recorded : Recorded s entries objects) (held : Held s entries objects) {start : ℕ}
    {size : size_t} {entry : ℕ} (call : s.calls thread = .reserved objStatus start size) :
    Recorded { s with
        big := { s.big with
          _xmap := s.big._xmap.insert entry (objStartPtr start size) sizeofPointer objStatus }
        calls := Function.update s.calls thread (.inserted objStatus start size)
        inserted := objStartPtr start size :: s.inserted }
      (entries ++ [(Large.placed objStatus start size).entry]) objects := by
  have relies := held.relies thread
  rw [call] at relies
  obtain ⟨object, unlinked⟩ := relies
  have absent : (objStartPtr start size, sizeofPointer) ∉ entries.map Prod.fst := by
    intro member
    obtain ⟨e, inside, key⟩ := List.mem_map.mp member
    obtain ⟨o, object', rfl⟩ := held.linked e inside
    have same := held.eq_of_ptr object' object (Prod.mk.inj key).1
    exact unlinked (List.mem_map.mpr ⟨_, inside, by rw [same]; rfl⟩)
  have claims (p : ℕ) : (∃ other st, Function.update s.calls thread (.inserted objStatus start size)
      other = .found p st) ↔ Claimed s p := by
    apply claimed_update
    · rw [call]
      rintro st ⟨⟩
    · rintro st ⟨⟩
  refine ⟨fun p member free => ?_, fun p out => ?_, recorded.maps⟩
  · change (objStartPtr start size :: s.inserted).count p = s.passed.count p + 1
    rw [List.map_append, List.map_singleton, List.mem_append, List.mem_singleton] at member
    rcases member with old | new
    · have other : objStartPtr start size ≠ p := by
        rintro rfl
        exact absent old
      rw [List.count_cons_of_ne other]
      exact recorded.waiting p old fun claimed => free ((claims p).mpr claimed)
    · obtain rfl : p = objStartPtr start size := (Prod.mk.inj new).1
      rw [List.count_cons_self]
      exact congrArg (· + 1) (recorded.settled _ (.inl absent))
  · change (objStartPtr start size :: s.inserted).count p = s.passed.count p
    have other : objStartPtr start size ≠ p := by
      rintro rfl
      rcases out with gone | claimed
      · exact gone (by simp [Large.entry, Large.placed])
      · exact absent (Claimed.linked held ((claims _).mp claimed))
    rw [List.count_cons_of_ne other]
    refine recorded.settled p (out.imp (fun gone member => gone ?_) (claims p).mp)
    rw [List.map_append]
    exact List.mem_append_left _ member

theorem lookup (recorded : Recorded s entries objects) (held : Held s entries objects) {ptr : ℕ}
    (idle : s.calls thread = .idle) (found : s.big._xmap.find ptr sizeofPointer = some objStatus)
    (alone : ∀ other st, s.calls other ≠ .found ptr st) :
    Recorded { s with
        calls := Function.update s.calls thread (.found ptr objStatus)
        passed := ptr :: s.passed } entries objects := by
  have linked : (ptr, sizeofPointer) ∈ entries.map Prod.fst :=
    List.mem_map_of_mem (f := Prod.fst) (held.find_iff.mp found)
  have claims (p : ℕ) (other : p ≠ ptr) : (∃ u st, Function.update s.calls thread
      (.found ptr objStatus) u = .found p st) ↔ Claimed s p := by
    apply claimed_update
    · rw [idle]
      rintro st ⟨⟩
    · rintro st ⟨⟩
      exact other rfl
  refine ⟨fun p member free => ?_, fun p out => ?_, recorded.maps⟩
  · change s.inserted.count p = (ptr :: s.passed).count p + 1
    have other : p ≠ ptr := by
      rintro rfl
      exact free ⟨thread, objStatus, Function.update_self ..⟩
    rw [List.count_cons_of_ne other.symm]
    exact recorded.waiting p member fun claimed => free ((claims p other).mpr claimed)
  · change s.inserted.count p = (ptr :: s.passed).count p
    rcases eq_or_ne p ptr with rfl | other
    · rw [List.count_cons_self]
      exact recorded.waiting p linked fun ⟨u, st, call⟩ => alone u st call
    · rw [List.count_cons_of_ne other.symm]
      exact recorded.settled p (out.imp id (claims p other).mp)

theorem erase {before after : List ((ℕ × size_t) × ℕ)} {ptr : ℕ}
    (recorded : Recorded s (before ++ ((ptr, sizeofPointer), objStatus) :: after) objects)
    (gone : (ptr, sizeofPointer) ∉ (before ++ after).map Prod.fst)
    (call : s.calls thread = .found ptr objStatus) :
    Recorded { s with
      big := { s.big with _xmap := (s.big._xmap.erase ptr sizeofPointer).2 }
      calls := Function.update s.calls thread (.erased ptr objStatus) } (before ++ after) objects := by
  have claims (p : ℕ) (other : p ≠ ptr) : (∃ u st, Function.update s.calls thread
      (.erased ptr objStatus) u = .found p st) ↔ Claimed s p := by
    apply claimed_update
    · rw [call]
      rintro st ⟨⟩
      exact other rfl
    · rintro st ⟨⟩
  have settled : s.inserted.count ptr = s.passed.count ptr :=
    recorded.settled ptr (.inr ⟨thread, objStatus, call⟩)
  have members (p : ℕ) (other : p ≠ ptr) :
      (p, sizeofPointer) ∈ (before ++ ((ptr, sizeofPointer), objStatus) :: after).map Prod.fst ↔
        (p, sizeofPointer) ∈ (before ++ after).map Prod.fst := by
    simp [other]
  refine ⟨fun p member free => ?_, fun p out => ?_, recorded.maps⟩
  · have other : p ≠ ptr := by
      rintro rfl
      exact gone member
    exact recorded.waiting p ((members p other).mpr member)
      fun claimed => free ((claims p other).mpr claimed)
  · rcases eq_or_ne p ptr with rfl | other
    · exact settled
    · exact recorded.settled p (out.imp (mt (members p other).mp) (claims p other).mp)

end Recorded

/-- A step of a call that is alone at its pointer keeps both. -/
theorem step (held : Held s entries objects) (recorded : Recorded s entries objects)
    (alone : OneAtATime s event) (step : RaceStep build s event t) :
    ∃ entries' objects', Held t entries' objects' ∧ Recorded t entries' objects' := by
  cases step with
  | @reserve thread objStatus start size idle routed unused promise =>
    refine ⟨_, _, held.reserve idle (Build.large_of_condition routed) unused promise,
      recorded.congr rfl rfl rfl (by rw [idle]; rintro _ _ ⟨⟩) (by rintro _ _ ⟨⟩) ?_⟩
    exact (recorded.maps.cons _).trans List.perm_middle.symm
  | @insert thread entry objStatus start size call unused =>
    exact ⟨_, _, held.insert call unused, recorded.insert held call⟩
  | @fill thread objStatus start size call =>
    exact ⟨_, _, held.fill call, recorded.congr rfl rfl rfl (by rw [call]; rintro _ _ ⟨⟩)
      (by rintro _ _ ⟨⟩) recorded.maps⟩
  | @lookup thread ptr objStatus idle found =>
    exact ⟨_, _, held.lookup idle found alone, recorded.lookup held idle found alone⟩
  | @erase thread ptr objStatus call =>
    obtain ⟨before, after, rfl, elsewhere, next⟩ := held.erase call
    refine ⟨_, _, next, recorded.erase (fun member => ?_) call⟩
    obtain ⟨e, inside, same⟩ := List.mem_map.mp member
    exact elsewhere e inside same
  | @munmap thread ptr objStatus call =>
    obtain ⟨before, o, after, rfl, status, next⟩ := held.munmap call (alone ptr objStatus call)
    refine ⟨_, _, next, recorded.congr rfl rfl rfl (by rw [call]; rintro _ _ ⟨⟩)
      (by rintro _ _ ⟨⟩) ?_⟩
    have maps := recorded.maps
    rw [List.map_append, List.map_cons] at maps
    rw [status, List.map_append]
    exact (maps.trans (List.perm_middle.append_left _)).trans List.perm_middle
  | @release thread objStatus call =>
    exact ⟨_, _, held.release call, recorded.congr rfl rfl rfl (by rw [call]; rintro _ _ ⟨⟩)
      (by rintro _ _ ⟨⟩) recorded.maps⟩

/-- Held and recorded objects are caught once. -/
theorem caughtOnce (held : Held s entries objects) (recorded : Recorded s entries objects) :
    CaughtOnce s where
  counted _ bound := held.models.count bound
  once p := by
    by_cases linked : (p, sizeofPointer) ∈ entries.map Prod.fst ∧ ¬Claimed s p
    · have waiting := recorded.waiting p linked.1 linked.2
      omega
    · have settled := recorded.settled p (by tauto)
      omega
  checked p free := by
    rw [held.models.find, lookup_isSome_iff_mem]
    constructor
    · intro linked
      have waiting := recorded.waiting p linked free
      omega
    · intro fewer
      by_contra out
      have settled := recorded.settled p (.inl out)
      omega
  unmapped := ⟨_, recorded.maps⟩
  releases := by
    intro thread ptr st call filled
    obtain ⟨-, o, object, rfl, rfl, status⟩ := held.filled_of_erased call filled
    rw [status]
    exact ⟨held.places o object, held.regions.present _ (List.mem_map_of_mem object)⟩

theorem held_initial (links : LinkedPath.Links ListRef) (count : ℕ → size_t)
    (entryAt : ListRef → Entry ℕ ℕ) (status : ℕ → BigObjectStatus) (mapped : Mapped) :
    Held (.initial links count entryAt status mapped) [] [] := by
  have maps : Mappings (fun _ => False) (.initBigHeap links count entryAt status) mapped [] :=
    mappings_initBigHeap links count entryAt status fun _ never => never.elim
  have idle : ∀ (p q r : ℕ), (none : Option ℕ) = some r → (none : Option ℕ) = some r → p = q := by
    rintro p q r ⟨⟩
  exact ⟨maps.models, fun _ member => absurd member List.not_mem_nil, List.nodup_nil, List.nodup_nil,
    fun _ member => absurd member List.not_mem_nil, maps.regions,
    fun _ member => absurd member List.not_mem_nil, fun _ => trivial, idle, idle,
    fun _ member => absurd member List.not_mem_nil⟩

theorem recorded_initial (links : LinkedPath.Links ListRef) (count : ℕ → size_t)
    (entryAt : ListRef → Entry ℕ ℕ) (status : ℕ → BigObjectStatus) (mapped : Mapped) :
    Recorded (.initial links count entryAt status mapped) [] [] :=
  ⟨fun _ member => absurd member List.not_mem_nil, fun _ _ => rfl, .nil⟩

/-- In every interleaving in which no call looks a pointer up while another call is about to erase it,
and none unmaps before the allocation has filled the status object, large objects are caught once. -/
theorem freed_once (build : Build) (links : LinkedPath.Links ListRef) (count : ℕ → size_t)
    (entryAt : ListRef → Entry ℕ ℕ) (status : ℕ → BigObjectStatus) (mapped : Mapped)
    (run : Run (Guarded OneAtATime (RaceStep build)) (.initial links count entryAt status mapped)
      events t) : CaughtOnce t := by
  obtain ⟨entries, objects, held, recorded⟩ := run.invariant
    (fun s => ∃ entries objects, Held s entries objects ∧ Recorded s entries objects)
    (fun _ _ _ ⟨_, _, held, recorded⟩ ⟨alone, move⟩ => step held recorded alone move)
    ⟨[], [], held_initial .., recorded_initial ..⟩
  exact caughtOnce held recorded

/-! ## Two threads -/

/-- Zeroed memory with nothing mapped. -/
def zeroed : BigRace :=
  .initial ⟨fun _ => .bucket 0, fun _ => .bucket 0⟩ (fun _ => 0) (fun _ => ⟨0, 0, 0⟩)
    (fun _ => ⟨0, 0, 0⟩) fun _ => false

/-- The first allocation of the default build. -/
def allocation : List RaceEvent :=
  [.reserve 0 0x400001 0 0x300000000000, .insert 0 0, .fill 0]

/-- The first large object, ready to be freed. -/
theorem allocated : ∃ big mapped,
    Mappings (fun _ => False) big mapped [((0x300000000fff, sizeofPointer), 0)] ∧
    (big.status 0).region = ⟨0x300000000000, 0x401000⟩ ∧
    Run (Guarded OneAtATime (RaceStep .makefile)) zeroed allocation
      ⟨big, mapped, fun _ => .idle, [0x300000000fff], [], [⟨0x300000000000, 0x401000⟩], []⟩ := by
  have place : 0x300000000000 + (BigHeap.pageUpSize 0x400001 - 0x400001).toNat = 0x300000000fff := by
    decide
  have promise : MmapResult zeroed.mapped (BigHeap.pageUpSize 0x400001).toNat 0x300000000000 :=
    ⟨by decide, by decide, by decide, by decide, fun _ _ _ => rfl⟩
  have routed : Build.makefile.IF_CANARY_CONDITION 0x400001 = true := by decide
  have maps : Mappings (fun _ => False) zeroed.big zeroed.mapped [] :=
    mappings_initBigHeap _ _ _ _ fun _ never => never.elim
  have unused : 0 ∉ zeroed.big._xmap.blocks := by
    have empty : zeroed.big._xmap.Refines [] := refines_initializeMap _ (by decide) _ _ _
    exact fun member => absurd ((empty.block _).mp member) List.not_mem_nil
  let supply : Supply := ⟨0, 0, some 0x300000000000⟩
  have result : supply.mmap = some 0x300000000000 := rfl
  obtain ⟨big, mapped, ok⟩ := BigHeap.allocate_mapped 0x400001 result
  rw [place] at ok
  obtain ⟨start, made⟩ := BigHeap.allocated ok
  obtain rfl := Option.some.inj (made.result.symm.trans result)
  have large := Build.large_of_condition routed
  refine ⟨big, mapped, maps.allocate large List.not_mem_nil unused promise made, ?_,
    allocate_run rfl routed List.not_mem_nil unused result promise ok⟩
  rw [(made.places large promise).1]
  decide

/-- Freed by one thread, the first large object is caught once. -/
theorem freed_by_one : ∃ t,
    Run (Guarded OneAtATime (RaceStep .makefile)) zeroed
      (allocation ++ [.lookup 0 0x300000000fff, .erase 0, .munmap 0, .release 0]) t ∧
    CaughtOnce t := by
  obtain ⟨big, mapped, maps, -, run⟩ := allocated
  have found : big._xmap.find 0x300000000fff sizeofPointer = some 0 :=
    maps.find_of_mem (List.mem_singleton_self _)
  obtain ⟨big', ok⟩ := BigHeap.deallocate_found found
  have free : Run (Guarded OneAtATime (RaceStep .makefile))
      ⟨big, mapped, fun _ => .idle, [0x300000000fff], [], [⟨0x300000000000, 0x401000⟩], []⟩
      [.lookup 0 0x300000000fff, .erase 0, .munmap 0, .release 0] _ :=
    deallocate_run (fun _ => rfl) found ok
  have whole := run.append free
  exact ⟨_, whole, freed_once _ _ _ _ _ _ whole⟩

/-- Two threads look the first large object up before either erases it: both get past the check, the
block is unmapped twice, and a bucket is left with a wrong count. -/
theorem freed_by_two : ∃ t,
    Run (RaceStep .makefile) zeroed
      (allocation ++ [.lookup 0 0x300000000fff, .lookup 1 0x300000000fff, .erase 0, .erase 1,
        .munmap 0, .munmap 1]) t ∧
    t.inserted = [0x300000000fff] ∧ t.passed = [0x300000000fff, 0x300000000fff] ∧
    t.maps = [⟨0x300000000000, 0x401000⟩] ∧
    t.unmaps = [⟨0x300000000000, 0x401000⟩, ⟨0x300000000000, 0x401000⟩] ∧
    (∃ i < t.big._xmap.buckets.toNat, ∀ nodes,
      LinkedPath.IsRing t.big._xmap.links (.bucket i) nodes →
      (t.big._xmap.count i).toNat ≠ nodes.length) ∧
    ¬CaughtOnce t := by
  obtain ⟨big, mapped, maps, region, run⟩ := allocated
  have found : big._xmap.find 0x300000000fff sizeofPointer = some 0 :=
    maps.find_of_mem (List.mem_singleton_self _)
  have erased : (big._xmap.erase 0x300000000fff sizeofPointer).2.Models [] :=
    @HashMap.Models.erase_split _ _ _ _ _ _ _ [] [] maps.models
      fun _ member => absurd member List.not_mem_nil
  have race : Run (RaceStep .makefile)
      ⟨big, mapped, fun _ => .idle, [0x300000000fff], [], [⟨0x300000000000, 0x401000⟩], []⟩
      [.lookup 0 0x300000000fff, .lookup 1 0x300000000fff, .erase 0, .erase 1, .munmap 0, .munmap 1] _ :=
    .cons (.lookup _ rfl found) (.cons (.lookup _ rfl found) (.cons (.erase _ rfl)
      (.cons (.erase _ rfl) (.cons (.munmap _ rfl) (.single (.munmap _ rfl))))))
  refine ⟨_, (run.mono fun _ _ _ => And.right).append race, rfl, rfl, rfl, ?_, ?_, ?_⟩
  · change [(big.status 0).region, (big.status 0).region] = _
    rw [region]
  · have absent : (0x300000000fff, sizeofPointer) ∉ ([] : List ((ℕ × size_t) × ℕ)).map Prod.fst :=
      List.not_mem_nil
    refine ⟨(big._xmap.erase 0x300000000fff sizeofPointer).2.hashIndex 0x300000000fff sizeofPointer,
      ?_, ?_⟩
    · dsimp only
      rw [erased.erase_absent absent]
      exact erased.hashIndex_lt ..
    · intro nodes ring
      dsimp only at ring ⊢
      exact erased.erase_absent_miscounts absent ring
  · intro caught
    have twice : [0x300000000fff, 0x300000000fff].count 0x300000000fff ≤
        [0x300000000fff].count 0x300000000fff := (caught.once 0x300000000fff).1
    exact absurd twice (by decide)

end FreeGuard.Soundness.ConcurrentFree
