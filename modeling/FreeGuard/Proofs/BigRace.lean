import FreeGuard.Machine.Exclusive
import FreeGuard.Machine.Run
import FreeGuard.Model.BigRace
import FreeGuard.Proofs.BigHeap

/-! # Who holds a large object

`Held` says of each large object in existence where it is: a thread has reserved it, its entry is in the
map, or a thread has erased that entry and not yet unmapped it. As long as no two deallocations look the
same entry up, a status object belongs to one thread at most, and every step keeps this.
-/

namespace FreeGuard.Model

open Machine HashMap

/-- A large object: its pointer, its status object, and what the latter is to say. -/
structure Large where
  ptr : ℕ
  objStatus : ℕ
  start : ℕ
  size : size_t

namespace Large

/-- The entry of the map. -/
def entry (o : Large) : (ℕ × size_t) × ℕ := ((o.ptr, sizeofPointer), o.objStatus)

def status (o : Large) : BigObjectStatus := ⟨o.start, o.size, BigHeap.pageUpSize o.size⟩

/-- The object that an allocation places at the end of its mapping. -/
def placed (objStatus start : ℕ) (size : size_t) : Large :=
  ⟨objStartPtr start size, objStatus, start, size⟩

end Large

namespace BigCall

/-- The status object whose large object a thread has to itself. -/
def owns : BigCall → Option ℕ
  | .reserved objStatus _ _ | .found _ objStatus | .erased _ objStatus | .unmapped objStatus =>
    some objStatus
  | .idle | .inserted .. => none

/-- The status object that a thread is going to fill. -/
def fills : BigCall → Option ℕ
  | .reserved objStatus _ _ | .inserted objStatus _ _ => some objStatus
  | .idle | .found .. | .erased .. | .unmapped .. => none

/-- What a call relies on. -/
def Relies (statuses : List ℕ) (entries : List ((ℕ × size_t) × ℕ)) (objects : List Large) :
    BigCall → Prop
  | .idle => True
  | .reserved objStatus start size =>
    Large.placed objStatus start size ∈ objects ∧ objStatus ∉ entries.map Prod.snd
  | .inserted objStatus start size => Large.placed objStatus start size ∈ objects
  | .found ptr objStatus => ((ptr, sizeofPointer), objStatus) ∈ entries
  | .erased ptr objStatus =>
    (∃ o ∈ objects, o.ptr = ptr ∧ o.objStatus = objStatus) ∧ objStatus ∉ entries.map Prod.snd
  | .unmapped objStatus => objStatus ∈ statuses ∧ objStatus ∉ objects.map Large.objStatus

end BigCall

/-- The objects in existence, and where they are. -/
structure Held (s : BigRace) (entries : List ((ℕ × size_t) × ℕ)) (objects : List Large) : Prop where
  models : s.big._xmap.Models entries
  linked : ∀ e ∈ entries, ∃ o ∈ objects, o.entry = e
  once : (entries.map Prod.snd).Nodup
  distinct : (objects.map Large.objStatus).Nodup
  places : ∀ o ∈ objects, o.status.Places o.ptr
  regions : Regions (fun _ => False) s.mapped (objects.map fun o => o.status.region)
  inUse : ∀ o ∈ objects, o.objStatus ∈ s.big.statuses
  relies : ∀ thread, (s.calls thread).Relies s.big.statuses entries objects
  owner : Exclusive (BigCall.owns ∘ s.calls)
  filler : Exclusive (BigCall.fills ∘ s.calls)
  filled : ∀ o ∈ objects, s.big.status o.objStatus = o.status ∨
    ∃ thread, (BigCall.fills ∘ s.calls) thread = some o.objStatus

/-- No other call on a pointer is between its lookup and its erasure when it is looked up, and no status
object is read before it has been filled. -/
def OneAtATime (s : BigRace) : RaceEvent → Prop
  | .lookup _ ptr => ∀ other objStatus, s.calls other ≠ .found ptr objStatus
  | .munmap thread => ∀ ptr objStatus, s.calls thread = .erased ptr objStatus →
    ∀ other start size, s.calls other ≠ .inserted objStatus start size
  | _ => True

variable {build : Build} {s t : BigRace} {event : RaceEvent} {events : List RaceEvent}
  {entries : List ((ℕ × size_t) × ℕ)} {objects : List Large} {o : Large} {thread objStatus : ℕ}

namespace Held

theorem eq_of_ptr (held : Held s entries objects) {o o' : Large} (first : o ∈ objects)
    (second : o' ∈ objects) (same : o.ptr = o'.ptr) : o = o' := by
  have also := (held.places o' second).covers
  rw [← same] at also
  exact held.regions.eq_of_covers first second (held.places o first).covers also

theorem eq_of_objStatus (held : Held s entries objects) {o o' : Large} (first : o ∈ objects)
    (second : o' ∈ objects) (same : o.objStatus = o'.objStatus) : o = o' :=
  List.inj_on_of_nodup_map held.distinct first second same

/-- The entry of a pointer is the one that a lookup finds. -/
theorem find_iff (held : Held s entries objects) {ptr : ℕ} :
    s.big._xmap.find ptr sizeofPointer = some objStatus ↔
      ((ptr, sizeofPointer), objStatus) ∈ entries := by
  rw [held.models.find]
  constructor
  · intro found
    obtain ⟨before, after, rfl, -⟩ := List.lookup_eq_some_iff.mp found
    simp
  · intro member
    obtain ⟨st, found⟩ := Option.isSome_iff_exists.mp
      (lookup_isSome_iff_mem.mpr (List.mem_map_of_mem (f := Prod.fst) member))
    obtain ⟨before, after, split, -⟩ := List.lookup_eq_some_iff.mp found
    have also : ((ptr, sizeofPointer), st) ∈ entries := split ▸ by simp
    obtain ⟨o, inO, atO⟩ := held.linked _ member
    obtain ⟨o', inO', atO'⟩ := held.linked _ also
    obtain ⟨key, rfl⟩ := Prod.mk.inj atO
    obtain ⟨key', rfl⟩ := Prod.mk.inj atO'
    have same := held.eq_of_ptr inO inO' ((Prod.mk.inj key).1.trans (Prod.mk.inj key').1.symm)
    simp only [found, same]

/-- What a call owns or fills is in use. -/
theorem inUse_of_holds (held : Held s entries objects)
    (mine : (s.calls thread).owns = some objStatus ∨ (s.calls thread).fills = some objStatus) :
    objStatus ∈ s.big.statuses := by
  have relies := held.relies thread
  cases call : s.calls thread with
  | idle =>
    rw [call] at mine
    rcases mine with none | none <;> cases none
  | reserved st start size =>
    rw [call] at mine relies
    rcases mine with same | same
    all_goals
      cases same
      exact held.inUse _ relies.1
  | inserted st start size =>
    rw [call] at mine relies
    rcases mine with none | same
    · cases none
    · cases same
      exact held.inUse _ relies
  | found ptr st =>
    rw [call] at mine relies
    rcases mine with same | none
    · cases same
      obtain ⟨o, inside, same⟩ := held.linked _ relies
      exact (Prod.mk.inj same).2 ▸ held.inUse o inside
    · cases none
  | erased ptr st =>
    rw [call] at mine relies
    rcases mine with same | none
    · cases same
      obtain ⟨⟨o, inside, -, same⟩, -⟩ := relies
      exact same ▸ held.inUse o inside
    · cases none
  | unmapped st =>
    rw [call] at mine relies
    rcases mine with same | none
    · cases same
      exact relies.1
    · cases none

/-- The entries are few enough for every bucket to count one more. -/
theorem fits (held : Held s entries objects) (key : ℕ) : s.big._xmap.Fits key sizeofPointer := by
  have regions : Regions (fun _ => False) s.mapped
      ((objects.map Large.status).map BigObjectStatus.region) := by
    rw [List.map_map]
    exact held.regions
  have few := regions_few regions fun status member => by
    obtain ⟨o, inside, rfl⟩ := List.mem_map.mp member
    exact ⟨_, held.places o inside⟩
  have sub : entries.map Prod.snd ⊆ objects.map Large.objStatus := by
    intro st member
    obtain ⟨e, inside, rfl⟩ := List.mem_map.mp member
    obtain ⟨o, object, rfl⟩ := held.linked e inside
    exact List.mem_map_of_mem object
  have fewer := (held.once.subperm sub).length_le
  rw [List.length_map] at few
  rw [List.length_map, List.length_map] at fewer
  exact held.models.fits (by omega) (by decide) key

end Held

/-- What a call relies on stays when what it owns or fills is left alone. -/
theorem BigCall.Relies.frame {call : BigCall} {statuses statuses' : List ℕ}
    {entries entries' : List ((ℕ × size_t) × ℕ)} {objects objects' : List Large}
    (relies : call.Relies statuses entries objects)
    (objects_kept : ∀ o ∈ objects, call.owns = some o.objStatus ∨ call.fills = some o.objStatus →
      o ∈ objects')
    (linked_kept : ∀ e ∈ entries, call.owns = some e.2 → e ∈ entries')
    (unlinked : ∀ e ∈ entries', call.owns = some e.2 → e.2 ∈ entries.map Prod.snd)
    (absent : ∀ o ∈ objects', call.owns = some o.objStatus → o.objStatus ∈ objects.map Large.objStatus)
    (inUse : ∀ st ∈ statuses, call.owns = some st → st ∈ statuses') :
    call.Relies statuses' entries' objects' := by
  have away (st : ℕ) (mine : call.owns = some st) (out : st ∉ entries.map Prod.snd) :
      st ∉ entries'.map Prod.snd := by
    intro member
    obtain ⟨e, inside, rfl⟩ := List.mem_map.mp member
    exact out (unlinked e inside mine)
  cases call with
  | idle => trivial
  | reserved st start size =>
    exact ⟨objects_kept _ relies.1 (.inl rfl), away st rfl relies.2⟩
  | inserted st start size => exact objects_kept _ relies (.inr rfl)
  | found ptr st => exact linked_kept _ relies rfl
  | erased ptr st =>
    obtain ⟨⟨o, inside, ptr, rfl⟩, out⟩ := relies
    exact ⟨⟨o, objects_kept o inside (.inl rfl), ptr, rfl⟩, away _ rfl out⟩
  | unmapped st =>
    refine ⟨inUse st relies.1 rfl, fun member => ?_⟩
    obtain ⟨o, inside, rfl⟩ := List.mem_map.mp member
    exact relies.2 (absent o inside rfl)

/-- A call that another thread updates. -/
theorem relies_update {calls : ℕ → BigCall} {call : BigCall} {statuses : List ℕ}
    (mine : call.Relies statuses entries objects)
    (others : ∀ other, other ≠ thread → (calls other).Relies statuses entries objects) (other : ℕ) :
    (Function.update calls thread call other).Relies statuses entries objects := by
  rcases eq_or_ne other thread with rfl | different
  · rwa [Function.update_self]
  · rw [Function.update_of_ne different]
    exact others other different

/-- A call that fills what it filled before. -/
theorem fills_update {calls : ℕ → BigCall} {call : BigCall} (same : call.fills = (calls thread).fills) :
    BigCall.fills ∘ Function.update calls thread call = BigCall.fills ∘ calls := by
  rw [Function.comp_update, same]
  exact Function.update_eq_self thread _

/-- A call that owns what it owned before. -/
theorem owns_update {calls : ℕ → BigCall} {call : BigCall} (same : call.owns = (calls thread).owns) :
    BigCall.owns ∘ Function.update calls thread call = BigCall.owns ∘ calls := by
  rw [Function.comp_update, same]
  exact Function.update_eq_self thread _

/-! ## The steps of a call -/

namespace Held

theorem reserve (held : Held s entries objects) {start : ℕ} {size : size_t}
    (idle : s.calls thread = .idle) (large : LARGE_OBJECT_MIN ≤ size.toNat)
    (unused : objStatus ∉ s.big.statuses)
    (promise : MmapResult s.mapped (BigHeap.pageUpSize size).toNat start) :
    Held { s with
        big := { s.big with statuses := objStatus :: s.big.statuses }
        mapped := s.mapped.map start (BigHeap.pageUpSize size).toNat
        calls := Function.update s.calls thread (.reserved objStatus start size)
        maps := ⟨start, (BigHeap.pageUpSize size).toNat⟩ :: s.maps }
      entries (Large.placed objStatus start size :: objects) := by
  have fresh : ∀ o ∈ objects, o.objStatus ≠ objStatus := fun o inside same =>
    unused (same ▸ held.inUse o inside)
  have free (other : ℕ) : (s.calls other).owns ≠ some objStatus ∧
      (s.calls other).fills ≠ some objStatus :=
    ⟨fun mine => unused (held.inUse_of_holds (.inl mine)),
      fun mine => unused (held.inUse_of_holds (.inr mine))⟩
  have unlinked : objStatus ∉ entries.map Prod.snd := by
    intro member
    obtain ⟨e, inside, rfl⟩ := List.mem_map.mp member
    obtain ⟨o, object, rfl⟩ := held.linked e inside
    exact fresh o object rfl
  constructor
  · exact held.models
  · exact fun e inside => (held.linked e inside).imp fun o both => ⟨List.mem_cons_of_mem _ both.1, both.2⟩
  · exact held.once
  · refine List.nodup_cons.mpr ⟨fun member => ?_, held.distinct⟩
    obtain ⟨o, inside, same⟩ := List.mem_map.mp member
    exact fresh o inside same
  · exact List.forall_mem_cons.mpr ⟨promise.places large, held.places⟩
  · have unmapped : ∀ a, (Large.placed objStatus start size).status.region.Covers a →
        s.mapped a = false := fun a covers => promise.fresh a covers.1 covers.2
    exact held.regions.map unmapped
  · exact List.forall_mem_cons.mpr ⟨List.mem_cons_self ..,
      fun o inside => List.mem_cons_of_mem _ (held.inUse o inside)⟩
  · apply relies_update
    · exact ⟨List.mem_cons_self .., unlinked⟩
    · intro other _
      refine (held.relies other).frame (fun o inside _ => List.mem_cons_of_mem _ inside)
        (fun e inside _ => inside) (fun e inside _ => List.mem_map_of_mem inside) ?_
        (fun st member _ => List.mem_cons_of_mem _ member)
      intro o inside mine
      rcases List.mem_cons.mp inside with rfl | old
      · exact absurd mine (free other).1
      · exact List.mem_map_of_mem old
  · rw [Function.comp_update]
    exact held.owner.take fun other _ => (free other).1
  · rw [Function.comp_update]
    exact held.filler.take fun other _ => (free other).2
  · refine List.forall_mem_cons.mpr ⟨.inr ⟨thread, ?_⟩, fun o inside => ?_⟩
    · rw [Function.comp_update]
      exact Function.update_self ..
    · refine (held.filled o inside).imp id fun ⟨other, mine⟩ => ⟨other, ?_⟩
      have different : other ≠ thread := by
        rintro rfl
        rw [Function.comp_apply, idle] at mine
        cases mine
      rw [Function.comp_update]
      exact (Function.update_of_ne different ..).trans mine

theorem insert (held : Held s entries objects) {start entry : ℕ} {size : size_t}
    (call : s.calls thread = .reserved objStatus start size) (unused : entry ∉ s.big._xmap.blocks) :
    Held { s with
        big := { s.big with
          _xmap := s.big._xmap.insert entry (objStartPtr start size) sizeofPointer objStatus }
        calls := Function.update s.calls thread (.inserted objStatus start size)
        inserted := objStartPtr start size :: s.inserted }
      (entries ++ [(Large.placed objStatus start size).entry]) objects := by
  have relies := held.relies thread
  rw [call] at relies
  obtain ⟨object, unlinked⟩ := relies
  have owns : (BigCall.owns ∘ s.calls) thread = some objStatus := by
    rw [Function.comp_apply, call]
    rfl
  have fills : BigCall.fills ∘ Function.update s.calls thread (.inserted objStatus start size) =
      BigCall.fills ∘ s.calls := fills_update (call ▸ rfl)
  constructor
  · exact held.models.insert unused (held.fits _)
  · exact List.forall_mem_append.mpr ⟨held.linked,
      List.forall_mem_singleton.mpr ⟨_, object, rfl⟩⟩
  · rw [List.map_append, List.map_singleton]
    refine List.nodup_append.mpr ⟨held.once, List.nodup_singleton _, ?_⟩
    rintro st old other single rfl
    obtain rfl := List.mem_singleton.mp single
    exact unlinked old
  · exact held.distinct
  · exact held.places
  · exact held.regions
  · exact held.inUse
  · apply relies_update
    · exact object
    intro other different
    refine (held.relies other).frame (fun o inside _ => inside)
      (fun e inside _ => List.mem_append_left _ inside) ?_
      (fun o inside _ => List.mem_map_of_mem inside) (fun st member _ => member)
    intro e inside mine
    rcases List.mem_append.mp inside with old | new
    · exact List.mem_map_of_mem old
    · obtain rfl := List.mem_singleton.mp new
      exact absurd mine (held.owner.ne different owns)
  · rw [Function.comp_update]
    exact held.owner.drop thread
  · rw [fills]
    exact held.filler
  · rw [fills]
    exact held.filled

theorem fill (held : Held s entries objects) {start : ℕ} {size : size_t}
    (call : s.calls thread = .inserted objStatus start size) :
    Held { s with
        big := { s.big with
          status := Function.update s.big.status objStatus ⟨start, size, BigHeap.pageUpSize size⟩ }
        calls := Function.update s.calls thread .idle } entries objects := by
  have object := held.relies thread
  rw [call] at object
  refine ⟨held.models, held.linked, held.once, held.distinct, held.places, held.regions, held.inUse,
    relies_update trivial fun other _ => held.relies other, ?_, ?_, ?_⟩
  · rw [Function.comp_update]
    exact held.owner.drop thread
  · rw [Function.comp_update]
    exact held.filler.drop thread
  · intro o inside
    rcases eq_or_ne o.objStatus objStatus with same | other
    · left
      obtain rfl := held.eq_of_objStatus inside object same
      exact Function.update_self ..
    · refine (held.filled o inside).imp (fun filled => ?_) fun ⟨filler, mine⟩ => ⟨filler, ?_⟩
      · exact (Function.update_of_ne other ..).trans filled
      · have different : filler ≠ thread := by
          rintro rfl
          rw [Function.comp_apply, call] at mine
          exact other (Option.some.inj mine).symm
        rw [Function.comp_update]
        exact (Function.update_of_ne different ..).trans mine

/-- An entry of the map is owned by the one deallocation that has looked it up. -/
theorem call_of_linked (held : Held s entries objects) {ptr : ℕ}
    (linked : ((ptr, sizeofPointer), objStatus) ∈ entries)
    (mine : (s.calls thread).owns = some objStatus) : s.calls thread = .found ptr objStatus := by
  have relies := held.relies thread
  have member : objStatus ∈ entries.map Prod.snd := List.mem_map_of_mem (f := Prod.snd) linked
  cases call : s.calls thread with
  | idle =>
    rw [call] at mine
    cases mine
  | inserted st start size =>
    rw [call] at mine
    cases mine
  | reserved st start size =>
    rw [call] at mine relies
    obtain rfl := Option.some.inj mine
    exact absurd member relies.2
  | found p st =>
    rw [call] at mine relies
    obtain rfl := Option.some.inj mine
    have same := List.inj_on_of_nodup_map held.once relies linked rfl
    rw [(Prod.mk.inj (Prod.mk.inj same).1).1]
  | erased p st =>
    rw [call] at mine relies
    obtain rfl := Option.some.inj mine
    exact absurd member relies.2
  | unmapped st =>
    rw [call] at mine relies
    obtain rfl := Option.some.inj mine
    obtain ⟨o, inside, same⟩ := held.linked _ linked
    refine absurd ?_ relies.2
    rw [← (Prod.mk.inj same).2]
    exact List.mem_map_of_mem inside

theorem lookup (held : Held s entries objects) {ptr : ℕ} (idle : s.calls thread = .idle)
    (found : s.big._xmap.find ptr sizeofPointer = some objStatus)
    (alone : ∀ other st, s.calls other ≠ .found ptr st) :
    Held { s with
        calls := Function.update s.calls thread (.found ptr objStatus)
        passed := ptr :: s.passed } entries objects := by
  have linked := held.find_iff.mp found
  have fills : BigCall.fills ∘ Function.update s.calls thread (.found ptr objStatus) =
      BigCall.fills ∘ s.calls := fills_update (idle ▸ rfl)
  refine ⟨held.models, held.linked, held.once, held.distinct, held.places, held.regions, held.inUse,
    relies_update linked fun other _ => held.relies other, ?_, ?_, ?_⟩
  · rw [Function.comp_update]
    exact held.owner.take fun other _ mine => alone other objStatus (held.call_of_linked linked mine)
  · rw [fills]
    exact held.filler
  · rw [fills]
    exact held.filled

theorem erase (held : Held s entries objects) {ptr : ℕ}
    (call : s.calls thread = .found ptr objStatus) :
    ∃ before after, entries = before ++ ((ptr, sizeofPointer), objStatus) :: after ∧
      (∀ e ∈ before ++ after, e.1 ≠ (ptr, sizeofPointer)) ∧ Held { s with
        big := { s.big with _xmap := (s.big._xmap.erase ptr sizeofPointer).2 }
        calls := Function.update s.calls thread (.erased ptr objStatus) } (before ++ after) objects := by
  have linked := held.relies thread
  rw [call] at linked
  obtain ⟨before, after, rfl⟩ := List.append_of_mem linked
  have apart := List.map_notMem_of_nodup_middle held.once
  have unlinked : ∀ e ∈ before ++ after, e.2 ≠ objStatus := fun e inside =>
    List.ne_of_nodup_middle held.once inside
  have sub := List.middle_sublist before after ((ptr, sizeofPointer), objStatus)
  obtain ⟨o, object, same⟩ := held.linked _ linked
  obtain ⟨key, status⟩ := Prod.mk.inj same
  have elsewhere : ∀ e ∈ before ++ after, e.1 ≠ (ptr, sizeofPointer) := by
    intro e inside at'
    obtain ⟨o', object', rfl⟩ := held.linked e (sub.subset inside)
    have equal := held.eq_of_ptr object' object ((Prod.mk.inj at').1.trans (Prod.mk.inj key).1.symm)
    exact unlinked _ inside (equal ▸ status)
  have owns : BigCall.owns ∘ Function.update s.calls thread (.erased ptr objStatus) =
      BigCall.owns ∘ s.calls := owns_update (call ▸ rfl)
  have fills : BigCall.fills ∘ Function.update s.calls thread (.erased ptr objStatus) =
      BigCall.fills ∘ s.calls := fills_update (call ▸ rfl)
  have mine : (BigCall.owns ∘ s.calls) thread = some objStatus := by
    rw [Function.comp_apply, call]
    rfl
  refine ⟨before, after, rfl, elsewhere,
    held.models.erase_split fun e inside => elsewhere e (List.mem_append_left _ inside),
    fun e inside => held.linked e (sub.subset inside), held.once.sublist (sub.map _), held.distinct,
    held.places, held.regions, held.inUse, ?_, ?_, ?_, ?_⟩
  · apply relies_update
    · exact ⟨⟨o, object, (Prod.mk.inj key).1, status⟩, apart⟩
    intro other different
    refine (held.relies other).frame (fun o inside _ => inside) ?_
      (fun e inside _ => List.mem_map_of_mem (sub.subset inside))
      (fun o inside _ => List.mem_map_of_mem inside) (fun st member _ => member)
    intro e inside theirs
    rcases List.mem_middle.mp inside with rfl | kept
    · exact absurd theirs (held.owner.ne different mine)
    · exact kept
  · rw [owns]
    exact held.owner
  · rw [fills]
    exact held.filler
  · rw [fills]
    exact held.filled

/-- A thread about to unmap has a filled status object, unless the allocation is still to fill it. -/
theorem filled_of_erased (held : Held s entries objects) {ptr : ℕ}
    (call : s.calls thread = .erased ptr objStatus)
    (filled : ∀ other start size, s.calls other ≠ .inserted objStatus start size) :
    (∀ other, (BigCall.fills ∘ s.calls) other ≠ some objStatus) ∧
      ∃ o ∈ objects, o.ptr = ptr ∧ o.objStatus = objStatus ∧ s.big.status objStatus = o.status := by
  have relies := held.relies thread
  rw [call] at relies
  obtain ⟨⟨o, object, rfl, rfl⟩, unlinked⟩ := relies
  have mine : (BigCall.owns ∘ s.calls) thread = some o.objStatus := by
    rw [Function.comp_apply, call]
    rfl
  -- a thread that fills the object has reserved it, and then it owns it as this thread does
  have unfilled : ∀ other, (BigCall.fills ∘ s.calls) other ≠ some o.objStatus := by
    intro other theirs
    cases state : s.calls other with
    | reserved st start size =>
      rw [Function.comp_apply, state] at theirs
      obtain rfl := Option.some.inj theirs
      have also : (BigCall.owns ∘ s.calls) other = some o.objStatus := by
        rw [Function.comp_apply, state]
        rfl
      have same := held.owner _ _ _ also mine
      rw [same, call] at state
      cases state
    | inserted st start size =>
      rw [Function.comp_apply, state] at theirs
      obtain rfl := Option.some.inj theirs
      exact filled other start size state
    | idle | found | erased | unmapped =>
      rw [Function.comp_apply, state] at theirs
      cases theirs
  exact ⟨unfilled, o, object, rfl, rfl,
    (held.filled o object).resolve_right fun ⟨other, theirs⟩ => unfilled other theirs⟩

theorem munmap (held : Held s entries objects) {ptr : ℕ}
    (call : s.calls thread = .erased ptr objStatus)
    (filled : ∀ other start size, s.calls other ≠ .inserted objStatus start size) :
    ∃ before o after, objects = before ++ o :: after ∧ s.big.status objStatus = o.status ∧
      Held { s with
        mapped := s.mapped.unmap (s.big.status objStatus).start
          (s.big.status objStatus).pageUpSize.toNat
        calls := Function.update s.calls thread (.unmapped objStatus)
        unmaps := (s.big.status objStatus).region :: s.unmaps } entries (before ++ after) := by
  have relies := held.relies thread
  rw [call] at relies
  have unlinked := relies.2
  obtain ⟨unfilled, o, object, -, rfl, status⟩ := held.filled_of_erased call filled
  have owns : BigCall.owns ∘ Function.update s.calls thread (.unmapped o.objStatus) =
      BigCall.owns ∘ s.calls := owns_update (call ▸ rfl)
  have fills : BigCall.fills ∘ Function.update s.calls thread (.unmapped o.objStatus) =
      BigCall.fills ∘ s.calls := fills_update (call ▸ rfl)
  have mine : (BigCall.owns ∘ s.calls) thread = some o.objStatus := by
    rw [Function.comp_apply, call]
    rfl
  obtain ⟨before, after, rfl⟩ := List.append_of_mem object
  have apart := List.map_notMem_of_nodup_middle held.distinct
  have sub := List.middle_sublist before after o
  have stays : ∀ o' ∈ before ++ o :: after, o'.objStatus ≠ o.objStatus → o' ∈ before ++ after :=
    fun o' inside other =>
      (List.mem_middle.mp inside).resolve_left fun same => other (congrArg Large.objStatus same)
  refine ⟨before, o, after, rfl, status, held.models, ?_, held.once, held.distinct.sublist (sub.map _),
    fun o' inside => held.places o' (sub.subset inside), ?_,
    fun o' inside => held.inUse o' (sub.subset inside), ?_, ?_, ?_, ?_⟩
  · intro e inside
    obtain ⟨o', object', rfl⟩ := held.linked e inside
    refine ⟨o', stays o' object' fun same => unlinked ?_, rfl⟩
    exact same ▸ List.mem_map_of_mem (f := Prod.snd) inside
  · have regions := held.regions
    rw [List.map_append, List.map_cons] at regions
    rw [status, List.map_append]
    exact (regions.perm List.perm_middle).unmap
  · apply relies_update
    · exact ⟨held.inUse o object, apart⟩
    intro other different
    refine (held.relies other).frame ?_ (fun e inside _ => inside)
      (fun e inside _ => List.mem_map_of_mem inside)
      (fun o' inside _ => List.mem_map_of_mem (sub.subset inside)) (fun st member _ => member)
    intro o' inside theirs
    apply stays o' inside
    intro same
    rcases theirs with owned | filled
    · exact held.owner.ne different mine (same ▸ owned)
    · exact unfilled other (same ▸ filled)
  · rw [owns]
    exact held.owner
  · rw [fills]
    exact held.filler
  · rw [fills]
    exact fun o' inside => held.filled o' (sub.subset inside)

theorem release (held : Held s entries objects) (call : s.calls thread = .unmapped objStatus) :
    Held { s with
      big := { s.big with statuses := s.big.statuses.filter (· ≠ objStatus) }
      calls := Function.update s.calls thread .idle } entries objects := by
  have relies := held.relies thread
  rw [call] at relies
  have fills : BigCall.fills ∘ Function.update s.calls thread .idle = BigCall.fills ∘ s.calls :=
    fills_update (call ▸ rfl)
  have owns : (BigCall.owns ∘ s.calls) thread = some objStatus := by
    rw [Function.comp_apply, call]
    rfl
  refine ⟨held.models, held.linked, held.once, held.distinct, held.places, held.regions, ?_, ?_, ?_,
    ?_, ?_⟩
  · intro o inside
    refine List.mem_filter.mpr ⟨held.inUse o inside, decide_eq_true fun same => ?_⟩
    exact relies.2 (same ▸ List.mem_map_of_mem inside)
  · apply relies_update
    · trivial
    intro other different
    refine (held.relies other).frame (fun o inside _ => inside) (fun e inside _ => inside)
      (fun e inside _ => List.mem_map_of_mem inside) (fun o inside _ => List.mem_map_of_mem inside) ?_
    intro st member mine
    refine List.mem_filter.mpr ⟨member, decide_eq_true fun same => ?_⟩
    exact held.owner.ne different owns (same ▸ mine)
  · rw [Function.comp_update]
    exact held.owner.drop thread
  · rw [fills]
    exact held.filler
  · rw [fills]
    exact held.filled

end Held

/-! ## Calls without interruption -/

/-- The steps of an allocation one after the other are the sequential function. -/
theorem allocate_run {size : size_t} {supply : Supply} {start p : ℕ} {big : BigHeap} {mapped : Mapped}
    (idle : s.calls thread = .idle) (routed : build.IF_CANARY_CONDITION size = true)
    (unused : supply.objStatus ∉ s.big.statuses) (entry : supply.entry ∉ s.big._xmap.blocks)
    (result : supply.mmap = some start)
    (promise : MmapResult s.mapped (BigHeap.pageUpSize size).toNat start)
    (ok : s.big.allocateAtBigHeap size supply s.mapped = .ok (p, big, mapped)) :
    Run (Guarded OneAtATime (RaceStep build)) s
      [.reserve thread size supply.objStatus start, .insert thread supply.entry, .fill thread]
      { s with
        big := big
        mapped := mapped
        inserted := p :: s.inserted
        maps := ⟨start, (BigHeap.pageUpSize size).toNat⟩ :: s.maps } := by
  rw [BigHeap.allocateAtBigHeap, result] at ok
  cases ok
  have calls : Function.update (Function.update (Function.update s.calls thread
      (.reserved supply.objStatus start size)) thread (.inserted supply.objStatus start size)) thread
      .idle = s.calls := by
    rw [Function.update_idem, Function.update_idem, ← idle, Function.update_eq_self]
  have run : Run (Guarded OneAtATime (RaceStep build)) s
      [.reserve thread size supply.objStatus start, .insert thread supply.entry, .fill thread] _ :=
    .cons ⟨trivial, .reserve s idle routed unused promise⟩
      (.cons ⟨trivial, .insert _ (Function.update_self ..) entry⟩
        (.single ⟨trivial, .fill _ (Function.update_self ..)⟩))
  dsimp only at run
  rw [calls] at run
  exact run

/-- The steps of a deallocation one after the other are the sequential function. -/
theorem deallocate_run {ptr : ℕ} {big : BigHeap} {mapped : Mapped}
    (idle : ∀ other, s.calls other = .idle)
    (found : s.big._xmap.find ptr sizeofPointer = some objStatus)
    (ok : s.big.deallocateToBigHeap ptr s.mapped = .ok (big, mapped)) :
    Run (Guarded OneAtATime (RaceStep build)) s
      [.lookup thread ptr, .erase thread, .munmap thread, .release thread]
      { s with
        big := big
        mapped := mapped
        passed := ptr :: s.passed
        unmaps := (s.big.status objStatus).region :: s.unmaps } := by
  rw [BigHeap.deallocateToBigHeap, found] at ok
  cases ok
  have calls : Function.update (Function.update (Function.update (Function.update s.calls thread
      (.found ptr objStatus)) thread (.erased ptr objStatus)) thread (.unmapped objStatus)) thread
      .idle = s.calls := by
    rw [Function.update_idem, Function.update_idem, Function.update_idem, ← idle thread,
      Function.update_eq_self]
  have alone : ∀ other st, s.calls other ≠ .found ptr st := by
    intro other st call
    rw [idle other] at call
    cases call
  have filled : ∀ other st start size, Function.update (Function.update s.calls thread
      (.found ptr objStatus)) thread (.erased ptr objStatus) other ≠ .inserted st start size := by
    intro other st start size call
    rcases eq_or_ne other thread with rfl | different
    · rw [Function.update_self] at call
      cases call
    · rw [Function.update_of_ne different, Function.update_of_ne different, idle other] at call
      cases call
  have run : Run (Guarded OneAtATime (RaceStep build)) s
      [.lookup thread ptr, .erase thread, .munmap thread, .release thread] _ :=
    .cons ⟨alone, .lookup s (idle thread) found⟩
      (.cons ⟨trivial, .erase _ (Function.update_self ..)⟩
        (.cons ⟨fun _ st _ other => filled other st, .munmap _ (Function.update_self ..)⟩
          (.single ⟨trivial, .release _ (Function.update_self ..)⟩)))
  dsimp only at run
  rw [calls] at run
  exact run

end FreeGuard.Model
