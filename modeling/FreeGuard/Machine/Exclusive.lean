import Mathlib.Logic.Function.Basic

/-! # Exclusive holding

Parties that each hold at most one resource, no two of them the same one. A party may let its resource
go, keep it, or take one that nobody else holds.
-/

namespace FreeGuard.Machine

variable {Party Resource : Type*}

/-- No two parties hold one resource. -/
def Exclusive (holds : Party → Option Resource) : Prop :=
  ∀ p q r, holds p = some r → holds q = some r → p = q

namespace Exclusive

variable [DecidableEq Party] {holds : Party → Option Resource} {p q : Party} {r : Resource}

omit [DecidableEq Party] in
/-- What one party holds, another does not. -/
theorem ne (exclusive : Exclusive holds) (other : q ≠ p) (mine : holds p = some r) :
    holds q ≠ some r :=
  fun theirs => other (exclusive q p r theirs mine)

/-- A party takes a resource that no other party holds. -/
theorem take (exclusive : Exclusive holds) (free : ∀ q, q ≠ p → holds q ≠ some r) :
    Exclusive (Function.update holds p (some r)) := by
  intro first second s atFirst atSecond
  by_cases one : first = p <;> by_cases two : second = p
  · simp only [one, two]
  · subst one
    rw [Function.update_self] at atFirst
    rw [Function.update_of_ne two] at atSecond
    exact absurd (atFirst ▸ atSecond) (free second two)
  · subst two
    rw [Function.update_self] at atSecond
    rw [Function.update_of_ne one] at atFirst
    exact absurd (atSecond ▸ atFirst) (free first one)
  · rw [Function.update_of_ne one] at atFirst
    rw [Function.update_of_ne two] at atSecond
    exact exclusive first second s atFirst atSecond

/-- A party lets its resource go. -/
theorem drop (exclusive : Exclusive holds) (p : Party) :
    Exclusive (Function.update holds p none) := by
  intro first second s atFirst atSecond
  rcases eq_or_ne first p with rfl | one
  · rw [Function.update_self] at atFirst
    cases atFirst
  · rcases eq_or_ne second p with rfl | two
    · rw [Function.update_self] at atSecond
      cases atSecond
    · rw [Function.update_of_ne one] at atFirst
      rw [Function.update_of_ne two] at atSecond
      exact exclusive first second s atFirst atSecond

/-- A party keeps its resource. -/
theorem keep (exclusive : Exclusive holds) (p : Party) :
    Exclusive (Function.update holds p (holds p)) := by
  rwa [Function.update_eq_self]

end Exclusive

/-! ## Parties at work

A party that holds a resource is in a phase of its work on it.
-/

section Phases

variable {Phase : Type*} {holds : Party → Option Resource} {phase : Party → Phase} {p : Party}
  {r : Resource} {next : Phase} {doing : Phase → Resource → Prop}

/-- Some party is doing something to what it holds. -/
def Busy (holds : Party → Option Resource) (phase : Party → Phase) (doing : Phase → Resource → Prop) :
    Prop := ∃ p r, holds p = some r ∧ doing (phase p) r

/-- One party is doing something to what it holds. -/
def BusyAt (p : Party) (holds : Party → Option Resource) (phase : Party → Phase)
    (doing : Phase → Resource → Prop) : Prop := ∃ r, holds p = some r ∧ doing (phase p) r

/-- Some other party is doing something to what it holds. -/
def BusyApart (p : Party) (holds : Party → Option Resource) (phase : Party → Phase)
    (doing : Phase → Resource → Prop) : Prop := ∃ q, q ≠ p ∧ BusyAt q holds phase doing

theorem busy_iff (p : Party) :
    Busy holds phase doing ↔ BusyAt p holds phase doing ∨ BusyApart p holds phase doing := by
  constructor
  · rintro ⟨q, r, held, done⟩
    by_cases same : q = p
    · exact .inl ⟨r, same ▸ held, same ▸ done⟩
    · exact .inr ⟨q, same, r, held, done⟩
  · rintro (⟨r, held, done⟩ | ⟨q, -, r, held, done⟩)
    · exact ⟨p, r, held, done⟩
    · exact ⟨q, r, held, done⟩

/-- A party that holds nothing is not at work. -/
theorem not_busyAt (free : holds p = none) : ¬BusyAt p holds phase doing := by
  rintro ⟨r, held, -⟩
  rw [free] at held
  cases held

variable [DecidableEq Party]

/-- A step of one party, checked at that party and at the others. -/
theorem forall_update {P : Party → Phase → Option Resource → Prop} {now : Option Resource}
    (here : P p next now) (others : ∀ q, q ≠ p → P q (phase q) (holds q)) :
    ∀ q, P q (Function.update phase p next q) (Function.update holds p now q) := by
  intro q
  by_cases same : q = p
  · subst same
    rwa [Function.update_self, Function.update_self]
  · rw [Function.update_of_ne same, Function.update_of_ne same]
    exact others q same

/-- After a step of one party, that party is at its next phase and the others are where they were. -/
theorem busy_update_iff {now : Option Resource} :
    Busy (Function.update holds p now) (Function.update phase p next) doing ↔
      (∃ r, now = some r ∧ doing next r) ∨ BusyApart p holds phase doing := by
  rw [busy_iff p, BusyAt, Function.update_self, Function.update_self]
  refine or_congr_right ⟨?_, ?_⟩ <;> rintro ⟨q, other, r, held, done⟩ <;>
    refine ⟨q, other, r, ?_, ?_⟩ <;> simp only [Function.update_of_ne other] at held done ⊢ <;> assumption

end Phases

end FreeGuard.Machine
