import Mathlib.Data.List.Basic

/-! # Finite labeled runs

`Run step s es t` is a finite run of a labeled transition relation from `s` to `t` carrying exactly
the labels `es`. An invariant is checked on one step and holds at the end of every run; a forward
simulation is checked on one step and lifts to runs with the same labels. `Guarded` restricts a
relation to the steps that meet a condition on the source state and the label, so a run of it is a
run every step of which meets the condition. `Recorded` keeps a record beside the state, which does not
influence the run.
-/

namespace FreeGuard.Machine

variable {State Label Abstract : Type*}

/-- A finite run carrying exactly its labels. -/
inductive Run (step : State → Label → State → Prop) : State → List Label → State → Prop
  | nil (s : State) : Run step s [] s
  | cons {s mid t : State} {e : Label} {es : List Label} :
      step s e mid → Run step mid es t → Run step s (e :: es) t

/-- The steps whose source and label meet a condition. -/
def Guarded (condition : State → Label → Prop) (step : State → Label → State → Prop) :
    State → Label → State → Prop :=
  fun s e t => condition s e ∧ step s e t

/-- Steps with a record, which is computed from the source state and the label. -/
def Recorded {Record : Type*} (record : State → Label → Record → Record)
    (step : State → Label → State → Prop) : State × Record → Label → State × Record → Prop :=
  fun a e b => step a.1 e b.1 ∧ b.2 = record a.1 e a.2

namespace Run

variable {step : State → Label → State → Prop} {s mid t : State} {first second : List Label}

/-- Runs compose at their shared endpoint. -/
theorem append (left : Run step s first mid) (right : Run step mid second t) :
    Run step s (first ++ second) t := by
  induction left with
  | nil => exact right
  | cons head _ ih => exact .cons head (ih right)

/-- A run over two lists of labels comes to a state between them. -/
theorem exists_append (run : Run step s (first ++ second) t) :
    ∃ middle, Run step s first middle ∧ Run step middle second t := by
  induction first generalizing s with
  | nil => exact ⟨s, .nil s, run⟩
  | cons e es ih =>
    cases run with
    | cons head rest =>
      obtain ⟨middle, left, right⟩ := ih rest
      exact ⟨middle, .cons head left, right⟩

theorem single {e : Label} (move : step s e t) : Run step s [e] t :=
  .cons move (.nil t)

/-- What one step preserves, a whole run preserves. -/
theorem invariant (inv : State → Prop) (run : Run step s first t)
    (preserved : ∀ a e b, inv a → step a e b → inv b) (start : inv s) : inv t := by
  induction run with
  | nil => exact start
  | cons head _ ih => exact ih (preserved _ _ _ start head)

/-- Steps of one relation that are steps of another give runs of the other. -/
theorem mono {other : State → Label → State → Prop} (run : Run step s first t)
    (weaker : ∀ a e b, step a e b → other a e b) : Run other s first t := by
  induction run with
  | nil => exact .nil _
  | cons head _ ih => exact .cons (weaker _ _ _ head) ih

/-- A run whose labels meet a condition in every state is a run of guarded steps. -/
theorem guard {condition : State → Label → Prop} (run : Run step s first t)
    (meets : ∀ e ∈ first, ∀ a, condition a e) : Run (Guarded condition step) s first t := by
  induction run with
  | nil => exact .nil _
  | cons head _ ih =>
    obtain ⟨now, later⟩ := List.forall_mem_cons.mp meets
    exact .cons ⟨now _, head⟩ (ih later)

/-- Every run can be recorded. -/
theorem exists_recorded {Record : Type*} (record : State → Label → Record → Record)
    (run : Run step s first t) (initial : Record) :
    ∃ final, Run (Recorded record step) (s, initial) first (t, final) := by
  induction run generalizing initial with
  | nil => exact ⟨initial, .nil _⟩
  | @cons a _ _ e _ head _ ih =>
    obtain ⟨final, rest⟩ := ih (record a e initial)
    exact ⟨final, .cons ⟨head, rfl⟩ rest⟩

/-- A computed sequence of steps is a run. -/
theorem of_foldlM {exec : State → Label → Option State}
    (sound : ∀ a e b, exec a e = some b → step a e b) (computed : first.foldlM exec s = some t) :
    Run step s first t := by
  induction first generalizing s with
  | nil =>
    cases computed
    exact .nil _
  | cons e es ih =>
    rw [List.foldlM_cons, Option.bind_eq_bind, Option.bind_eq_some_iff] at computed
    obtain ⟨middle, move, rest⟩ := computed
    exact .cons (sound _ _ _ move) (ih rest)

/-- A forward simulation on steps lifts to runs with the same labels. -/
theorem simulation {abstract : Abstract → Label → Abstract → Prop} (rel : State → Abstract → Prop)
    (run : Run step s first t)
    (forward : ∀ a e b x, rel a x → step a e b → ∃ y, abstract x e y ∧ rel b y)
    {x : Abstract} (start : rel s x) :
    ∃ y, Run abstract x first y ∧ rel t y := by
  induction run generalizing x with
  | nil => exact ⟨x, .nil x, start⟩
  | cons head _ ih =>
    obtain ⟨middle, move, related⟩ := forward _ _ _ _ start head
    obtain ⟨y, rest, finish⟩ := ih related
    exact ⟨y, .cons move rest, finish⟩

/-- A forward simulation that shows of every label a part. -/
theorem relabeling {Visible : Type*} {abstract : Abstract → Visible → Abstract → Prop}
    (label : Label → Visible) (rel : State → Abstract → Prop) (run : Run step s first t)
    (forward : ∀ a e b x, rel a x → step a e b → ∃ y, abstract x (label e) y ∧ rel b y) {x : Abstract}
    (start : rel s x) : ∃ y, Run abstract x (first.map label) y ∧ rel t y := by
  induction run generalizing x with
  | nil => exact ⟨x, .nil x, start⟩
  | cons head _ ih =>
    obtain ⟨middle, move, related⟩ := forward _ _ _ _ start head
    obtain ⟨y, rest, finish⟩ := ih related
    exact ⟨y, .cons move rest, finish⟩

/-- A forward simulation in which a step stands for the labels it emits, perhaps none. -/
theorem emitting {Visible : Type*} {abstract : Abstract → Visible → Abstract → Prop}
    {emits : State → Label → List Visible} (rel : State → Abstract → Prop) {start finish : State × List Visible}
    (run : Run (Recorded (fun s e log => log ++ emits s e) step) start first finish)
    (forward : ∀ a e b x, rel a x → step a e b → ∃ y, Run abstract x (emits a e) y ∧ rel b y)
    {x : Abstract} (related : rel start.1 x) :
    ∃ log y, finish.2 = start.2 ++ log ∧ Run abstract x log y ∧ rel finish.1 y := by
  induction run generalizing x with
  | nil s => exact ⟨[], x, (List.append_nil _).symm, .nil x, related⟩
  | cons head _ ih =>
    obtain ⟨move, record⟩ := head
    obtain ⟨middle, emitted, related'⟩ := forward _ _ _ _ related move
    obtain ⟨log, y, same, rest, done⟩ := ih related'
    exact ⟨_, y, by rw [same, record, List.append_assoc], emitted.append rest, done⟩

/-- A forward simulation in which a label stands for any list of labels that shows it. -/
theorem expanding {Visible : Type*} {abstract : Abstract → Visible → Abstract → Prop}
    (stands : Label → List Visible → Prop) (rel : State → Abstract → Prop) (run : Run step s first t)
    (forward : ∀ a e b x, rel a x → step a e b →
      ∃ group y, stands e group ∧ Run abstract x group y ∧ rel b y) {x : Abstract} (start : rel s x) :
    ∃ groups y, List.Forall₂ stands first groups ∧ Run abstract x groups.flatten y ∧ rel t y := by
  induction run generalizing x with
  | nil => exact ⟨[], x, .nil, .nil x, start⟩
  | cons head _ ih =>
    obtain ⟨group, middle, shown, moves, related⟩ := forward _ _ _ _ start head
    obtain ⟨groups, y, rest, run, finish⟩ := ih related
    exact ⟨group :: groups, y, .cons shown rest, moves.append run, finish⟩

end Run

end FreeGuard.Machine
