import Mathlib.Data.List.Nodup
import Mathlib.Logic.Function.Basic

/-! # Pointer paths in a link function

`Path next head xs stop` says that following `next` from `head` visits exactly the nodes `xs`, in
order, and then arrives at `stop`. A null-terminated list is a path to the null node; a circular
list is a path that returns to its own head. The rules say what one link update does to a path:
nothing when the updated node is not on it, and a splice when it is the last node.
-/

namespace FreeGuard.LinkedPath

variable {α : Type*}

/-- Following `next` from `head` visits `xs` and then arrives at `stop`. -/
def Path (next : α → α) : α → List α → α → Prop
  | head, [], stop => head = stop
  | head, x :: xs, stop => head = x ∧ Path next (next x) xs stop

variable {next other : α → α} {head mid stop node x : α} {xs ys : List α}

@[simp] theorem path_nil : Path next head [] stop ↔ head = stop := Iff.rfl

@[simp] theorem path_cons : Path next head (x :: xs) stop ↔ head = x ∧ Path next (next x) xs stop :=
  Iff.rfl

/-- A path is determined by the links of its own nodes. -/
theorem Path.frame (path : Path next head xs stop) (same : ∀ y ∈ xs, other y = next y) :
    Path other head xs stop := by
  induction xs generalizing head with
  | nil => exact path
  | cons y ys ih =>
    obtain ⟨rfl, tail⟩ := path
    refine ⟨rfl, ?_⟩
    rw [same head (List.mem_cons_self ..)]
    exact ih tail (fun z member => same z (List.mem_cons_of_mem _ member))

theorem path_append : Path next head (xs ++ ys) stop ↔
    ∃ mid, Path next head xs mid ∧ Path next mid ys stop := by
  induction xs generalizing head with
  | nil => simp
  | cons y rest ih => simp [ih, and_assoc]

/-- The last node of a path links to its stop. -/
theorem path_concat : Path next head (xs ++ [x]) stop ↔ Path next head xs x ∧ next x = stop := by
  simp [path_append]

/-- A path starts at its first node, or at its stop when it has none. -/
theorem Path.head_eq (path : Path next head xs stop) : head = xs.head?.getD stop := by
  cases xs with
  | nil => exact path
  | cons y ys => exact path.1

/-- The links of a path's nodes lead to its nodes or its stop. -/
theorem Path.next_mem (path : Path next head xs stop) (inside : x ∈ xs) :
    next x ∈ xs ∨ next x = stop := by
  obtain ⟨before, after, rfl⟩ := List.append_of_mem inside
  obtain ⟨_, _, _, rest⟩ := path_append.mp path
  cases after with
  | nil => exact .inr rest
  | cons y ys => exact .inl (by simp [rest.1])

/-- A path that starts among nodes whose links stay among them stops there too. -/
theorem Path.stop_mem {p : α → Prop} (path : Path next head xs stop) (closed : ∀ n, p n → p (next n))
    (start : p head) : p stop := by
  induction xs generalizing head with
  | nil => exact path ▸ start
  | cons y ys ih =>
    obtain ⟨rfl, tail⟩ := path
    exact ih tail (closed _ start)

/-- Two paths from one node to a stop that neither visits are the same path. -/
theorem Path.unique (left : Path next head xs stop) (right : Path next head ys stop)
    (leftStop : stop ∉ xs) (rightStop : stop ∉ ys) : xs = ys := by
  induction xs generalizing head ys with
  | nil =>
    cases ys with
    | nil => rfl
    | cons y rest => exact absurd (left ▸ right.1 ▸ List.mem_cons_self ..) rightStop
  | cons y rest ih =>
    cases ys with
    | nil => exact absurd (right ▸ left.1 ▸ List.mem_cons_self ..) leftStop
    | cons z others =>
      obtain ⟨rfl, left⟩ := left
      obtain ⟨rfl, right⟩ := right
      rw [ih left right (fun member => leftStop (List.mem_cons_of_mem _ member))
        (fun member => rightStop (List.mem_cons_of_mem _ member))]

/-- A path to a stop that it does not visit visits no node twice. -/
theorem Path.nodup (path : Path next head xs stop) (off : stop ∉ xs) : xs.Nodup := by
  induction xs generalizing head with
  | nil => exact List.nodup_nil
  | cons y ys ih =>
    have restOff : stop ∉ ys := fun member => off (List.mem_cons_of_mem _ member)
    refine List.nodup_cons.mpr ⟨fun again => ?_, ih path.2 restOff⟩
    obtain ⟨before, after, rfl⟩ := List.append_of_mem again
    obtain ⟨_, _, _, later⟩ := path_append.mp path.2
    -- the path from the second visit on is also the path from the first
    have second : Path next y (y :: after) stop := ⟨rfl, later⟩
    have first : Path next y (y :: (before ++ y :: after)) stop := ⟨rfl, path.2⟩
    have same := second.unique first (fun member => restOff (List.mem_append_right _ member)) off
    have lengths := congrArg List.length same
    simp only [List.length_cons, List.length_append] at lengths
    omega

variable [DecidableEq α]

instance decidablePath (next : α → α) : (head : α) → (xs : List α) → (stop : α) →
    Decidable (Path next head xs stop)
  | head, [], stop => inferInstanceAs (Decidable (head = stop))
  | head, x :: xs, stop =>
    have := decidablePath next (next x) xs stop
    inferInstanceAs (Decidable (head = x ∧ Path next (next x) xs stop))

/-- Writing the link of a node off the path leaves the path alone. -/
theorem Path.update_off (path : Path next head xs stop) (off : node ∉ xs) (value : α) :
    Path (Function.update next node value) head xs stop :=
  path.frame fun y member => Function.update_of_ne (by rintro rfl; exact off member) _ _

/-- Redirecting the last node of a path changes only where the path stops. -/
theorem Path.redirect_last (path : Path next head (xs ++ [x]) stop) (off : x ∉ xs) (target : α) :
    Path (Function.update next x target) head (xs ++ [x]) target := by
  obtain ⟨front, _⟩ := path_concat.mp path
  exact path_concat.mpr ⟨front.update_off off target, Function.update_self ..⟩

/-- A node linked to the head of a path becomes the new head. -/
theorem Path.push_front (path : Path next head xs stop) (fresh : node ∉ xs) :
    Path (Function.update next node head) node (node :: xs) stop :=
  ⟨rfl, by rw [Function.update_self]; exact path.update_off fresh head⟩

/-- Redirecting the last node of one path to the head of a disjoint path concatenates them. -/
theorem Path.splice {tail : α} (first : Path next head (xs ++ [x]) mid)
    (second : Path next tail ys stop) (last : x ∉ xs) (apart : x ∉ ys) :
    Path (Function.update next x tail) head (xs ++ [x] ++ ys) stop :=
  path_append.mpr ⟨tail, first.redirect_last last tail, second.update_off apart tail⟩

end FreeGuard.LinkedPath
