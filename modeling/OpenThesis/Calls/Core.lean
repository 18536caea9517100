import Mathlib.Control.Monad.Basic

/-!
# Programs that call their environment

A program makes calls and gives up or returns; the environment lets each call succeed or fail,
depending on all calls before.
-/

namespace OpenThesis.Calls

open List

universe u

variable {γ : Type u} {α β : Type}

abbrev Environment (γ : Type u) := List γ → γ → Bool

def Program (γ : Type u) (α : Type) : Type u :=
  Environment γ → List γ → Option α × List γ

namespace Program

def giveUp : Program γ α :=
  fun _ calls => (none, calls)

instance : Monad (Program γ) where
  pure value := fun _ calls => (some value, calls)
  bind program next := fun env calls =>
    match program env calls with
    | (some value, calls) => next value env calls
    | (none, calls) => (none, calls)

def request (call : γ) : Program γ Bool :=
  fun env calls => (some (env calls call), calls ++ [call])

def require (call : γ) : Program γ Unit := do
  if ← request call then pure () else giveUp

def attempt (call : γ) : Program γ Unit := do
  let _ ← request call
  pure ()

/-- In every environment each call of the program is among the possible ones. -/
def Makes (program : Program γ α) (possible : γ → Prop) : Prop :=
  ∀ env calls, ∀ call ∈ (program env calls).2, call ∈ calls ∨ possible call

variable {possible : γ → Prop}

theorem makes_pure (value : α) : (pure value : Program γ α).Makes possible :=
  fun _ _ _ made => .inl made

theorem makes_giveUp : (giveUp : Program γ α).Makes possible :=
  fun _ _ _ made => .inl made

theorem makes_bind {program : Program γ α} {next : α → Program γ β}
    (first : program.Makes possible) (second : ∀ value, (next value).Makes possible) :
    (program >>= next).Makes possible := by
  intro env calls call made
  have earlier := first env calls call
  simp only [bind] at made
  split at made
  · rename_i value calls' ran
    rw [ran] at earlier
    rcases second value env calls' call made with before | isPossible
    · exact earlier before
    · exact .inr isPossible
  · rename_i calls' ran
    rw [ran] at earlier
    exact earlier made

variable {call : γ}

theorem makes_request (isPossible : possible call) : (request call).Makes possible := by
  intro env calls other made
  rcases mem_append.mp made with before | now
  · exact .inl before
  · exact .inr (mem_singleton.mp now ▸ isPossible)

theorem makes_require (isPossible : possible call) : (require call).Makes possible := by
  apply makes_bind (makes_request isPossible)
  intro answer
  cases answer with
  | true => exact makes_pure ()
  | false => exact makes_giveUp

theorem makes_attempt (isPossible : possible call) : (attempt call).Makes possible :=
  makes_bind (makes_request isPossible) fun _ => makes_pure ()

theorem makes_forM {δ : Type} {items : List δ} {body : δ → Program γ Unit}
    (each : ∀ item ∈ items, (body item).Makes possible) : (items.forM body).Makes possible := by
  induction items with
  | nil => exact makes_pure ()
  | cons item items ih =>
    rw [forall_mem_cons] at each
    exact makes_bind each.1 fun _ => ih each.2

/-- In the environment the program returns the value and makes exactly these calls. -/
def Returns (env : Environment γ) (program : Program γ α) (value : α) (made : List γ) : Prop :=
  ∀ calls, program env calls = (some value, calls ++ made)

variable {env : Environment γ}

theorem returns_pure (value : α) : Returns env (pure value : Program γ α) value [] := by
  intro calls
  rw [append_nil]
  rfl

theorem returns_bind {program : Program γ α} {next : α → Program γ β} {value : α} {result : β}
    (made : List γ) {made' : List γ} (first : Returns env program value made)
    (second : Returns env (next value) result made') :
    Returns env (program >>= next) result (made ++ made') := by
  intro calls
  simp only [bind, first calls, second (calls ++ made), append_assoc]

theorem returns_request {answer : Bool} (answers : ∀ calls, env calls call = answer) :
    Returns env (request call) answer [call] := by
  intro calls
  rw [request, answers]

theorem returns_require (succeeds : ∀ calls, env calls call = true) :
    Returns env (require call) () [call] :=
  returns_bind [call] (returns_request succeeds) (returns_pure ())

theorem returns_attempt {answer : Bool} (answers : ∀ calls, env calls call = answer) :
    Returns env (attempt call) () [call] :=
  returns_bind [call] (returns_request answers) (returns_pure ())

theorem returns_forM {δ : Type} {items : List δ} {body : δ → Program γ Unit}
    {made : δ → List γ} (each : ∀ item ∈ items, Returns env (body item) () (made item)) :
    Returns env (items.forM body) () (items.flatMap made) := by
  induction items with
  | nil => exact returns_pure ()
  | cons item items ih =>
    rw [forall_mem_cons] at each
    exact returns_bind (made item) each.1 (ih each.2)

end Program

end OpenThesis.Calls
