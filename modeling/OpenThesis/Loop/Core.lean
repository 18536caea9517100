import Mathlib.Order.WellFounded

/-!
# Fuel-indexed loops

A body goes round again with a new state or leaves with a result. `Yields` states total correctness.
-/

namespace OpenThesis.Loop

universe u v w

/-- How a pass of a loop ends. -/
inductive Pass (σ : Type u) (ρ : Type v) where
  | again (state : σ)
  | leave (result : ρ)

def run {σ : Type u} {ρ : Type v} (body : σ → Pass σ ρ) : Nat → σ → Option ρ
  | 0, _ => none
  | fuel + 1, state =>
    match body state with
    | .again next => run body fuel next
    | .leave result => some result

/-- From some amount of fuel on, the computation returns exactly `value`. -/
def Yields {α : Type u} (computation : Nat → Option α) (value : α) : Prop :=
  ∃ enough, ∀ fuel, enough ≤ fuel → computation fuel = some value

section

variable {α : Type u} {β : Type v} {computation : Nat → Option α} {value : α}

theorem Yields.unique {other : α} (first : Yields computation value)
    (second : Yields computation other) : value = other := by
  obtain ⟨firstFuel, firstValue⟩ := first
  obtain ⟨secondFuel, secondValue⟩ := second
  have valueEq := firstValue (max firstFuel secondFuel) (le_max_left _ _)
  have otherEq := secondValue (max firstFuel secondFuel) (le_max_right _ _)
  exact Option.some.inj (valueEq.symm.trans otherEq)

theorem Yields.map (settled : Yields computation value) (f : α → β) :
    Yields (fun fuel => (computation fuel).map f) (f value) := by
  obtain ⟨enough, returned⟩ := settled
  refine ⟨enough, fun fuel bound => ?_⟩
  simp only [returned fuel bound, Option.map_some]

end

section

variable {σ : Type u} {ρ : Type v} {body : σ → Pass σ ρ}

variable {state : σ} {result : ρ}

theorem run_succ_of_again {next : σ} (pass : body state = .again next) (fuel : Nat) :
    run body (fuel + 1) state = run body fuel next := by
  simp only [run, pass]

theorem run_succ_of_leave (pass : body state = .leave result) (fuel : Nat) :
    run body (fuel + 1) state = some result := by
  simp only [run, pass]

theorem run_mono {fuel more : Nat} (returned : run body fuel state = some result)
    (bound : fuel ≤ more) : run body more state = some result := by
  induction fuel generalizing more state with
  | zero => simp [run] at returned
  | succ fuel ih =>
    obtain ⟨more, rfl⟩ : ∃ k, more = k + 1 := ⟨more - 1, by omega⟩
    cases pass : body state with
    | again next =>
      rw [run_succ_of_again pass] at returned ⊢
      exact ih returned (by omega)
    | leave left =>
      rw [run_succ_of_leave pass] at returned ⊢
      exact returned

theorem yields_of_run {fuel : Nat} (returned : run body fuel state = some result) :
    Yields (fun fuel => run body fuel state) result :=
  ⟨fuel, fun _ bound => run_mono returned bound⟩

theorem yields_of_leave (pass : body state = .leave result) :
    Yields (fun fuel => run body fuel state) result :=
  yields_of_run (run_succ_of_leave pass 0)

theorem yields_of_again {next : σ} (pass : body state = .again next)
    (rest : Yields (fun fuel => run body fuel next) result) :
    Yields (fun fuel => run body fuel state) result := by
  obtain ⟨enough, returned⟩ := rest
  refine @yields_of_run _ _ _ _ _ (enough + 1) ?_
  rw [run_succ_of_again pass]
  exact returned enough le_rfl

theorem exists_yields_of_variant {τ : Type w} {below : τ → τ → Prop}
    (wellFounded : WellFounded below) (variant : σ → τ) (invariant : σ → Prop) (post : ρ → Prop)
    (again : ∀ state next, invariant state → body state = .again next →
      invariant next ∧ below (variant next) (variant state))
    (leave : ∀ state result, invariant state → body state = .leave result →
      post result) (initially : invariant state) :
    ∃ result, Yields (fun fuel => run body fuel state) result ∧ post result := by
  induction measured : variant state using wellFounded.induction generalizing state with
  | _ bound ih =>
    subst measured
    cases pass : body state with
    | leave result =>
      exact ⟨result, yields_of_leave pass, leave state result initially pass⟩
    | again next =>
      obtain ⟨kept, lower⟩ := again state next initially pass
      obtain ⟨result, returned, holds⟩ := ih (variant next) lower kept rfl
      exact ⟨result, yields_of_again pass returned, holds⟩

theorem exists_run_of_variant (variant : σ → Nat) (invariant : σ → Prop) (post : ρ → Prop)
    (again : ∀ state next, invariant state → body state = .again next →
      invariant next ∧ variant next < variant state)
    (leave : ∀ state result, invariant state → body state = .leave result →
      post result) {fuel : Nat} (initially : invariant state) (enough : variant state < fuel) :
    ∃ result, run body fuel state = some result ∧ post result := by
  induction fuel generalizing state with
  | zero => omega
  | succ fuel ih =>
    cases pass : body state with
    | leave result =>
      exact ⟨result, run_succ_of_leave pass fuel, leave state result initially pass⟩
    | again next =>
      obtain ⟨kept, lower⟩ := again state next initially pass
      obtain ⟨result, returned, holds⟩ := ih kept (by omega)
      exact ⟨result, (run_succ_of_again pass fuel).trans returned, holds⟩

end

end OpenThesis.Loop
