import Mathlib.Data.Rat.Init
import OpenThesis.Orchestrator.Replay
import OpenThesis.Orchestrator.Shrink

/-!
# The result of a shrink

`ShrinkWithConfig` (`internal/orchestrator/shrink.go`) minimises a schedule, then looks for a seed
and a budget. Replays are a function of seed, schedule and budget, and no file operation fails.
-/

namespace OpenThesis.Orchestrator

open Loop Minimize

universe u v

/-- What a shrink is given. `scale` is the product of a fraction and a number of states, cut to an
integer. -/
structure Shrinking (α : Type u) (ε : Type v) where
  run : UInt64 → List α → UInt64 → Except ε (List ViolationEntry)
  scale : ℚ → UInt64 → UInt64
  artifact : Artifact
  seed : UInt64
  seedMutations : Nat

structure Best where
  seed : UInt64
  step : UInt64
  deriving DecidableEq, Repr

def Best.offer (best : Best) (seed : UInt64) : Option UInt64 → Best
  | some step => if step < best.step then ⟨seed, step⟩ else best
  | none => best

theorem Best.offer_cases (best : Best) (seed : UInt64) (offered : Option UInt64) :
    (best.offer seed offered = best ∧ ∀ step ∈ offered, ¬ step < best.step) ∨
      ∃ step ∈ offered, step < best.step ∧ best.offer seed offered = ⟨seed, step⟩ := by
  cases offered with
  | none => exact .inl ⟨rfl, by simp⟩
  | some step =>
    by_cases earlier : step < best.step
    · exact .inr ⟨step, rfl, earlier, if_pos earlier⟩
    · exact .inl ⟨if_neg earlier, by simpa using earlier⟩

/-- What a shrink returns. -/
structure ShrinkResult (α : Type u) where
  reproduced : Bool
  originalStep : UInt64
  minimalSchedule : List α
  best : Best

namespace Shrinking

variable {α : Type u} {ε : Type v} (shrinking : Shrinking α ε)

def baseSeed : UInt64 :=
  shrinking.artifact.replaySeed shrinking.seed

/-- The step at which a replay reproduces, if it does. -/
def replay (maxStates seed : UInt64) (subset : List α) : Option UInt64 :=
  match shrinking.run (shrinking.artifact.replaySeed seed) subset
      (capStates shrinking.artifact.step maxStates) with
  | .error _ => none
  | .ok violations => (shrinking.artifact.matched violations).map ViolationEntry.step

def replayWith (cell seed : UInt64) (subset : List α) (maxStates : UInt64) :
    UInt64 × Option UInt64 :=
  let cell := if 0 < maxStates then maxStates else cell
  (capStates shrinking.artifact.step cell, shrinking.replay cell seed subset)

def tighten (fraction : ℚ) (step : UInt64) : UInt64 :=
  let maxStates := shrinking.scale fraction step
  if maxStates < 10 then 10 else maxStates

def attempt {ι : Type} (minimal : List α) (seedOf capOf : ι → Best → UInt64)
    (state : UInt64 × Best) (i : ι) : UInt64 × Best :=
  let seed := seedOf i state.2
  let replayed := shrinking.replayWith state.1 seed minimal (capOf i state.2)
  (replayed.1, state.2.offer seed replayed.2)

def shrinkSeedMutations (minimal : List α) (state : UInt64 × Best) : UInt64 × Best :=
  (List.range' 1 shrinking.seedMutations).foldl
    (shrinking.attempt minimal (fun i _ => shrinking.baseSeed + i.toUInt64) fun _ _ => 0) state

def fractions : List ℚ :=
  [2 / 5, 3 / 5, 4 / 5]

def shrinkStepCount (minimal : List α) (state : UInt64 × Best) : UInt64 × Best :=
  fractions.foldl
    (shrinking.attempt minimal (fun _ best => best.seed)
      fun fraction best => shrinking.tighten fraction best.step) state

def mutateSeeds (minimal : List α) (state : UInt64 × Best) : UInt64 × Best :=
  if 0 < shrinking.seedMutations then
    let mutated := shrinking.shrinkSeedMutations minimal state
    (mutated.1, if mutated.2.step < state.2.step then mutated.2 else state.2)
  else state

def reduceSteps (minimal : List α) (state : UInt64 × Best) : Best :=
  if 0 < state.2.step then
    let reduced := (shrinking.shrinkStepCount minimal state).2
    if reduced.step < state.2.step then ⟨state.2.seed, reduced.step⟩ else state.2
  else state.2

/-- Shrinks the entries of an artifact that reproduces. -/
def shrinkWithConfig (maxStates : UInt64) (entries : List α) (fuel : Nat) :
    Option (ShrinkResult α) :=
  let artifact := shrinking.artifact
  let start : Best := ⟨shrinking.baseSeed, artifact.step⟩
  let first := shrinking.replayWith maxStates shrinking.baseSeed entries 0
  if first.2.isNone then some ⟨false, artifact.step, [], start⟩
  else
    let testFn : List α → Except ε Bool := fun subset =>
      .ok (shrinking.replayWith first.1 shrinking.baseSeed subset 0).2.isSome
    (ddmin (fun _ => false) entries testFn fuel).map fun minimal =>
      ⟨true, artifact.step, minimal,
        shrinking.reduceSteps minimal (shrinking.mutateSeeds minimal (first.1, start))⟩

/-- Some budget in the configuration makes the replay of the schedule with the seed fire at the
step. -/
def Observed (minimal : List α) (best : Best) : Prop :=
  ∃ maxStates, shrinking.replay maxStates best.seed minimal = some best.step

section

variable {shrinking} {ι : Type} {minimal : List α} (seedOf capOf : ι → Best → UInt64)

theorem Observed.attempt {state : UInt64 × Best} (observed : shrinking.Observed minimal state.2)
    (i : ι) : shrinking.Observed minimal (shrinking.attempt minimal seedOf capOf state i).2 ∧
      (shrinking.attempt minimal seedOf capOf state i).2.step ≤ state.2.step := by
  rcases state.2.offer_cases (seedOf i state.2) (shrinking.replayWith state.1 (seedOf i state.2)
      minimal (capOf i state.2)).2 with ⟨same, -⟩ | ⟨step, fired, earlier, taken⟩
  · simp only [Shrinking.attempt, same]
    exact ⟨observed, UInt64.le_refl _⟩
  · simp only [Shrinking.attempt, taken]
    exact ⟨⟨_, fired⟩, UInt64.le_of_lt earlier⟩

theorem Observed.foldl_attempt {state : UInt64 × Best}
    (observed : shrinking.Observed minimal state.2) (items : List ι) :
    shrinking.Observed minimal (items.foldl (shrinking.attempt minimal seedOf capOf) state).2 ∧
      (items.foldl (shrinking.attempt minimal seedOf capOf) state).2.step ≤ state.2.step := by
  induction items generalizing state with
  | nil => exact ⟨observed, UInt64.le_refl _⟩
  | cons i items ih =>
    have first := observed.attempt seedOf capOf i
    have later := ih first.1
    exact ⟨later.1, UInt64.le_trans later.2 first.2⟩

theorem foldl_attempt_cases (best : Best) (cells : UInt64 → Prop) (sees : ι → Option UInt64)
    (stays : ∀ cell i, cells cell →
      cells (shrinking.replayWith cell (seedOf i best) minimal (capOf i best)).1 ∧
        (shrinking.replayWith cell (seedOf i best) minimal (capOf i best)).2 = sees i)
    (items : List ι) (cell : UInt64) (start : cells cell) :
    let found := items.foldl (shrinking.attempt minimal seedOf capOf) (cell, best)
    (found.2 = best ∧ ∀ i ∈ items, ∀ step ∈ sees i, ¬ step < best.step) ∨
      (found.2.step < best.step ∧ shrinking.Observed minimal found.2 ∧
        ∃ i ∈ items, ∃ step ∈ sees i, step < best.step) := by
  induction items generalizing cell with
  | nil => exact .inl ⟨rfl, by simp⟩
  | cons i items ih =>
    obtain ⟨nextCell, seen⟩ := stays cell i start
    rcases best.offer_cases (seedOf i best) (shrinking.replayWith cell (seedOf i best)
        minimal (capOf i best)).2 with ⟨same, none⟩ | ⟨step, fired, earlier, taken⟩
    · have kept : shrinking.attempt minimal seedOf capOf (cell, best) i =
          ((shrinking.replayWith cell (seedOf i best) minimal (capOf i best)).1, best) :=
        Prod.ext rfl same
      rw [seen] at none
      rw [List.foldl_cons, kept]
      rcases ih _ nextCell with ⟨unchanged, others⟩ | ⟨less, observed, j, mem, better⟩
      · exact .inl ⟨unchanged, List.forall_mem_cons.mpr ⟨none, others⟩⟩
      · exact .inr ⟨less, observed, j, List.mem_cons_of_mem i mem, better⟩
    · have kept : (shrinking.attempt minimal seedOf capOf (cell, best) i).2 =
          ⟨seedOf i best, step⟩ := taken
      have observed : shrinking.Observed minimal
          (shrinking.attempt minimal seedOf capOf (cell, best) i).2 := by
        rw [kept]
        exact ⟨_, fired⟩
      have later := observed.foldl_attempt seedOf capOf items
      rw [kept] at later
      rw [seen] at fired
      exact .inr ⟨UInt64.lt_of_le_of_lt later.2 earlier, later.1, i, List.mem_cons_self,
        step, fired, earlier⟩

end

section

variable (minimal : List α) (cell : UInt64) (best : Best)

theorem replay_eq_of_capStates_eq {maxStates maxStates' : UInt64}
    (same : capStates shrinking.artifact.step maxStates =
      capStates shrinking.artifact.step maxStates') (seed : UInt64) (subset : List α) :
    shrinking.replay maxStates seed subset = shrinking.replay maxStates' seed subset := by
  unfold Shrinking.replay
  rw [same]

theorem tighten_pos (fraction : ℚ) (step : UInt64) : 0 < shrinking.tighten fraction step := by
  unfold tighten
  dsimp only
  split_ifs with small
  · decide
  · exact UInt64.lt_of_lt_of_le (by decide) (UInt64.not_lt.mp small)

@[simp]
theorem replay_capStates (maxStates seed : UInt64) (subset : List α) :
    shrinking.replay (capStates shrinking.artifact.step maxStates) seed subset =
      shrinking.replay maxStates seed subset :=
  shrinking.replay_eq_of_capStates_eq (capStates_capStates _ _) seed subset

/-- One of the seeds behind the base seed fires the violation before the best step. -/
def SeedImproves (minimal : List α) (cell : UInt64) (best : Best) : Prop :=
  ∃ i ∈ List.range' 1 shrinking.seedMutations,
    ∃ step ∈ shrinking.replay cell (shrinking.baseSeed + i.toUInt64) minimal, step < best.step

/-- One of the fractions of the best step, as the budget, still fires the violation, and before
the best step. -/
def BudgetImproves (minimal : List α) (best : Best) : Prop :=
  ∃ fraction ∈ fractions,
    ∃ step ∈ shrinking.replay (shrinking.tighten fraction best.step) best.seed minimal,
      step < best.step

theorem shrinkSeedMutations_cases :
    let found := (shrinking.shrinkSeedMutations minimal (cell, best)).2
    (found = best ∧ ¬ shrinking.SeedImproves minimal cell best) ∨
      (found.step < best.step ∧ shrinking.Observed minimal found ∧
        shrinking.SeedImproves minimal cell best) := by
  -- The budget is worth the same to every replay of the phase.
  have stays : ∀ found (i : Nat),
      capStates shrinking.artifact.step found = capStates shrinking.artifact.step cell →
        capStates shrinking.artifact.step
            (shrinking.replayWith found (shrinking.baseSeed + i.toUInt64) minimal 0).1 =
          capStates shrinking.artifact.step cell ∧
        (shrinking.replayWith found (shrinking.baseSeed + i.toUInt64) minimal 0).2 =
          shrinking.replay cell (shrinking.baseSeed + i.toUInt64) minimal := by
    intro found i same
    simp [replayWith, same, shrinking.replay_eq_of_capStates_eq same]
  rcases foldl_attempt_cases (fun (i : Nat) _ => shrinking.baseSeed + i.toUInt64) (fun _ _ => 0)
      best (fun found => capStates shrinking.artifact.step found =
        capStates shrinking.artifact.step cell)
      (fun i => shrinking.replay cell (shrinking.baseSeed + i.toUInt64) minimal) stays
      (List.range' 1 shrinking.seedMutations) cell rfl with ⟨same, none⟩ | improved
  · refine .inl ⟨same, ?_⟩
    rintro ⟨i, mem, step, fired, earlier⟩
    exact none i mem step fired earlier
  · exact .inr improved

theorem shrinkStepCount_cases :
    let found := (shrinking.shrinkStepCount minimal (cell, best)).2
    (found = best ∧ ¬ shrinking.BudgetImproves minimal best) ∨
      (found.step < best.step ∧ shrinking.Observed minimal found ∧
        shrinking.BudgetImproves minimal best) := by
  have stays : ∀ found fraction, True →
      True ∧ (shrinking.replayWith found best.seed minimal
          (shrinking.tighten fraction best.step)).2 =
        shrinking.replay (shrinking.tighten fraction best.step) best.seed minimal := by
    intro found fraction _
    simp [replayWith, shrinking.tighten_pos]
  rcases foldl_attempt_cases (fun _ best => best.seed)
      (fun fraction best => shrinking.tighten fraction best.step) best (fun _ => True) _ stays
      fractions cell trivial with ⟨same, none⟩ | improved
  · refine .inl ⟨same, ?_⟩
    rintro ⟨i, mem, step, fired, earlier⟩
    exact none i mem step fired earlier
  · exact .inr improved

theorem seed_shrinkStepCount (state : UInt64 × Best) :
    (shrinking.shrinkStepCount minimal state).2.seed = state.2.seed := by
  apply List.foldlRecOn (motive := fun found : UInt64 × Best => found.2.seed = state.2.seed)
  · rfl
  · intro found same fraction _
    simp only [attempt]
    rcases found.2.offer_cases found.2.seed (shrinking.replayWith found.1 found.2.seed minimal
        (shrinking.tighten fraction found.2.step)).2 with ⟨kept, -⟩ | ⟨step, -, -, taken⟩
    · rw [kept, same]
    · rw [taken, same]

theorem mutateSeeds_cases :
    let found := (shrinking.mutateSeeds minimal (cell, best)).2
    (found = best ∧ ¬ shrinking.SeedImproves minimal cell best) ∨
      (found.step < best.step ∧ shrinking.Observed minimal found ∧
        shrinking.SeedImproves minimal cell best) := by
  unfold mutateSeeds
  split_ifs with mutations
  · rcases shrinking.shrinkSeedMutations_cases minimal cell best with ⟨same, none⟩ | improved
    · exact .inl ⟨by simp [same], none⟩
    · dsimp only
      rw [if_pos improved.1]
      exact .inr improved
  · refine .inl ⟨rfl, ?_⟩
    rintro ⟨i, mem, -⟩
    simp only [List.mem_range'_1] at mem
    omega

theorem reduceSteps_cases (state : UInt64 × Best) :
    let found := shrinking.reduceSteps minimal state
    (found = state.2 ∧ ¬ shrinking.BudgetImproves minimal state.2) ∨
      (found.step < state.2.step ∧ shrinking.Observed minimal found ∧
        shrinking.BudgetImproves minimal state.2) := by
  unfold reduceSteps
  split_ifs with positive
  · rcases shrinking.shrinkStepCount_cases minimal state.1 state.2 with ⟨same, none⟩ | improved
    · exact .inl ⟨by simp [same], none⟩
    · dsimp only
      rw [if_pos improved.1, ← shrinking.seed_shrinkStepCount minimal state]
      exact .inr improved
  · refine .inl ⟨rfl, ?_⟩
    rintro ⟨fraction, -, step, -, earlier⟩
    exact positive (UInt64.lt_of_le_of_lt UInt64.zero_le earlier)

theorem phases_observed_iff :
    let found := shrinking.reduceSteps minimal (shrinking.mutateSeeds minimal (cell, best))
    found.step ≤ best.step ∧
      (shrinking.Observed minimal found ↔
        shrinking.SeedImproves minimal cell best ∨ shrinking.BudgetImproves minimal best ∨
          shrinking.Observed minimal best) := by
  have second := shrinking.mutateSeeds_cases minimal cell best
  have third := shrinking.reduceSteps_cases minimal (shrinking.mutateSeeds minimal (cell, best))
  rcases second with ⟨same, noSeed⟩ | ⟨earlier, observed, improves⟩
  · rw [same] at third
    rcases third with ⟨kept, noBudget⟩ | ⟨earlier, observed, improves⟩
    · rw [kept]
      exact ⟨UInt64.le_refl _, by simp [noSeed, noBudget]⟩
    · exact ⟨UInt64.le_of_lt earlier, iff_of_true observed (.inr (.inl improves))⟩
  · have found : shrinking.Observed minimal
        (shrinking.reduceSteps minimal (shrinking.mutateSeeds minimal (cell, best))) ∧
        (shrinking.reduceSteps minimal (shrinking.mutateSeeds minimal (cell, best))).step ≤
          (shrinking.mutateSeeds minimal (cell, best)).2.step := by
      rcases third with ⟨kept, -⟩ | ⟨less, observed, -⟩
      · rw [kept]
        exact ⟨observed, UInt64.le_refl _⟩
      · exact ⟨observed, UInt64.le_of_lt less⟩
    exact ⟨UInt64.le_trans found.2 (UInt64.le_of_lt earlier), iff_of_true found.1 (.inl improves)⟩

end

/-- The schedule that `ddmin` keeps of the entries, by replays with the base seed. -/
def minimized (maxStates : UInt64) (entries : List α) : Nat → Option (List α) :=
  ddmin (fun _ => false) entries fun subset =>
    (.ok (shrinking.replay maxStates shrinking.baseSeed subset).isSome : Except ε Bool)

/-- The shrink ends, and the violation is reproduced exactly if the whole schedule fires. Then the
result has the minimized schedule, the best step is not behind the recorded one, and some replay of
the minimized schedule with the best seed fires at it exactly if a later phase has found an earlier
step or the minimized schedule fires at the recorded step. -/
theorem shrinkWithConfig_observed_iff (maxStates : UInt64) (entries : List α) :
    ∃ result, Yields (shrinking.shrinkWithConfig maxStates entries) result ∧
      (result.reproduced = true ↔
        (shrinking.replay maxStates shrinking.baseSeed entries).isSome) ∧
      (result.reproduced = true →
        let start : Best := ⟨shrinking.baseSeed, shrinking.artifact.step⟩
        ∃ minimal, Yields (shrinking.minimized maxStates entries) minimal ∧
          result.minimalSchedule = minimal ∧ result.best.step ≤ result.originalStep ∧
          (shrinking.Observed minimal result.best ↔
            shrinking.SeedImproves minimal maxStates start ∨
              shrinking.BudgetImproves minimal start ∨ shrinking.Observed minimal start)) := by
  have replayed (subset : List α) : (shrinking.replayWith
      (shrinking.replayWith maxStates shrinking.baseSeed entries 0).1 shrinking.baseSeed
      subset 0).2 = shrinking.replay maxStates shrinking.baseSeed subset := by
    simp [replayWith]
  have first : (shrinking.replayWith maxStates shrinking.baseSeed entries 0).2 =
      shrinking.replay maxStates shrinking.baseSeed entries := by
    simp [replayWith]
  unfold shrinkWithConfig
  simp only [replayed, first]
  split_ifs with fires
  · exact ⟨_, ⟨0, fun _ _ => rfl⟩, by simpa using fires, nofun⟩
  · have fires : (shrinking.replay maxStates shrinking.baseSeed entries).isSome := by
      simpa [Option.isSome_iff_ne_none] using fires
    have accepted : accepts (fun subset => (.ok (shrinking.replay maxStates shrinking.baseSeed
        subset).isSome : Except ε Bool)) entries = true :=
      accepts_eq_true_iff.mpr (congrArg Except.ok fires)
    obtain ⟨minimal, returned, -⟩ := exists_yields_ddmin entries accepted
    refine ⟨_, returned.map _, iff_of_true rfl fires, fun _ => ⟨minimal, returned, rfl, ?_⟩⟩
    have phases := shrinking.phases_observed_iff minimal
      (shrinking.replayWith maxStates shrinking.baseSeed entries 0).1
      ⟨shrinking.baseSeed, shrinking.artifact.step⟩
    simpa [SeedImproves, replayWith] using phases

/-- A violation recorded at step 5 that fires at step 7 of every replay: the result claims step 5.
-/
theorem shrinkWithConfig_claims_recorded_step :
    let shrinking : Shrinking Nat Unit :=
      { run := fun _ _ budget => .ok (if 7 ≤ budget then [⟨"p", "m", 7⟩] else []),
        scale := fun _ step => step / 2, artifact := ⟨"p", "m", 5, 1⟩, seed := 0,
        seedMutations := 3 }
    (shrinking.shrinkWithConfig 0 [10, 20] 5).map (fun result =>
        (result.reproduced, result.minimalSchedule, result.best)) = some (true, [10], ⟨1, 5⟩) ∧
      ¬ shrinking.Observed [10] ⟨1, 5⟩ := by
  refine ⟨by decide, ?_⟩
  rintro ⟨maxStates, fired⟩
  simp only [replay] at fired
  split_ifs at fired with enough
  · exact absurd fired (by decide)
  · exact absurd fired (by decide)

end Shrinking

end OpenThesis.Orchestrator
