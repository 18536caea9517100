import Mathlib.Logic.Function.Basic
import OpenThesis.Orchestrator.Replay

/-!
# Budgets of the likelihood checkpoints

`ComputeLikelihood` (`internal/orchestrator/likelihood.go`), and the cell
`TestConfig.Exploration.MaxStates` through its loop.
-/

namespace OpenThesis.Orchestrator

namespace Likelihood

/-- Its replay compares the cell with zero and with the limit, may write the limit, and its
exploration reads the budget. -/
inductive Trial where
  | start
  | nonzero
  | capping
  | capped
  | exploring (budget : UInt64)
  deriving DecidableEq, Repr

structure Trials where
  maxStates : UInt64
  trial : Nat → Trial

def Trials.launch (maxStates : UInt64) : Trials :=
  ⟨maxStates, fun _ => .start⟩

/-- The next access of a trial to the shared budget: what it leaves there. -/
def Trial.next (step maxStates : UInt64) : Trial → UInt64 × Trial
  | start => (maxStates, if maxStates = 0 then capping else nonzero)
  | nonzero => (maxStates, if maxReplayStates step < maxStates then capping else capped)
  | capping => (maxReplayStates step, capped)
  | capped => (maxStates, exploring maxStates)
  | exploring budget => (maxStates, exploring budget)

def Trials.move (step : UInt64) (trials : Trials) (i : Nat) : Trials :=
  let next := (trials.trial i).next step trials.maxStates
  ⟨next.1, Function.update trials.trial i next.2⟩

def Trials.run (step maxStates : UInt64) (moves : List Nat) : Trials :=
  moves.foldl (Trials.move step) (.launch maxStates)

/-- What a trial knows of the cell, if the trials found `found` there and it holds `maxStates` now.
-/
def Trial.Consistent (step found maxStates : UInt64) : Trial → Prop
  | start => True
  | nonzero => found = 0 → maxStates = capStates step found
  | capping => capStates step found = maxReplayStates step
  | capped => maxStates = capStates step found
  | exploring budget => maxStates = capStates step found ∧ budget = capStates step found

/-- The cell holds what was found or what a single replay makes of it. -/
structure Trials.Consistent (step found : UInt64) (trials : Trials) : Prop where
  cell : trials.maxStates = found ∨ trials.maxStates = capStates step found
  trial : ∀ i, (trials.trial i).Consistent step found trials.maxStates

section

variable {step found maxStates : UInt64}

theorem Trial.next_fst {trial : Trial} (consistent : trial.Consistent step found maxStates) :
    (trial.next step maxStates).1 = maxStates ∨
      (trial.next step maxStates).1 = capStates step found := by
  cases trial with
  | capping => exact .inr consistent.symm
  | _ => exact .inl rfl

theorem Trial.Consistent.of_capped {trial : Trial}
    (consistent : trial.Consistent step found maxStates) :
    trial.Consistent step found (capStates step found) := by
  cases trial with
  | start => exact trivial
  | nonzero => exact fun _ => rfl
  | capping => exact consistent
  | capped => exact rfl
  | exploring budget => exact ⟨rfl, consistent.2⟩

theorem Trial.Consistent.next {trial : Trial}
    (cell : maxStates = found ∨ maxStates = capStates step found)
    (consistent : trial.Consistent step found maxStates) :
    (trial.next step maxStates).2.Consistent step found (trial.next step maxStates).1 := by
  cases trial with
  | start =>
    simp only [Trial.next]
    split_ifs with zero
    · have same : maxStates = found :=
        cell.resolve_right fun capped => capStates_ne_zero step found (capped ▸ zero)
      exact if_pos (.inl (same ▸ zero))
    · exact fun foundZero => cell.resolve_left fun same => zero (same.trans foundZero)
  | nonzero =>
    simp only [Trial.next]
    split_ifs with above
    · have same : maxStates = found := cell.resolve_right fun capped =>
        UInt64.not_le.mpr above (capped ▸ capStates_le step found)
      exact if_pos (.inr (same ▸ above))
    · rcases cell with same | capped
      · by_cases foundZero : found = 0
        · exact consistent foundZero
        · have unchanged : capStates step found = found :=
            if_neg (not_or.mpr ⟨foundZero, same ▸ above⟩)
          exact same.trans unchanged.symm
      · exact capped
  | capping => exact consistent.symm
  | capped => exact ⟨consistent, consistent⟩
  | exploring budget => exact consistent

theorem Trials.Consistent.move {trials : Trials} (consistent : trials.Consistent step found)
    (i : Nat) : (trials.move step i).Consistent step found := by
  have cell := (trials.trial i).next_fst (consistent.trial i)
  constructor
  · rcases cell with kept | capped
    · exact consistent.cell.imp kept.trans kept.trans
    · exact .inr capped
  · intro j
    by_cases same : j = i
    · subst same
      simpa [Trials.move] using (consistent.trial j).next consistent.cell
    · simp only [Trials.move, Function.update_of_ne same]
      rcases cell with kept | capped
      · rw [kept]
        exact consistent.trial j
      · rw [capped]
        exact (consistent.trial j).of_capped

end

theorem Trials.run_consistent (step found : UInt64) (moves : List Nat) :
    (Trials.run step found moves).Consistent step found := by
  apply List.foldlRecOn (motive := Trials.Consistent step found)
  · exact ⟨.inl rfl, fun _ => trivial⟩
  · exact fun _ consistent i _ => consistent.move i

theorem Trials.capStates_run (step found : UInt64) (moves : List Nat) :
    capStates step (Trials.run step found moves).maxStates = capStates step found := by
  rcases (Trials.run_consistent step found moves).cell with same | capped
  · rw [same]
  · rw [capped, capStates_capStates]

theorem Trials.budget_run {step found budget : UInt64} {moves : List Nat} {i : Nat}
    (exploring : (Trials.run step found moves).trial i = .exploring budget) :
    budget = capStates step found := by
  have consistent := (Trials.run_consistent step found moves).trial i
  rw [exploring] at consistent
  exact consistent.2

theorem Trials.trial_run_alone (step found : UInt64) :
    (Trials.run step found [0, 0, 0, 0]).trial 0 = .exploring (capStates step found) := by
  simp only [Trials.run, Trials.launch, Trials.move, List.foldl_cons, List.foldl_nil,
    Function.update_self, Trial.next]
  by_cases zero : found = 0
  · simp [capStates, zero]
  · by_cases above : maxReplayStates step < found
    · simp [capStates, zero, above]
    · simp [capStates, zero, above]

structure Checkpoint where
  percent : UInt64
  mkdir : Bool
  written : Bool
  deriving DecidableEq, Repr

namespace Checkpoint

variable (step : UInt64) (checkpoint : Checkpoint)

def stepCutoff : UInt64 :=
  if checkpoint.percent = 0 then 0 else step * checkpoint.percent / 100

def branches : Bool :=
  checkpoint.percent ≠ 0 && checkpoint.percent ≠ 100 && checkpoint.mkdir

def runs : Bool :=
  checkpoint.percent = 100 || checkpoint.written

def setup (maxStates : UInt64) : UInt64 :=
  if checkpoint.branches then capStates step (checkpoint.stepCutoff step + 10) else maxStates

end Checkpoint

structure Probe where
  checkpoint : Checkpoint
  moves : List Nat

def computeLikelihood (step : UInt64) : UInt64 → List Probe → List (Checkpoint × Trials)
  | _, [] => []
  | maxStates, probe :: probes =>
    if probe.checkpoint.runs then
      let trials := Trials.run step (probe.checkpoint.setup step maxStates) probe.moves
      (probe.checkpoint, trials) :: computeLikelihood step trials.maxStates probes
    else []

def percentiles : List Checkpoint :=
  [0, 25, 50, 75, 100].map fun percent => ⟨percent, true, true⟩

/-- Every trial has the budget of its checkpoint probed alone, and those of the baseline can reach
the recorded step. -/
def BudgetsKept (step maxStates : UInt64) (probes : List Probe) : Prop :=
  ∀ probed ∈ computeLikelihood step maxStates probes, ∀ i budget,
    probed.2.trial i = .exploring budget →
      (∀ moves, ∀ alone ∈ computeLikelihood step maxStates [⟨probed.1, moves⟩], ∀ j budget',
        alone.2.trial j = .exploring budget' → budget = budget') ∧
      (probed.1.percent = 100 → step ≤ budget)

/-- A checkpoint without a setup replay finds a budget worth `maxStates`; `found` is what the last
setup replay wrote. -/
def Undisturbed (step maxStates : UInt64) : UInt64 → List Checkpoint → Prop
  | _, [] => True
  | found, checkpoint :: checkpoints =>
    checkpoint.runs →
      if checkpoint.branches then
        Undisturbed step maxStates (checkpoint.stepCutoff step + 10) checkpoints
      else
        capStates step found = capStates step maxStates ∧
          (checkpoint.percent = 100 → step ≤ capStates step maxStates) ∧
          Undisturbed step maxStates found checkpoints

section

variable {step maxStates : UInt64}

variable {checkpoint : Checkpoint}

theorem forall_alone_iff (runs : checkpoint.runs) (budget : UInt64) :
    (∀ moves, ∀ alone ∈ computeLikelihood step maxStates [⟨checkpoint, moves⟩], ∀ j budget',
        alone.2.trial j = .exploring budget' → budget = budget') ↔
      budget = capStates step (checkpoint.setup step maxStates) := by
  constructor
  · intro alone
    have probed : (checkpoint,
        Trials.run step (checkpoint.setup step maxStates) [0, 0, 0, 0]) ∈
          computeLikelihood step maxStates [⟨checkpoint, [0, 0, 0, 0]⟩] := by
      simp [computeLikelihood, runs]
    exact alone _ _ probed 0 _ (Trials.trial_run_alone step _)
  · rintro rfl moves alone mem j budget' exploring
    simp only [computeLikelihood, runs, if_true, List.mem_singleton] at mem
    subst mem
    exact (Trials.budget_run exploring).symm

theorem runs_of_mem_computeLikelihood {probes : List Probe} {found : UInt64}
    {probed : Checkpoint × Trials} (mem : probed ∈ computeLikelihood step found probes) :
    probed.1.runs := by
  induction probes generalizing found with
  | nil => simp [computeLikelihood] at mem
  | cons probe probes ih =>
    rw [computeLikelihood] at mem
    split_ifs at mem with runs
    · rcases List.mem_cons.mp mem with rfl | mem
      · exact runs
      · exact ih mem
    · simp at mem

/-- The budgets of a loop that starts with `found` in the cell, and those of the checkpoints alone.
-/
def BudgetsFrom (step maxStates found : UInt64) (probes : List Probe) : Prop :=
  ∀ probed ∈ computeLikelihood step found probes, ∀ i budget,
    probed.2.trial i = .exploring budget →
      budget = capStates step (probed.1.setup step maxStates) ∧
      (probed.1.percent = 100 → step ≤ budget)

theorem budgetsKept_iff (probes : List Probe) :
    BudgetsKept step maxStates probes ↔ BudgetsFrom step maxStates maxStates probes := by
  unfold BudgetsKept BudgetsFrom
  refine forall₂_congr fun probed mem => forall₃_congr fun i budget exploring => ?_
  rw [forall_alone_iff (runs_of_mem_computeLikelihood mem)]

theorem budgetsFrom_cons {found : UInt64} {probe : Probe} (runs : probe.checkpoint.runs)
    (probes : List Probe) : BudgetsFrom step maxStates found (probe :: probes) ↔ (∀ i budget,
        (Trials.run step (probe.checkpoint.setup step found) probe.moves).trial i =
            .exploring budget → budget = capStates step (probe.checkpoint.setup step maxStates) ∧
          (probe.checkpoint.percent = 100 → step ≤ budget)) ∧ BudgetsFrom step maxStates
        (Trials.run step (probe.checkpoint.setup step found) probe.moves).maxStates probes := by
  simp only [BudgetsFrom, computeLikelihood, runs, if_true, List.forall_mem_cons]

theorem Checkpoint.setup_of_branches (branches : checkpoint.branches) (found : UInt64) :
    checkpoint.setup step found = capStates step (checkpoint.stepCutoff step + 10) :=
  if_pos branches

theorem Checkpoint.setup_of_not_branches (branches : ¬ checkpoint.branches) (found : UInt64) :
    checkpoint.setup step found = found :=
  if_neg branches

theorem Checkpoint.percent_ne_of_branches (branches : checkpoint.branches) :
    checkpoint.percent ≠ 100 := by
  rintro baseline
  simp [Checkpoint.branches, baseline] at branches

theorem forall_budgetsFrom_cons (checkpoint : Checkpoint) (checkpoints : List Checkpoint)
    (cell : UInt64) :
    (∀ probes : List Probe, probes.map Probe.checkpoint = checkpoint :: checkpoints →
        BudgetsFrom step maxStates cell probes) ↔ (checkpoint.runs →
        (capStates step (checkpoint.setup step cell) =
            capStates step (checkpoint.setup step maxStates) ∧
          (checkpoint.percent = 100 → step ≤ capStates step (checkpoint.setup step cell))) ∧
        ∀ moves, ∀ probes : List Probe, probes.map Probe.checkpoint = checkpoints →
          BudgetsFrom step maxStates
            (Trials.run step (checkpoint.setup step cell) moves).maxStates probes) := by
  constructor
  · intro kept runs
    have first := fun moves probes same => (budgetsFrom_cons runs probes).mp
      (kept (⟨checkpoint, moves⟩ :: probes) (congrArg (checkpoint :: ·) same))
    constructor
    · obtain ⟨probes, same⟩ : ∃ probes : List Probe, probes.map Probe.checkpoint = checkpoints :=
        ⟨checkpoints.map (⟨·, []⟩), by simp [Function.comp_def]⟩
      exact (first [0, 0, 0, 0] probes same).1 0 _ (Trials.trial_run_alone step _)
    · exact fun moves probes same => (first moves probes same).2
  · intro kept probes same
    cases probes with
    | nil => simp at same
    | cons probe probes =>
      obtain ⟨rfl, others⟩ := List.cons.inj same
      by_cases runs : probe.checkpoint.runs
      · refine (budgetsFrom_cons runs probes).mpr ⟨?_, (kept runs).2 probe.moves probes others⟩
        intro i budget exploring
        rw [Trials.budget_run exploring]
        exact (kept runs).1
      · simp [BudgetsFrom, computeLikelihood, runs]

theorem forall_budgetsFrom_iff (checkpoints : List Checkpoint) (cell found : UInt64)
    (worth : capStates step cell = capStates step found) :
    (∀ probes : List Probe, probes.map Probe.checkpoint = checkpoints →
        BudgetsFrom step maxStates cell probes) ↔ Undisturbed step maxStates found checkpoints := by
  induction checkpoints generalizing cell found with
  | nil => simp [BudgetsFrom, computeLikelihood, Undisturbed]
  | cons checkpoint checkpoints ih =>
    rw [forall_budgetsFrom_cons, Undisturbed]
    apply imp_congr_right
    intro runs
    by_cases branches : checkpoint.branches
    · have later := fun moves => ih
        (Trials.run step (checkpoint.setup step cell) moves).maxStates
        (checkpoint.stepCutoff step + 10) (by
          rw [Trials.capStates_run, Checkpoint.setup_of_branches branches, capStates_capStates])
      rw [if_pos branches]
      simp only [later, forall_const]
      simp [Checkpoint.setup_of_branches branches, Checkpoint.percent_ne_of_branches branches]
    · have later := fun moves => ih
        (Trials.run step (checkpoint.setup step cell) moves).maxStates found (by
          rw [Trials.capStates_run, Checkpoint.setup_of_not_branches branches, worth])
      rw [if_neg branches]
      simp only [later, forall_const]
      simp only [Checkpoint.setup_of_not_branches branches, worth]
      rw [and_assoc]
      refine and_congr_right fun same => ?_
      rw [same]

/-- The budgets are kept, under every interleaving, exactly if no checkpoint without a setup replay
comes after a setup replay that left another budget, and the caller's own budget reaches the
recorded step wherever the baseline is probed. -/
theorem budgetsKept_iff_undisturbed (step maxStates : UInt64) (checkpoints : List Checkpoint) :
    (∀ probes : List Probe, probes.map Probe.checkpoint = checkpoints →
        BudgetsKept step maxStates probes) ↔
      Undisturbed step maxStates maxStates checkpoints := by
  simp only [budgetsKept_iff]
  exact forall_budgetsFrom_iff checkpoints maxStates maxStates rfl

end

/-- For a violation at step 100 the baseline explores 85 states, which the setup replay at 75% left,
and alone it explores 200. -/
theorem baseline_budget_leaks :
    (computeLikelihood 100 0 (percentiles.map (⟨·, [0, 0, 0, 0]⟩))).getLast?.map
        (fun probed => (probed.1.percent, probed.2.trial 0)) = some (100, .exploring 85) ∧
      (computeLikelihood 100 0 [⟨⟨100, true, true⟩, [0, 0, 0, 0]⟩]).map
        (fun probed => (probed.1.percent, probed.2.trial 0)) = [(100, .exploring 200)] := by
  decide

end Likelihood

end OpenThesis.Orchestrator
