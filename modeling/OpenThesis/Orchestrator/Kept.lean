import OpenThesis.Orchestrator.Output

/-!
# The schedule of a reported violation

The stored schedule of a property and message is chosen as reports come in, the violation of the
final report from the whole list.
-/

namespace OpenThesis.Orchestrator

open Fault SnapshotTree Explorer Report Keyed List

universe u

def reportKey (report : Violation × Schedule) : String :=
  keyOf report.1

def reportStep (report : Violation × Schedule) : Nat :=
  report.1.step

def chosen (reports : List (Violation × Schedule)) :
    Std.ExtTreeMap String (Violation × Schedule) :=
  selectLeast reportKey reportStep reports

theorem chosen_concat (reports : List (Violation × Schedule)) (violation : Violation)
    (perPathSched : Schedule) :
    chosen (reports ++ [(violation, perPathSched)]) =
      if ((chosen reports)[violationKey violation.property violation.message]?).all fun existing =>
          violation.step < reportStep existing then
        (chosen reports).insert (violationKey violation.property violation.message)
          (violation, perPathSched)
      else chosen reports :=
  selectLeast_concat reports (violation, perPathSched)

theorem lookup_deduplicate (reports : List (Violation × Schedule)) (key : String) :
    (deduplicate (reports.map Prod.fst))[key]? = ((chosen reports)[key]?).map Prod.fst :=
  lookup_selectLeast_map Prod.fst (fun _ => rfl) (fun _ => rfl) reports key

theorem PoolWorker.Tracked.exists_report {worker : PoolWorker} (tracked : worker.Tracked)
    (initialSeed : UInt64) (property message : String) (burstInsns : UInt64) (snapID : ID) :
    ∃ report, worker.report initialSeed property message burstInsns snapID = some report := by
  obtain ⟨path, ancestry⟩ := tracked.sound.logged.exists_ancestry snapID
  have walked := pathToRoot_nextID tracked.sound.logged ancestry
  simp [PoolWorker.report, PoolWorker.buildViolationSchedule, walked]

namespace ReportingPool

variable {W : Type u}

/-- The reports belong to the pool: the violations are theirs, and the tables hold the schedules and
steps of the chosen ones. -/
structure Keeps (p : ReportingPool W) (reports : List (Violation × Schedule)) : Prop where
  violations : p.violations = reports.map Prod.fst
  schedules : ∀ key : String, p.violationSchedules[key]? = ((chosen reports)[key]?).map Prod.snd
  steps : ∀ key : String, p.violationScheduleSteps[key]? = ((chosen reports)[key]?).map reportStep

theorem keeps_initial : Keeps ({} : ReportingPool W) [] where
  violations := rfl
  schedules := fun _ => by simp [chosen, selectLeast]
  steps := fun _ => by simp [chosen, selectLeast]

variable {p : ReportingPool W} {reports : List (Violation × Schedule)}

theorem keeps_addViolation (keeps : p.Keeps reports) (violation : Violation)
    (perPathSched : Schedule) :
    (p.addViolation violation perPathSched).Keeps (reports ++ [(violation, perPathSched)]) := by
  have appended : p.violations ++ [violation] =
      (reports ++ [(violation, perPathSched)]).map Prod.fst := by
    rw [map_append, keeps.violations]
    rfl
  have choice := chosen_concat reports violation perPathSched
  unfold addViolation
  dsimp only
  rw [keeps.steps, Option.all_map]
  split
  · next lower =>
    rw [if_pos lower] at choice
    refine ⟨appended, fun key => ?_, fun key => ?_⟩
    · simp only [choice, Keyed.lookup_insert, keeps.schedules]
      split
      · rfl
      · rfl
    · simp only [choice, Keyed.lookup_insert, keeps.steps]
      split
      · rfl
      · rfl
  · next refused =>
    rw [if_neg refused] at choice
    refine ⟨appended, fun key => ?_, fun key => ?_⟩
    · rw [choice]
      exact keeps.schedules key
    · rw [choice]
      exact keeps.steps key

variable [DecidableEq W] {maxDepth : UInt32} {initialSeed : W → UInt64}

/-- The report that a worker makes with an action: one for each violation in the output of a burst,
built in the state that the worker is in. -/
def reportOf (initialSeed : W → UInt64) (p : ReportingPool W) :
    W × PoolAction → Option (Violation × Schedule)
  | (w, .violation property message burstInsns) =>
    (p.pool.workers w).fe.bind fun snapID =>
      (p.pool.workers w).report (initialSeed w) property message burstInsns snapID
  | _ => none

/-- The reports of a run, in their order. -/
def reportsOf (maxDepth : UInt32) (initialSeed : W → UInt64) :
    ReportingPool W → List (W × PoolAction) → List (Violation × Schedule)
  | _, [] => []
  | p, step :: actions =>
    (reportOf initialSeed p step).toList ++
      reportsOf maxDepth initialSeed (p.act maxDepth initialSeed step.1 step.2) actions

theorem reportsOf_concat (p : ReportingPool W) (actions : List (W × PoolAction))
    (step : W × PoolAction) : reportsOf maxDepth initialSeed p (actions ++ [step]) =
      reportsOf maxDepth initialSeed p actions ++
        (reportOf initialSeed (p.run maxDepth initialSeed actions) step).toList := by
  induction actions generalizing p with
  | nil => exact append_nil _
  | cons first actions ih =>
    rw [cons_append, reportsOf, ih, reportsOf, append_assoc]
    rfl

theorem keeps_act (keeps : p.Keeps reports) (step : W × PoolAction) :
    (p.act maxDepth initialSeed step.1 step.2).Keeps
      (reports ++ (reportOf initialSeed p step).toList) := by
  obtain ⟨w, action⟩ := step
  cases action with
  | act action | assertion assertType condition =>
    refine (append_nil reports).symm ▸ ?_
    exact ⟨keeps.violations, keeps.schedules, keeps.steps⟩
  | violation property message burstInsns =>
    rw [reportOf, act]
    split
    · next built =>
      rw [built, Option.toList_none, append_nil]
      exact keeps
    · next violation perPathSched built =>
      rw [built]
      exact keeps_addViolation keeps violation perPathSched

theorem keeps_run (actions : List (W × PoolAction)) :
    (run maxDepth initialSeed ({} : ReportingPool W) actions).Keeps
      (reportsOf maxDepth initialSeed {} actions) := by
  induction actions using reverseRecOn with
  | nil => exact keeps_initial
  | append_singleton actions step ih =>
    rw [reportsOf_concat, run, foldl_concat]
    exact keeps_act ih step

theorem mem_reportsOf {before actions : List (W × PoolAction)} {step : W × PoolAction}
    {report : Violation × Schedule} (inside : before ++ [step] <+: actions)
    (built : reportOf initialSeed (p.run maxDepth initialSeed before) step = some report) :
    report ∈ reportsOf maxDepth initialSeed p actions := by
  induction actions using reverseRecOn with
  | nil => simp at inside
  | append_singleton actions last ih =>
    rw [reportsOf_concat, mem_append, Option.mem_toList]
    rcases prefix_concat_iff.mp inside with whole | inside
    · obtain ⟨rfl, rfl⟩ := append_singleton_inj.mp whole
      exact Or.inr built
    · exact Or.inl (ih inside)

theorem tracked_pool (actions : List (W × PoolAction)) (w : W) :
    ((run maxDepth initialSeed ({} : ReportingPool W) actions).pool.workers w).Tracked := by
  refine foldlRecOn (motive := fun p : ReportingPool W => ∀ v, (p.pool.workers v).Tracked)
    actions _ (fun _ => PoolWorker.tracked_initial) (fun p tracked step _ => ?_) w
  obtain ⟨v, action⟩ := step
  cases action with
  | act action => exact VMPool.tracked_act tracked maxDepth v action
  | assertion assertType condition => exact tracked
  | violation property message burstInsns =>
    dsimp only [act]
    split
    · exact tracked
    · unfold addViolation
      dsimp only
      split <;> exact tracked

/-- Every violation that a worker finds while it explores a snapshot is reported, and the list of
violations is that of the reports. The stored schedule of a property and message is the one that was
built with the violation that the final report keeps, the first report of the lowest step. -/
theorem stored_schedule_is_of_kept_violation (maxDepth : UInt32) (initialSeed : W → UInt64)
    (actions : List (W × PoolAction)) (key : String) :
    let p := run maxDepth initialSeed ({} : ReportingPool W) actions
    let reports := reportsOf maxDepth initialSeed {} actions
    p.violations = reports.map Prod.fst ∧
      (∀ before w property message burstInsns,
        before ++ [(w, .violation property message burstInsns)] <+: actions →
          let worker := (run maxDepth initialSeed {} before).pool.workers w
          ∀ snapID ∈ worker.fe, ∃ report ∈ reports,
            worker.report (initialSeed w) property message burstInsns snapID = some report) ∧
      (((∀ report ∈ reports, reportKey report ≠ key) ∧
          (deduplicate p.violations)[key]? = none ∧ p.violationSchedules[key]? = none) ∨
        ∃ report, FirstLeast reportKey reportStep reports key report ∧
          (deduplicate p.violations)[key]? = some report.1 ∧
          p.violationSchedules[key]? = some report.2) := by
  intro p reports
  have keeps : p.Keeps reports := keeps_run actions
  refine ⟨keeps.violations, ?_, ?_⟩
  · intro before w property message burstInsns inside worker snapID explored
    have tracked : worker.Tracked := tracked_pool before w
    obtain ⟨report, built⟩ :=
      tracked.exists_report (initialSeed w) property message burstInsns snapID
    refine ⟨report, mem_reportsOf inside ?_, built⟩
    exact Option.bind_eq_some_iff.mpr ⟨snapID, explored, built⟩
  · rw [keeps.violations, lookup_deduplicate, keeps.schedules]
    cases found : (chosen reports)[key]? with
    | none => exact Or.inl ⟨(lookup_selectLeast_eq_none_iff reports key).mp found, rfl, rfl⟩
    | some report => exact Or.inr ⟨report, firstLeast_of_lookup found, rfl, rfl⟩

end ReportingPool

end OpenThesis.Orchestrator
