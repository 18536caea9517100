import OpenThesis.Orchestrator.Violation
import OpenThesis.Report.Triage

/-!
# Output of the workers

What guests print goes into results that the workers share (`processWorkerOutput` in
`internal/orchestrator/pool.go`).
-/

namespace OpenThesis.Orchestrator

open Fault SnapshotTree Explorer Report
open Keyed Loop

universe u

def concurrentCmds : Nat := 3

def processAssertion (counts : AssertionCounts) (assertType : String) (condition : Bool) :
    AssertionCounts :=
  match assertType with
  | "always" => counts.countAlways condition
  | "always_or_unreachable" => counts.countAlways condition
  | "sometimes" => counts.countSometimes condition
  | "reachable" => counts.countReachable condition
  | _ => counts

namespace PoolWorker

def violation (w : PoolWorker) (initialSeed : UInt64) (property message : String)
    (burstInsns : UInt64) (snapID : ID) (path : List ID) : Violation :=
  { property, message, snapshotID := snapID,
    hypervisorID := (w.tree.hypervisorID snapID).toOption.getD 0,
    seed := initialSeed, step := w.stepHint, burstInsns, path,
    faultKindMask := w.currentFaultMask, concurrentCmds }

/-- The violation and its schedule. The fuel is enough for every path (`exists_report`). -/
def report (w : PoolWorker) (initialSeed : UInt64) (property message : String)
    (burstInsns : UInt64) (snapID : ID) : Option (Violation × Schedule) := do
  let fuel := w.tree.nextID + 1
  let path ← w.tree.pathToRoot snapID fuel
  let perPathSched ← w.buildViolationSchedule snapID fuel
  return (w.violation initialSeed property message burstInsns snapID path, perPathSched)

end PoolWorker

/-- A pool with its counts and violations. -/
structure ReportingPool (W : Type u) where
  pool : VMPool W := {}
  assertions : AssertionCounts := {}
  violations : List Violation := []
  violationSchedules : Std.ExtTreeMap String Schedule := ∅
  violationScheduleSteps : Std.ExtTreeMap String Nat := ∅

inductive PoolAction where
  | act (action : WorkerAction)
  | assertion (assertType : String) (condition : Bool)
  | violation (property message : String) (burstInsns : UInt64)

namespace ReportingPool

variable {W : Type u}

/-- The critical section of a violation. -/
def addViolation (p : ReportingPool W) (violation : Violation) (perPathSched : Schedule) :
    ReportingPool W :=
  let violationKey := violationKey violation.property violation.message
  let p := { p with violations := p.violations ++ [violation] }
  if (p.violationScheduleSteps[violationKey]?).all fun existingStep =>
      violation.step < existingStep then
    { p with
      violationSchedules := p.violationSchedules.insert violationKey perPathSched
      violationScheduleSteps := p.violationScheduleSteps.insert violationKey violation.step }
  else p

variable [DecidableEq W]

/-- A step of worker `w`, with what it reports. -/
def act (maxDepth : UInt32) (initialSeed : W → UInt64) (p : ReportingPool W) (w : W) :
    PoolAction → ReportingPool W
  | .act action => { p with pool := p.pool.act maxDepth w action }
  | .assertion assertType condition =>
    { p with assertions := processAssertion p.assertions assertType condition }
  | .violation property message burstInsns =>
    let worker := p.pool.workers w
    match worker.fe.bind fun snapID =>
        worker.report (initialSeed w) property message burstInsns snapID with
    | none => p
    | some (violation, perPathSched) => p.addViolation violation perPathSched

def run (maxDepth : UInt32) (initialSeed : W → UInt64) (p : ReportingPool W)
    (actions : List (W × PoolAction)) : ReportingPool W :=
  actions.foldl (fun p (w, action) => p.act maxDepth initialSeed w action) p

end ReportingPool

theorem balanced_processAssertion {counts : AssertionCounts} (balanced : counts.Balanced)
    (assertType : String) (condition : Bool) :
    (processAssertion counts assertType condition).Balanced := by
  unfold processAssertion
  split
  case h_1 | h_2 => exact AssertionCounts.balanced_countAlways balanced
  case h_3 => exact AssertionCounts.balanced_countSometimes balanced
  case h_4 => exact AssertionCounts.balanced_countReachable balanced
  case h_5 => exact balanced

def poolCounts (stream : List (String × Bool)) : AssertionCounts :=
  stream.foldl (fun counts a => processAssertion counts a.1 a.2) {}

def serialCounts (stream : List (String × Bool)) : AssertionCounts :=
  stream.foldl (fun counts a => counts.recordAssertion a.1 a.2) {}

variable (stream : List (String × Bool)) (counts : AssertionCounts)

theorem balanced_poolCounts : (poolCounts stream).Balanced := by
  have start : AssertionCounts.Balanced {} := rfl
  exact stream.foldlRecOn _ start fun _ balanced a _ =>
    balanced_processAssertion balanced a.1 a.2

theorem balanced_serialCounts : (serialCounts stream).Balanced := by
  have start : AssertionCounts.Balanced {} := rfl
  exact stream.foldlRecOn _ start fun _ balanced a _ =>
    AssertionCounts.balanced_recordAssertion balanced a.1

def SerialOnly (assertType : String) : Prop :=
  assertType = "unreachable" ∨ assertType = "sometimes_all"

instance (assertType : String) : Decidable (SerialOnly assertType) :=
  inferInstanceAs (Decidable (_ ∨ _))

theorem processAssertion_eq {assertType : String} (shared : ¬ SerialOnly assertType)
    (condition : Bool) : processAssertion counts assertType condition =
      counts.recordAssertion assertType condition := by
  unfold processAssertion AssertionCounts.recordAssertion
  split
  case h_5 =>
    split
    case h_3 => exact absurd (Or.inl rfl) shared
    case h_5 => exact absurd (Or.inr rfl) shared
    all_goals first | rfl | contradiction
  all_goals rfl

def counted (counts : AssertionCounts) : Nat :=
  counts.alwaysTotal + counts.sometimesTotal

theorem counted_countAlways (condition : Bool) :
    counted (counts.countAlways condition) = counted counts + 1 := by
  unfold counted AssertionCounts.countAlways
  cases condition <;> simp only [Bool.false_eq_true, if_true, if_false] <;> omega

theorem counted_countSometimes (condition : Bool) :
    counted (counts.countSometimes condition) = counted counts + 1 := by
  unfold counted AssertionCounts.countSometimes
  cases condition <;> simp only [Bool.false_eq_true, if_true, if_false] <;> omega

theorem counted_countReachable (condition : Bool) :
    counted (counts.countReachable condition) = counted counts := by
  unfold counted AssertionCounts.countReachable
  cases condition <;> rfl

theorem counted_recordAssertion (pool serial : AssertionCounts) (assertType : String)
    (condition : Bool) : counted (serial.recordAssertion assertType condition) + counted pool =
      counted (pool.recordAssertion assertType condition) + counted serial := by
  unfold AssertionCounts.recordAssertion
  split
  case h_1 | h_2 | h_3 =>
    rw [counted_countAlways, counted_countAlways]
    omega
  case h_4 | h_5 =>
    rw [counted_countSometimes, counted_countSometimes]
    omega
  case h_6 =>
    rw [counted_countReachable, counted_countReachable]
    omega
  case h_7 => exact Nat.add_comm _ _

theorem counted_foldl (pool serial : AssertionCounts) :
    counted (stream.foldl (fun counts a => counts.recordAssertion a.1 a.2) serial) + counted pool =
      counted (stream.foldl (fun counts a => processAssertion counts a.1 a.2) pool) +
        counted serial + stream.countP fun a => SerialOnly a.1 := by
  induction stream generalizing pool serial with
  | nil => exact Nat.add_comm _ _
  | cons a stream ih =>
    rcases a with ⟨assertType, condition⟩
    have rest := ih (processAssertion pool assertType condition)
      (serial.recordAssertion assertType condition)
    rw [List.foldl_cons, List.foldl_cons, List.countP_cons]
    by_cases missed : SerialOnly assertType
    · have ignored : processAssertion pool assertType condition = pool := by
        rcases missed with rfl | rfl <;> rfl
      have seen : counted (serial.recordAssertion assertType condition) =
          counted serial + 1 := by
        rcases missed with rfl | rfl
        · exact counted_countAlways serial false
        · exact counted_countSometimes serial condition
      simp only [missed, decide_true, if_true]
      rw [ignored] at rest ⊢
      omega
    · have same := counted_recordAssertion pool serial assertType condition
      simp only [missed, decide_false, Bool.false_eq_true, if_false]
      rw [processAssertion_eq pool missed] at rest ⊢
      omega

theorem poolCounts_eq_serialCounts_iff :
    poolCounts stream = serialCounts stream ↔ ∀ a ∈ stream, ¬ SerialOnly a.1 := by
  constructor
  · intro same a member missed
    have difference := counted_foldl stream {} {}
    change counted (serialCounts stream) + _ = counted (poolCounts stream) + _ + _ at difference
    rw [same] at difference
    have positive : 0 < stream.countP fun a => SerialOnly a.1 :=
      List.countP_pos_iff.mpr ⟨a, member, decide_eq_true missed⟩
    omega
  · intro shared
    refine List.foldl_ext _ _ _ fun counts a member => ?_
    exact processAssertion_eq counts (shared a member) a.2

namespace ReportingPool

variable {W : Type u} [DecidableEq W] (maxDepth : UInt32) (initialSeed : W → UInt64)

def assertionsOf (actions : List (W × PoolAction)) : List (String × Bool) :=
  actions.filterMap fun
    | (_, .assertion assertType condition) => some (assertType, condition)
    | _ => none

omit [DecidableEq W] in
theorem assertions_addViolation (p : ReportingPool W) (violation : Violation)
    (perPathSched : Schedule) :
    (p.addViolation violation perPathSched).assertions = p.assertions := by
  unfold addViolation
  dsimp only
  split <;> rfl

theorem assertions_run (actions : List (W × PoolAction)) (p : ReportingPool W) :
    (p.run maxDepth initialSeed actions).assertions =
      (assertionsOf actions).foldl (fun counts a => processAssertion counts a.1 a.2)
        p.assertions := by
  induction actions generalizing p with
  | nil => rfl
  | cons step actions ih =>
    rcases step with ⟨w, action⟩
    refine (ih _).trans ?_
    cases action with
    | act action | assertion assertType condition => rfl
    | violation property message burstInsns =>
      change List.foldl _ (act _ _ _ _ _).assertions (assertionsOf actions) = _
      congr 1
      unfold act
      dsimp only
      split
      · rfl
      · exact assertions_addViolation p _ _

/-- The counts of the pool are those of the explorer for the same stream, and both are balanced,
exactly when the stream has no assertion of type unreachable or sometimes-all. -/
theorem pool_counts_agree_with_serial_iff (actions : List (W × PoolAction)) :
    let pool := (run maxDepth initialSeed {} actions).assertions
    let serial := serialCounts (assertionsOf actions)
    (pool = serial ∧ pool.Balanced ∧ serial.Balanced) ↔
      ∀ a ∈ assertionsOf actions, a.1 ≠ "unreachable" ∧ a.1 ≠ "sometimes_all" := by
  intro pool serial
  have counts : pool = poolCounts (assertionsOf actions) :=
    assertions_run maxDepth initialSeed actions {}
  rw [counts]
  have balanced := balanced_poolCounts (assertionsOf actions)
  have serialBalanced := balanced_serialCounts (assertionsOf actions)
  rw [and_iff_left ⟨balanced, serialBalanced⟩, poolCounts_eq_serialCounts_iff]
  simp only [SerialOnly, not_or, ne_eq]

/-- A reached unreachable assertion is a failure for the explorer only. -/
theorem pool_ignores_unreachable :
    let actions := [((), PoolAction.assertion "unreachable" false)]
    let pool := (run 10 (fun _ => 0) {} actions).assertions
    let serial := serialCounts (assertionsOf actions)
    pool ≠ serial ∧ pool.alwaysFailed = 0 ∧ serial.alwaysFailed = 1 := by
  decide

end ReportingPool

end OpenThesis.Orchestrator
