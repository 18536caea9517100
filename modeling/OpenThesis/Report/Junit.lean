import OpenThesis.Orchestrator.Output
import OpenThesis.Report.Properties

/-!
# The JUnit file

`WriteJUnit` (`internal/report/junit.go`) and `Generate` (`internal/report/report.go`). Numbers and
times with decimals are texts.
-/

namespace OpenThesis.Report

open Explorer Keyed Orchestrator List

universe u

structure Finding where
  property : String
  message : String
  assertType : String
  status : String
  passedCount : Nat
  failedCount : Nat
  deriving DecidableEq, Repr

def buildFindings (properties : List PropertyGroup) : List Finding :=
  properties.flatMap fun group =>
    (group.properties.filter (·.status = .failed)).map fun prop =>
      { property := prop.assertType
        message := prop.message
        assertType := prop.assertType
        status := "new"
        passedCount := prop.passed
        failedCount := prop.failed }

structure AssertionGroup where
  total : Int := 0
  passed : Int := 0
  failed : Int := 0
  deriving DecidableEq, Repr

structure AssertionSummary where
  always : AssertionGroup := {}
  sometimes : AssertionGroup := {}
  reachable : AssertionGroup := {}
  deriving DecidableEq, Repr

structure CoverageSummary where
  totalEdges : UInt64 := 0
  newEdges : UInt64 := 0
  percentage : String := ""
  deriving DecidableEq, Repr

structure RunReport where
  projectName : String := ""
  createdAt : String := ""
  seconds : String := ""
  violations : List ViolationEntry := []
  assertions : AssertionSummary := {}
  coverage : CoverageSummary := {}
  findings : List Finding := []
  deriving DecidableEq, Repr

structure Texts where
  createdAt : String
  seconds : String
  percentage : UInt64 → UInt64 → String

def summarizeAssertions (counts : AssertionCounts) : AssertionSummary where
  always :=
    { total := counts.alwaysTotal, passed := counts.alwaysPassed, failed := counts.alwaysFailed }
  sometimes := { total := counts.sometimesTotal, passed := counts.sometimesPassed }
  reachable := { total := counts.reachableTotal, passed := counts.reachablePassed }

def generate (texts : Texts) (result : Result) : RunReport where
  createdAt := texts.createdAt
  seconds := texts.seconds
  violations := triage result.violations
  assertions := summarizeAssertions result.assertions
  coverage :=
    { totalEdges := result.totalEdges
      newEdges := result.newEdges
      percentage := texts.percentage result.newEdges result.totalEdges }
  findings := buildFindings (buildPropertyGroups result)

structure JunitFailure where
  message : String
  type : String
  text : String
  deriving DecidableEq, Repr

structure JunitTestCase where
  classname : String
  name : String
  time : String := ""
  failure : Option JunitFailure := none
  deriving DecidableEq, Repr

structure JunitTestSuite where
  name : String
  tests : Nat := 0
  failures : Nat := 0
  timestamp : String := ""
  testCases : List JunitTestCase := []
  deriving DecidableEq, Repr

/-- The file. -/
structure JunitTestSuites where
  name : String
  tests : Nat := 0
  failures : Nat := 0
  suites : List JunitTestSuite := []
  deriving DecidableEq, Repr

namespace JunitTestSuite

def addTC (suite : JunitTestSuite) (classname name : String) (failMsg : Option String) :
    JunitTestSuite :=
  { suite with
    tests := suite.tests + 1
    failures := suite.failures + if failMsg.isSome then 1 else 0
    testCases := suite.testCases ++
      [{ classname, name
         failure := failMsg.map fun message =>
          { message, type := "assertion", text := message } }] }

def addGroup (suite : JunitTestSuite) (classname : String) (group : AssertionGroup)
    (failed : List (String × String)) (another failMsg allPassed : String) : JunitTestSuite :=
  if 0 < group.total then
    if 0 < group.failed then
      let suite := failed.foldl (fun suite (name, msg) => suite.addTC classname name (some msg))
        suite
      (range (group.failed - failed.length).toNat).foldl
        (fun suite i => suite.addTC classname s!"{another} {i + 1}" (some failMsg)) suite
    else suite.addTC classname allPassed none
  else suite

end JunitTestSuite

namespace RunReport

variable (r : RunReport)

def violSuite : JunitTestSuite where
  name := "violations"
  tests := r.violations.length + 1
  failures := r.violations.length
  timestamp := r.createdAt
  testCases :=
    if r.violations = [] then
      [{ classname := "openthesis.violations", name := "no violations found", time := r.seconds }]
    else
      r.violations.map fun v =>
        { classname := "openthesis.violations"
          name := v.property
          time := "0"
          failure := some
            { message := v.message
              type := "violation"
              text := s!"property: {v.property}\nmessage: {v.message}\n" ++
                s!"snapshot: {v.snapshotID}\nseed: {v.seed}\nstep: {v.step}" } }

def alwaysFailed : Std.ExtTreeMap String String :=
  (r.findings.filter fun f => "always".isPrefixOf f.assertType).foldl
    (fun m f => m.insert f.message s!"property: {f.message}\nfailed {f.failedCount} times") ∅

def neverTrue (isOf : String → Bool) : Std.ExtTreeSet String :=
  (r.findings.filter fun f => isOf f.assertType && 0 < f.failedCount).foldl
    (fun m f => m.insert f.message) ∅

/-- The assertions, group by group, and the coverage. -/
def assertSuite : JunitTestSuite :=
  let suite : JunitTestSuite := { name := "assertions", timestamp := r.createdAt }
  let suite := suite.addGroup "openthesis.always" r.assertions.always r.alwaysFailed.toList
    "always assertion" "always assertion failed"
    s!"all {r.assertions.always.total} always assertions passed"
  let suite := suite.addGroup "openthesis.sometimes" r.assertions.sometimes
    ((r.neverTrue fun assertType => "sometimes".isPrefixOf assertType).toList.map
      fun msg => (msg, "assertion was never observed to be true"))
    "sometimes assertion" "assertion was never observed to be true"
    s!"all {r.assertions.sometimes.total} sometimes assertions observed"
  let suite := suite.addGroup "openthesis.reachable" r.assertions.reachable
    ((r.neverTrue fun assertType => assertType = "reachable").toList.map
      fun msg => (msg, "reachable point was never reached"))
    "reachable assertion" "reachable point was never reached"
    s!"all {r.assertions.reachable.total} reachable assertions hit"
  if 0 < r.coverage.totalEdges then
    suite.addTC "openthesis.coverage"
      s!"coverage {r.coverage.percentage}% ({r.coverage.totalEdges} edges)" none
  else suite

def writeJUnit : JunitTestSuites :=
  let suites := [r.violSuite, r.assertSuite]
  { name := if r.projectName = "" then "openthesis" else r.projectName
    tests := suites.foldl (fun total s => total + s.tests) 0
    failures := suites.foldl (fun total s => total + s.failures) 0
    suites }

end RunReport

namespace JunitTestSuite

/-- The attributes say how many test cases there are, and how many of them failed. -/
structure Counted (suite : JunitTestSuite) : Prop where
  tests : suite.tests = suite.testCases.length
  failures : suite.failures = suite.testCases.countP (·.failure.isSome)

def Fails (suite : JunitTestSuite) : Prop :=
  ∃ tc ∈ suite.testCases, tc.failure.isSome

variable {suite : JunitTestSuite} {classname name : String}

theorem Counted.addTC (counted : suite.Counted) (failMsg : Option String) :
    (suite.addTC classname name failMsg).Counted where
  tests := by
    rw [JunitTestSuite.addTC, counted.tests, length_append]
    rfl
  failures := by
    rw [JunitTestSuite.addTC, counted.failures, countP_append]
    cases failMsg <;> rfl

theorem fails_addTC (failMsg : Option String) :
    (suite.addTC classname name failMsg).Fails ↔ suite.Fails ∨ failMsg.isSome := by
  simp [Fails, addTC, or_and_right, exists_or]

theorem Counted.foldl_addTC {α : Type u} (counted : suite.Counted) (name msg : α → String)
    (items : List α) :
    (items.foldl (fun suite item => suite.addTC classname (name item) (some (msg item)))
      suite).Counted :=
  foldlRecOn (motive := Counted) items _ counted fun _ counted _ _ => counted.addTC _

theorem fails_foldl_addTC {α : Type u} (name msg : α → String) (items : List α) :
    (items.foldl (fun suite item => suite.addTC classname (name item) (some (msg item)))
      suite).Fails ↔ suite.Fails ∨ items ≠ [] := by
  induction items generalizing suite with
  | nil => simp
  | cons item items ih =>
    rw [foldl_cons, ih, fails_addTC]
    simp

variable {group : AssertionGroup} {failed : List (String × String)}
  {another failMsg allPassed : String}

theorem Counted.addGroup (counted : suite.Counted) :
    (suite.addGroup classname group failed another failMsg allPassed).Counted := by
  rw [JunitTestSuite.addGroup]
  split_ifs
  · exact (counted.foldl_addTC Prod.fst Prod.snd failed).foldl_addTC _ _ _
  · exact counted.addTC none
  · exact counted

theorem fails_addGroup : (suite.addGroup classname group failed another failMsg allPassed).Fails ↔
      suite.Fails ∨ 0 < group.total ∧ 0 < group.failed := by
  rw [addGroup]
  split_ifs with total failures
  · rw [fails_foldl_addTC, fails_foldl_addTC Prod.fst Prod.snd]
    have some : failed ≠ [] ∨ range (group.failed - failed.length).toNat ≠ [] := by
      cases failed with
      | nil => exact .inr (by simpa using failures)
      | cons => exact .inl (cons_ne_nil _ _)
    simp only [or_assoc, some, total, failures, and_self]
  · simp [fails_addTC, failures]
  · simp [total]

end JunitTestSuite

structure JunitTestSuites.Counted (file : JunitTestSuites) : Prop where
  suites : ∀ suite ∈ file.suites, suite.Counted
  tests : file.tests = (file.suites.map (·.tests)).sum
  failures : file.failures = (file.suites.map (·.failures)).sum

namespace RunReport

variable (r : RunReport)

theorem counted_assertSuite : r.assertSuite.Counted := by
  have empty : JunitTestSuite.Counted { name := "assertions", timestamp := r.createdAt } :=
    ⟨rfl, rfl⟩
  rw [assertSuite]
  split_ifs
  · exact empty.addGroup.addGroup.addGroup.addTC none
  · exact empty.addGroup.addGroup.addGroup

theorem counted_violSuite_iff : r.violSuite.Counted ↔ r.violations = [] := by
  constructor
  · intro counted
    by_contra some
    have tests := counted.tests
    simp [violSuite, some] at tests
  · intro none
    simp only [violSuite, none]
    exact ⟨rfl, rfl⟩

theorem counted_writeJUnit_iff : r.writeJUnit.Counted ↔ r.violations = [] := by
  rw [← counted_violSuite_iff]
  constructor
  · intro counted
    exact counted.suites _ mem_cons_self
  · intro counted
    refine ⟨?_, by simp [writeJUnit], by simp [writeJUnit]⟩
    simpa [writeJUnit] using ⟨counted, r.counted_assertSuite⟩

theorem fails_assertSuite_iff : r.assertSuite.Fails ↔
      (0 < r.assertions.always.total ∧ 0 < r.assertions.always.failed) ∨
        (0 < r.assertions.sometimes.total ∧ 0 < r.assertions.sometimes.failed) ∨
        (0 < r.assertions.reachable.total ∧ 0 < r.assertions.reachable.failed) := by
  have empty : ¬ JunitTestSuite.Fails { name := "assertions", timestamp := r.createdAt } := by
    simp [JunitTestSuite.Fails]
  rw [assertSuite]
  split_ifs
  · rw [JunitTestSuite.fails_addTC, JunitTestSuite.fails_addGroup, JunitTestSuite.fails_addGroup,
      JunitTestSuite.fails_addGroup]
    simp [empty, or_assoc]
  · rw [JunitTestSuite.fails_addGroup, JunitTestSuite.fails_addGroup,
      JunitTestSuite.fails_addGroup]
    simp [empty, or_assoc]

end RunReport

def alwaysTypes : List String :=
  ["always", "always_or_unreachable", "unreachable"]

def onceTypes : List String :=
  ["sometimes", "sometimes_all", "reachable"]

/-- A property that must hold at least once was evaluated, but never true. -/
def NeverTrue (evals : List AssertionEval) : Prop :=
  ∃ eval ∈ evals, eval.assertType ∈ onceTypes ∧
    ∀ other ∈ evals, other.IsOf eval.assertType eval.message → other.condition = false

def ShouldFail (evals : List AssertionEval) : Prop :=
  (∃ eval ∈ evals, eval.assertType ∈ alwaysTypes ∧ eval.condition = false) ∨ NeverTrue evals

inductive Mode
  | serial
  | pool
  deriving DecidableEq, Repr

def Mode.counts (evals : List AssertionEval) : Mode → AssertionCounts
  | serial => serialCounts (evals.map fun eval => (eval.assertType, eval.condition))
  | pool => poolCounts (evals.map fun eval => (eval.assertType, eval.condition))

def Mode.countsFailure (assertType : String) (condition : Bool) : Mode → Bool
  | serial =>
    (assertType = "always" || assertType = "always_or_unreachable") && !condition ||
      assertType = "unreachable"
  | pool => (assertType = "always" || assertType = "always_or_unreachable") && !condition

def recordedIn {S : Type u} (ops : List (ExplorerOp S)) : List (String × Bool) :=
  ops.filterMap fun
    | .recordAssertion assertType condition => some (assertType, condition)
    | _ => none

theorem assertions_recordAssertionEval {n : Nat} {S : Type u} (e : ExplorerState n S)
    (eval : AssertionEval) : (e.recordAssertionEval eval).assertions = e.assertions := by
  have byType (e : ExplorerState n S) : (e.evalByType eval).assertions = e.assertions := by
    unfold ExplorerState.evalByType ExplorerState.evalSometimes ExplorerState.evalReachable
    split
    case h_4 => rfl
    all_goals split_ifs <;> rfl
  unfold ExplorerState.recordAssertionEval
  dsimp only
  split_ifs
  · rw [byType]
  · rw [byType]

theorem alwaysFailed_recordAssertion (counts : AssertionCounts) (assertType : String)
    (condition : Bool) :
    (counts.recordAssertion assertType condition).alwaysFailed =
      counts.alwaysFailed + if Mode.serial.countsFailure assertType condition then 1 else 0 := by
  unfold AssertionCounts.recordAssertion
  split
  case h_7 => simp_all [Mode.countsFailure]
  all_goals cases condition <;> rfl

theorem alwaysFailed_processAssertion (counts : AssertionCounts) (assertType : String)
    (condition : Bool) :
    (processAssertion counts assertType condition).alwaysFailed =
      counts.alwaysFailed + if Mode.pool.countsFailure assertType condition then 1 else 0 := by
  unfold processAssertion
  split
  case h_5 => simp_all [Mode.countsFailure]
  all_goals cases condition <;> rfl

theorem alwaysFailed_foldl {count : AssertionCounts → String → Bool → AssertionCounts}
    {failure : String → Bool → Bool}
    (step : ∀ counts assertType condition, (count counts assertType condition).alwaysFailed =
      counts.alwaysFailed + if failure assertType condition then 1 else 0)
    (stream : List (String × Bool)) (counts : AssertionCounts) :
    (stream.foldl (fun counts a => count counts a.1 a.2) counts).alwaysFailed =
      counts.alwaysFailed + stream.countP fun a => failure a.1 a.2 := by
  induction stream generalizing counts with
  | nil => rfl
  | cons a stream ih =>
    rw [foldl_cons, ih, step, countP_cons]
    omega

theorem Mode.alwaysFailed_pos_iff (mode : Mode) (evals : List AssertionEval) :
    0 < (mode.counts evals).alwaysFailed ↔
      ∃ eval ∈ evals, mode.countsFailure eval.assertType eval.condition := by
  have counted : (mode.counts evals).alwaysFailed =
      (evals.map fun eval => (eval.assertType, eval.condition)).countP
        fun a => mode.countsFailure a.1 a.2 := by
    cases mode with
    | serial => exact (alwaysFailed_foldl alwaysFailed_recordAssertion _ _).trans (Nat.zero_add _)
    | pool => exact (alwaysFailed_foldl alwaysFailed_processAssertion _ _).trans (Nat.zero_add _)
  rw [counted, countP_pos_iff]
  simp

theorem Mode.balanced_counts (mode : Mode) (evals : List AssertionEval) :
    (mode.counts evals).Balanced := by
  cases mode with
  | serial => exact balanced_serialCounts _
  | pool => exact balanced_poolCounts _

theorem fails_generate_iff (texts : Texts) (result : Result) (mode : Mode)
    (evals : List AssertionEval) :
    (generate texts { result with assertions := mode.counts evals }).assertSuite.Fails ↔
      ∃ eval ∈ evals, mode.countsFailure eval.assertType eval.condition := by
  have balanced : (mode.counts evals).alwaysTotal = _ := mode.balanced_counts evals
  rw [RunReport.fails_assertSuite_iff, ← mode.alwaysFailed_pos_iff]
  simp only [generate, summarizeAssertions, lt_irrefl, and_false, or_false]
  omega

theorem assertions_run_explorer {n : Nat} {S : Type u} [BEq S] [LT S] [DecidableLT S]
    (e : ExplorerState n S) (ops : List (ExplorerOp S)) : (e.run ops).assertions =
      (recordedIn ops).foldl (fun counts a => counts.recordAssertion a.1 a.2) e.assertions := by
  induction ops generalizing e with
  | nil => rfl
  | cons op ops ih =>
    rw [ExplorerState.run, foldl_cons, ← ExplorerState.run, ih]
    cases op with
    | recordAssertionEval eval =>
      rw [ExplorerState.apply, assertions_recordAssertionEval]
      rfl
    | pushFrontier id rating =>
      have same : (e.pushFrontier id rating).assertions = e.assertions := by
        rw [ExplorerState.pushFrontier]
        split <;> rfl
      rw [ExplorerState.apply, same]
      rfl
    | _ => rfl

theorem assertions_buildResult {S : Type u} [BEq S] [LT S] [DecidableLT S]
    (coverageMapSize : Int64) (deterministicCoverage : Bool) (ops : List (ExplorerOp S))
    (evals : List AssertionEval)
    (recorded : recordedIn ops = evals.map fun eval => (eval.assertType, eval.condition)) :
    ((newExplorer S coverageMapSize deterministicCoverage).run ops).buildResult.assertions =
      Mode.serial.counts evals := by
  rw [Mode.counts, ← recorded]
  exact assertions_run_explorer _ ops

theorem assertions_pool {W : Type u} [DecidableEq W] (maxDepth : UInt32)
    (initialSeed : W → UInt64) (actions : List (W × PoolAction)) (evals : List AssertionEval)
    (processed : ReportingPool.assertionsOf actions =
      evals.map fun eval => (eval.assertType, eval.condition)) :
    (ReportingPool.run maxDepth initialSeed {} actions).assertions = Mode.pool.counts evals := by
  rw [Mode.counts, ← processed]
  exact ReportingPool.assertions_run maxDepth initialSeed actions {}

/-- The explorer counts an evaluation of an unreachable location as a failure even if it is true;
the pool does not count it. -/
def Mode.Truthful (evals : List AssertionEval) : Mode → Prop
  | serial =>
    (∃ eval ∈ evals, eval.assertType ∈ alwaysTypes ∧ eval.condition = false) ∨
      ((∃ eval ∈ evals, eval.assertType = "unreachable" ∧ eval.condition = true) ↔
        NeverTrue evals)
  | pool =>
    (∃ eval ∈ evals, eval.assertType ∈ ["always", "always_or_unreachable"] ∧
        eval.condition = false) ∨
      ¬ (∃ eval ∈ evals, eval.assertType = "unreachable" ∧ eval.condition = false) ∧
        ¬ NeverTrue evals

variable (evals : List AssertionEval)

theorem countsFailure_serial_iff :
    (∃ eval ∈ evals, Mode.serial.countsFailure eval.assertType eval.condition) ↔
      (∃ eval ∈ evals, eval.assertType ∈ alwaysTypes ∧ eval.condition = false) ∨
        ∃ eval ∈ evals, eval.assertType = "unreachable" ∧ eval.condition = true := by
  rw [← exists_or]
  refine exists_congr fun eval => ?_
  rw [← and_or_left]
  refine and_congr_right fun _ => ?_
  cases condition : eval.condition <;> simp [Mode.countsFailure, alwaysTypes, or_assoc]

theorem countsFailure_pool_iff :
    (∃ eval ∈ evals, Mode.pool.countsFailure eval.assertType eval.condition) ↔
      ∃ eval ∈ evals, eval.assertType ∈ ["always", "always_or_unreachable"] ∧
        eval.condition = false := by
  simp [Mode.countsFailure]

theorem shouldFail_iff_pool : ShouldFail evals ↔
      (∃ eval ∈ evals, Mode.pool.countsFailure eval.assertType eval.condition) ∨
        (∃ eval ∈ evals, eval.assertType = "unreachable" ∧ eval.condition = false) ∨
        NeverTrue evals := by
  rw [ShouldFail, ← or_assoc, ← exists_or]
  refine or_congr_left (exists_congr fun eval => ?_)
  rw [← and_or_left]
  refine and_congr_right fun _ => ?_
  cases condition : eval.condition <;> simp [Mode.countsFailure, alwaysTypes, or_assoc]

end OpenThesis.Report
