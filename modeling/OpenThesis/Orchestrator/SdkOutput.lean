import Mathlib.Data.Rat.Floor
import OpenThesis.Explorer.InputTree
import OpenThesis.Explorer.Session
import OpenThesis.Orchestrator.Step
import OpenThesis.Run.Core

/-!
# Output of the SDK in serial mode

`processOutput` (`internal/orchestrator/explore.go`) after a burst, or `waitForBurstDone`. The event
store, the observer, progress messages and the returned flag are left out.
-/

namespace OpenThesis.Orchestrator

open Fault SnapshotTree Explorer List
open Explorer.ExplorerState

universe u v

structure ParsedAssertion where
  assertType : String
  condition : Bool
  message : String
  subGoals : Option SubGoals := none
  satisfiedCount : Int := 0
  totalCount : Int := 0

structure ParsedGuidance where
  guidanceType : String
  name : String
  value : Int64

structure ParsedRandomChoice where
  chosenIndex : Int64
  totalChoices : Int64
  valueType : String := ""

structure ParsedLifecycle where
  eventType : String
  durationSeconds : ℚ := 0
  now : Int := 0

/-- What was parsed of one chunk. -/
structure SdkChunk where
  assertions : List ParsedAssertion := []
  guidances : List ParsedGuidance := []
  randomChoices : List ParsedRandomChoice := []
  lifecycleEvents : List ParsedLifecycle := []

namespace ParsedAssertion

def isViolation (a : ParsedAssertion) : Bool :=
  ((a.assertType = "always" || a.assertType = "always_or_unreachable") && !a.condition) ||
    a.assertType = "unreachable" || (a.assertType = "ever_since" && !a.condition)

def noveltyKey (a : ParsedAssertion) : String :=
  a.assertType ++ ":" ++ a.message ++ ":" ++ toString a.condition

def subGoalEval (a : ParsedAssertion) : Option SometimesAllEval :=
  if a.assertType = "sometimes_all" then
    a.subGoals.map fun subGoals =>
      { name := a.message, subGoals, satisfiedCount := a.satisfiedCount,
        totalCount := a.totalCount }
  else none

end ParsedAssertion

def ParsedRandomChoice.event (rc : ParsedRandomChoice) : ChoiceEvent where
  chosenIndex := rc.chosenIndex.toInt
  totalChoices := rc.totalChoices.toInt
  valueType := rc.valueType

def ParsedLifecycle.deadline (evt : ParsedLifecycle) : Int :=
  evt.now + ⌊evt.durationSeconds * 1000000000⌋

namespace SdkChunk

def violations (chunk : SdkChunk) : List String :=
  (chunk.assertions.filter (·.isViolation)).map (·.message)

def subGoalEvals (chunk : SdkChunk) : List SometimesAllEval :=
  chunk.assertions.filterMap (·.subGoalEval)

def output (chunk : SdkChunk) : Output where
  violations := chunk.violations.map fun message => (message, message)
  lifecycleEvents := chunk.lifecycleEvents.map (·.eventType)

def burstDone (chunk : SdkChunk) : Bool :=
  chunk.lifecycleEvents.any fun evt => evt.eventType = "openthesis_burst_done"

end SdkChunk

/-- The serial loop with its explorer. -/
structure SdkState (n : Nat) (S : Type u) (R : Type v) where
  explorer : ExplorerState n S
  faults : OrchestratorState R
  stepChoiceEvents : List ChoiceEvent := []
  faultQuietUntil : Int := 0
  preforkMode : Bool := false
  currentTimeNS : UInt64 := 0
  currentStep : Nat := 0
  currentBurstInsns : UInt64 := 0

namespace SdkState

variable {n : Nat} {S : Type u} {R : Type v}

def recordEval (o : SdkState n S R) (a : ParsedAssertion) : SdkState n S R :=
  let e := o.explorer.recordAssertion a.assertType a.condition
  let e := e.recordAssertionEval
    { step := e.states, snapshotID := e.tree.current, property := a.message,
      message := a.message, assertType := a.assertType, condition := a.condition }
  { o with
    explorer := { e with coverage := (e.coverage.recordAssertionNovelty a.noveltyKey).1 } }

def recordSubGoals (o : SdkState n S R) (eval : SometimesAllEval) : SdkState n S R :=
  let e := o.explorer.recordSometimesAllEval eval
  let (boost, tracker) := e.sometimesAllTracker.recordSometimesAllEval eval
  let covKey := sometimesAllCoverageKey eval.name eval.subGoals
  { o with
    explorer :=
      { e with
        sometimesAllTracker := tracker
        coverage :=
          if 0 < boost then (e.coverage.recordAssertionNovelty covKey).1 else e.coverage } }

def processAssertion (o : SdkState n S R) (a : ParsedAssertion) : SdkState n S R :=
  match a.subGoalEval with
  | none => o.recordEval a
  | some eval => (o.recordEval a).recordSubGoals eval

def processViolation (cfg : SerialConfig) (burstInsns : UInt64) (o : SdkState n S R)
    (message : String) : SdkState n S R :=
  { o with
    explorer := o.explorer.reportViolation
      { property := message, message, snapshotID := o.explorer.tree.current, seed := cfg.seed,
        step := o.currentStep, burstInsns } }

def processGuidance (o : SdkState n S R) (g : ParsedGuidance) : SdkState n S R :=
  { o with
    explorer :=
      { o.explorer with
        coverage := (o.explorer.coverage.updateGuidance g.guidanceType g.name g.value).1 } }

def recordChoice (o : SdkState n S R) (rc : ParsedRandomChoice) : SdkState n S R :=
  { o with
    explorer :=
      { o.explorer with
        coverage := (o.explorer.coverage.recordRandomBranch rc.chosenIndex rc.totalChoices).1 } }

def processChoice (o : SdkState n S R) (rc : ParsedRandomChoice) : SdkState n S R :=
  { o.recordChoice rc with
    stepChoiceEvents := o.stepChoiceEvents ++ [rc.event] }

def takeSnapshotPaused (o : SdkState n S R) (parentID : ID) (snapshot : Option Paused) :
    SdkState n S R :=
  match snapshot with
  | none => o
  | some paused =>
    match o.explorer.tree.create parentID paused.hypID o.currentTimeNS paused.covHash
        paused.rngState o.faults.currentFaultCount o.faults.currentFaultKindMask with
    | .error _ => o
    | .ok (_, tree) => { o with explorer := { o.explorer with tree } }

def enterPrefork (snapshot : Option Paused) (o : SdkState n S R) (evt : ParsedLifecycle) :
    SdkState n S R :=
  if evt.eventType = "openthesis_prefork" ∧ o.preforkMode = false then
    takeSnapshotPaused { o with preforkMode := true } o.explorer.tree.current snapshot
  else o

def quietAfter (quietUntil : Int) (evt : ParsedLifecycle) : Int :=
  if evt.eventType = "openthesis_stop_faults" ∧ 0 < evt.durationSeconds ∧
      quietUntil < evt.deadline then evt.deadline
  else quietUntil

def processLifecycle (snapshot : Option Paused) (o : SdkState n S R) (evt : ParsedLifecycle) :
    SdkState n S R :=
  { o.enterPrefork snapshot evt with faultQuietUntil := quietAfter o.faultQuietUntil evt }

def processChunk (cfg : SerialConfig) (snapshot : Option Paused) (o : SdkState n S R)
    (chunk : SdkChunk) : SdkState n S R :=
  let burstInsns := o.currentBurstInsns
  let o := chunk.assertions.foldl processAssertion o
  let o := chunk.violations.foldl (processViolation cfg burstInsns) o
  let o := chunk.guidances.foldl processGuidance o
  let o := chunk.randomChoices.foldl processChoice o
  chunk.lifecycleEvents.foldl (processLifecycle snapshot) o

def processOutput (cfg : SerialConfig) (snapshot : Option Paused) (chunks : List SdkChunk)
    (o : SdkState n S R) : SdkState n S R :=
  chunks.foldl (processChunk cfg snapshot) o

def awaitChunk (cfg : SerialConfig) (o : SdkState n S R) (chunk : SdkChunk) : SdkState n S R :=
  let o := chunk.assertions.foldl recordEval o
  let o := chunk.violations.foldl (processViolation cfg 0) o
  let o := chunk.guidances.foldl processGuidance o
  chunk.randomChoices.foldl recordChoice o

def waitForBurstDone (cfg : SerialConfig) : List (List SdkChunk) → SdkState n S R →
    SdkState n S R × Bool
  | [], o => (o, false)
  | outputs :: polls, o =>
    let o := outputs.foldl (awaitChunk cfg) o
    if outputs.any (·.burstDone) then (o, true) else waitForBurstDone cfg polls o

/-! Both loops do to the tree and to the violations what a serial step does. -/

def serial (o : SdkState n S R) : Serial R where
  tree := o.explorer.tree
  faults := o.faults
  violations := o.explorer.violations
  states := o.explorer.states
  preforkMode := o.preforkMode
  currentTimeNS := o.currentTimeNS
  currentStep := o.currentStep
  currentBurstInsns := o.currentBurstInsns

variable (o : SdkState n S R) (snapshot : Option Paused) (cfg : SerialConfig)

variable (a : ParsedAssertion) (rc : ParsedRandomChoice)

theorem keeps_recordEval :
    Keeps o.explorer { (o.recordEval a).explorer with coverage := o.explorer.coverage } := by
  have kept := keeps_recordAssertionEval (o.explorer.recordAssertion a.assertType a.condition)
    { step := o.explorer.states, snapshotID := o.explorer.tree.current, property := a.message,
      message := a.message, assertType := a.assertType, condition := a.condition }
  exact ⟨kept.tree, rfl, kept.frontier, kept.violations, kept.states, kept.saturation,
    kept.sometimesAllTracker, kept.stepSometimesAllEvals, kept.deterministicCoverage⟩

theorem serial_recordEval : (o.recordEval a).serial = o.serial := by
  have kept := keeps_recordEval o a
  unfold serial
  congr 1
  · exact kept.tree
  · exact kept.violations
  · exact kept.states

theorem serial_processAssertion : (o.processAssertion a).serial = o.serial := by
  unfold processAssertion
  cases a.subGoalEval with
  | none | some eval => exact serial_recordEval o a

theorem serial_processGuidance (g : ParsedGuidance) : (o.processGuidance g).serial = o.serial :=
  rfl

theorem serial_recordChoice : (o.recordChoice rc).serial = o.serial :=
  rfl

theorem serial_processChoice : (o.processChoice rc).serial = o.serial :=
  rfl

theorem serial_takeSnapshotPaused (parentID : ID) (snapshot : Option Paused) :
    (o.takeSnapshotPaused parentID snapshot).serial =
      o.serial.takeSnapshotPaused parentID snapshot := by
  unfold takeSnapshotPaused Serial.takeSnapshotPaused
  cases snapshot with
  | none => rfl
  | some paused =>
    dsimp only [serial]
    cases o.explorer.tree.create parentID paused.hypID o.currentTimeNS paused.covHash
        paused.rngState o.faults.currentFaultCount o.faults.currentFaultKindMask with
    | error err | ok created => rfl

theorem serial_processLifecycle (evt : ParsedLifecycle) : (o.processLifecycle snapshot evt).serial =
      o.serial.processLifecycle snapshot evt.eventType := by
  have quiet : (o.processLifecycle snapshot evt).serial = (o.enterPrefork snapshot evt).serial :=
    rfl
  rw [quiet]
  unfold Serial.processLifecycle enterPrefork
  have same : o.serial.preforkMode = o.preforkMode := rfl
  rw [same]
  by_cases first : evt.eventType = "openthesis_prefork" ∧ o.preforkMode = false
  · rw [if_pos first, if_pos first]
    exact serial_takeSnapshotPaused _ _ _
  · rw [if_neg first, if_neg first]

theorem serial_foldl_processViolation (burstInsns : UInt64) (messages : List String)
    (o : SdkState n S R) : (messages.foldl (processViolation cfg burstInsns) o).serial =
      (messages.map fun message => (message, message)).foldl
        (Serial.processViolation cfg burstInsns) o.serial := by
  rw [foldl_map]
  exact (foldl_hom serial fun _ _ => rfl).symm

theorem serial_processChunk (o : SdkState n S R) (chunk : SdkChunk) :
    (o.processChunk cfg snapshot chunk).serial =
      o.serial.processChunk cfg snapshot chunk.output := by
  have events : ∀ o : SdkState n S R,
      (chunk.lifecycleEvents.foldl (processLifecycle snapshot) o).serial =
        chunk.output.lifecycleEvents.foldl (Serial.processLifecycle snapshot) o.serial := by
    intro o
    rw [SdkChunk.output, foldl_map]
    exact (foldl_hom serial fun o evt => (serial_processLifecycle o snapshot evt).symm).symm
  unfold processChunk Serial.processChunk
  rw [events, Run.view_foldl serial serial_processChoice,
    Run.view_foldl serial serial_processGuidance, serial_foldl_processViolation,
    Run.view_foldl serial serial_processAssertion]
  rfl

theorem serial_awaitChunk (chunk : SdkChunk) : (o.awaitChunk cfg chunk).serial =
      chunk.output.violations.foldl (Serial.processViolation cfg 0) o.serial := by
  unfold awaitChunk
  rw [Run.view_foldl serial serial_recordChoice,
    Run.view_foldl serial serial_processGuidance, serial_foldl_processViolation,
    Run.view_foldl serial serial_recordEval]
  rfl

structure Ledger where
  subGoals : List SometimesAllEval
  tracker : SometimesAllTracker
  deterministicCoverage : Bool
  choices : List ChoiceEvent
  quietUntil : Int

def ledger (o : SdkState n S R) : Ledger where
  subGoals := o.explorer.stepSometimesAllEvals
  tracker := o.explorer.sometimesAllTracker
  deterministicCoverage := o.explorer.deterministicCoverage
  choices := o.stepChoiceEvents
  quietUntil := o.faultQuietUntil

theorem ledger_recordEval : (o.recordEval a).ledger = o.ledger := by
  have kept := keeps_recordEval o a
  unfold ledger
  congr 1
  · exact kept.stepSometimesAllEvals
  · exact kept.sometimesAllTracker
  · exact kept.deterministicCoverage

theorem ledger_foldl_processAssertion (assertions : List ParsedAssertion) (o : SdkState n S R) :
    (assertions.foldl processAssertion o).ledger =
      { o.ledger with
        subGoals := o.ledger.subGoals ++ assertions.filterMap (·.subGoalEval)
        tracker := (o.ledger.tracker.recordAll (assertions.filterMap (·.subGoalEval))).2 } := by
  induction assertions generalizing o with
  | nil => simp [SometimesAllTracker.recordAll]
  | cons a assertions ih =>
    rw [foldl_cons, ih, filterMap_cons]
    have recorded := ledger_recordEval o a
    unfold processAssertion
    cases a.subGoalEval with
    | none => rw [recorded]
    | some eval =>
      have next : ((o.recordEval a).recordSubGoals eval).ledger =
          { (o.recordEval a).ledger with
            subGoals := (o.recordEval a).ledger.subGoals ++ [eval]
            tracker := ((o.recordEval a).ledger.tracker.recordSometimesAllEval eval).2 } := rfl
      dsimp only
      rw [next, recorded, append_assoc, singleton_append]
      rfl

theorem ledger_processViolation (burstInsns : UInt64) (o : SdkState n S R) (message : String) :
    (o.processViolation cfg burstInsns message).ledger = o.ledger :=
  rfl

theorem ledger_processGuidance (g : ParsedGuidance) : (o.processGuidance g).ledger = o.ledger :=
  rfl

theorem ledger_recordChoice : (o.recordChoice rc).ledger = o.ledger :=
  rfl

theorem ledger_foldl_processChoice (choices : List ParsedRandomChoice) (o : SdkState n S R) :
    (choices.foldl processChoice o).ledger =
      { o.ledger with choices := o.ledger.choices ++ choices.map (·.event) } := by
  induction choices generalizing o with
  | nil => simp
  | cons rc choices ih =>
    rw [foldl_cons, ih, map_cons, append_cons]
    rfl

theorem ledger_takeSnapshotPaused (parentID : ID) (snapshot : Option Paused) :
    (o.takeSnapshotPaused parentID snapshot).ledger = o.ledger := by
  unfold takeSnapshotPaused
  split
  · rfl
  · split <;> rfl

theorem ledger_processLifecycle (evt : ParsedLifecycle) :
    (o.processLifecycle snapshot evt).ledger =
      { o.ledger with quietUntil := quietAfter o.ledger.quietUntil evt } := by
  have entered : (o.enterPrefork snapshot evt).ledger = o.ledger := by
    unfold enterPrefork
    split
    · exact ledger_takeSnapshotPaused _ _ _
    · rfl
  calc (o.processLifecycle snapshot evt).ledger
      = { (o.enterPrefork snapshot evt).ledger with
          quietUntil := quietAfter o.faultQuietUntil evt } := rfl
    _ = { o.ledger with quietUntil := quietAfter o.ledger.quietUntil evt } := by
      rw [entered]
      rfl

theorem ledger_foldl_processLifecycle (events : List ParsedLifecycle) (o : SdkState n S R) :
    (events.foldl (processLifecycle snapshot) o).ledger =
      { o.ledger with quietUntil := events.foldl quietAfter o.ledger.quietUntil } := by
  induction events generalizing o with
  | nil => rfl
  | cons evt events ih => rw [foldl_cons, ih, ledger_processLifecycle, foldl_cons]

theorem ledger_processChunk (o : SdkState n S R) (chunk : SdkChunk) :
    (o.processChunk cfg snapshot chunk).ledger =
      { o.ledger with
        subGoals := o.ledger.subGoals ++ chunk.subGoalEvals
        tracker := (o.ledger.tracker.recordAll chunk.subGoalEvals).2
        choices := o.ledger.choices ++ chunk.randomChoices.map (·.event)
        quietUntil := chunk.lifecycleEvents.foldl quietAfter o.ledger.quietUntil } := by
  unfold processChunk
  rw [ledger_foldl_processLifecycle, ledger_foldl_processChoice,
    Run.view_foldl ledger ledger_processGuidance,
    Run.view_foldl ledger (ledger_processViolation cfg o.currentBurstInsns),
    ledger_foldl_processAssertion]
  rfl

theorem ledger_awaitChunk (chunk : SdkChunk) : (o.awaitChunk cfg chunk).ledger = o.ledger := by
  unfold awaitChunk
  rw [Run.view_foldl ledger ledger_recordChoice, Run.view_foldl ledger ledger_processGuidance,
    Run.view_foldl ledger (ledger_processViolation cfg 0),
    Run.view_foldl ledger ledger_recordEval]

end SdkState

end OpenThesis.Orchestrator
