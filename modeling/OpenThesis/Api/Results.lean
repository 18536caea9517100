import OpenThesis.Keyed.Core
import OpenThesis.Threads.Updates

/-!
# What runs leave in the store

The result of a run is added to the store (`internal/api/testmanager.go`). Random identifiers are
taken to be different; the digest of a fingerprint is left open.
-/

namespace OpenThesis.Api

structure Ids where
  hex : Nat → String
  injective : Function.Injective hex

def Ids.generateID (ids : Ids) (kind : String) (drawn : Nat) : String :=
  kind ++ "_" ++ ids.hex drawn

theorem Ids.generateID_inj (ids : Ids) {kind : String} {first second : Nat} :
    ids.generateID kind first = ids.generateID kind second ↔ first = second := by
  rw [generateID, generateID, String.append_right_inj, ids.injective.eq_iff]

inductive AssertionKind
  | always
  | sometimes
  | reachable
  deriving DecidableEq, Repr

def AssertionKind.name : AssertionKind → String
  | always => "always"
  | sometimes => "sometimes"
  | reachable => "reachable"

structure Violation where
  property : String
  message : String
  deriving DecidableEq, Repr

structure AssertionResult where
  total : Nat := 0
  passed : Nat := 0
  failed : Nat := 0
  deriving DecidableEq, Repr

structure PropertyCount where
  assertType : String
  message : String
  total : Nat
  passed : Nat
  deriving DecidableEq, Repr

/-- The counts that a run returns. -/
structure RunResult where
  totalStates : Nat := 0
  totalEdges : Nat := 0
  newEdges : Nat := 0
  violations : List Violation := []
  always : AssertionResult := {}
  sometimes : AssertionResult := {}
  reachable : AssertionResult := {}
  propertyCounts : List PropertyCount := []
  deriving DecidableEq, Repr

structure RunRecord where
  id : String
  seed : UInt64
  sequence : Nat
  deriving DecidableEq

inductive FindingStatus
  | new
  | ongoing
  | resolved
  | rare
  deriving DecidableEq, Repr

/-- A violation as the store keeps it. -/
structure Finding where
  id : String
  runID : String
  fingerprint : String
  status : FindingStatus
  kind : AssertionKind
  property : String
  message : String
  replayToken : String
  occurrences : Nat
  firstSeenAt : Nat
  deriving DecidableEq

inductive AssertionStatus
  | pending
  | satisfied
  | unsatisfied
  | failing
  | passing
  deriving DecidableEq, Repr

structure Assertion where
  kind : AssertionKind
  message : String
  status : AssertionStatus
  totalEvals : Nat
  passedEvals : Nat
  failedEvals : Nat
  satisfiedCount : Nat
  deriving DecidableEq, Repr

structure Coverage where
  totalEdges : Nat := 0
  cumulativeNewEdges : Nat := 0
  deriving DecidableEq, Repr

/-- The files of a test. -/
structure TestStore where
  runs : Std.ExtTreeMap String RunRecord := ∅
  findings : Std.ExtTreeMap String Finding := ∅
  assertions : Std.ExtTreeMap String Assertion := ∅
  coverage : Coverage := {}
  drawn : Nat := 0

def TestStore.findingFiles (store : TestStore) : List Finding :=
  store.findings.toList.map Prod.snd

def TestStore.findFindingByFingerprint (store : TestStore) (fingerprint : String) :
    Option Finding :=
  store.findingFiles.find? (·.fingerprint = fingerprint)

/-- A change of the store. -/
inductive Update
  | trigger (seed : UInt64)
  | report (run : RunRecord) (kind : AssertionKind) (property message : String)
  | count (id : String) (kind : AssertionKind) (message : String) (total passed failed : Nat)
  | cover (totalEdges newEdges : Nat)

def encodeReplayToken (seed : UInt64) (runID : String) : String :=
  runID ++ ".seed_" ++ toString seed.toNat

def assertionStatus (kind : AssertionKind) (satisfiedOrPassed total : Nat) : AssertionStatus :=
  if total = 0 then .pending
  else
    match kind with
    | .sometimes | .reachable => if 0 < satisfiedOrPassed then .satisfied else .unsatisfied
    | .always => if satisfiedOrPassed < total then .failing else .passing

section

variable (ids : Ids) (digest : String → String)

def fingerprintFinding (kind : AssertionKind) (message : String) : String :=
  digest (kind.name ++ "::" ++ message)

def Finding.again (existing : Finding) : Finding :=
  { existing with
    occurrences := existing.occurrences + 1
    status := if existing.status = .new then .ongoing else existing.status }

namespace Update

def Seen : Update → Type
  | trigger _ => Nat
  | report .. => Option Finding
  | count .. => Option Assertion
  | cover .. => Coverage

def read : (update : Update) → TestStore → update.Seen
  | trigger _, store => store.runs.size
  | report _ kind _ message, store =>
    store.findFindingByFingerprint (fingerprintFinding digest kind message)
  | count id .., store => store.assertions[id]?
  | cover .., store => store.coverage

def newFinding (run : RunRecord) (kind : AssertionKind) (property message id : String) (now : Nat) :
    Finding :=
  { id := id
    runID := run.id
    fingerprint := fingerprintFinding digest kind message
    status := .new
    kind := kind
    property := property
    message := message
    replayToken := encodeReplayToken run.seed run.id
    occurrences := 1
    firstSeenAt := now }

def write : (update : Update) → update.Seen → Nat → TestStore → TestStore
  | trigger seed, runs, _, store =>
    let id := ids.generateID "run" store.drawn
    { store with
      runs := store.runs.insert id { id := id, seed := seed, sequence := Nat.succ runs }
      drawn := store.drawn + 1 }
  | report _ _ _ _, some existing, _, store =>
    { store with findings := store.findings.insert existing.id existing.again }
  | report run kind property message, none, now, store =>
    let id := ids.generateID "find" store.drawn
    { store with
      findings := store.findings.insert id (newFinding digest run kind property message id now)
      drawn := store.drawn + 1 }
  | count id kind message total passed failed, existing, _, store =>
    let totalEvals := existing.elim 0 Assertion.totalEvals + total
    let passedEvals := existing.elim 0 Assertion.passedEvals + passed
    { store with
      assertions := store.assertions.insert id
        { kind := kind
          message := message
          status := assertionStatus kind passedEvals totalEvals
          totalEvals := totalEvals
          passedEvals := passedEvals
          failedEvals := existing.elim 0 Assertion.failedEvals + failed
          satisfiedCount := passedEvals } }
  | cover totalEdges newEdges, coverage, _, store =>
    { store with
      coverage :=
        { totalEdges := totalEdges
          cumulativeNewEdges := coverage.cumulativeNewEdges + newEdges } }

end Update

def storeUpdates : Threads.Updates TestStore Update Nat where
  Seen := Update.Seen
  read := Update.read digest
  write := Update.write ids digest

instance : (update : Update) → DecidableEq ((storeUpdates ids digest).Seen update)
  | .trigger _ => inferInstanceAs (DecidableEq Nat)
  | .report .. => inferInstanceAs (DecidableEq (Option Finding))
  | .count .. => inferInstanceAs (DecidableEq (Option Assertion))
  | .cover .. => inferInstanceAs (DecidableEq Coverage)

end

/-- The findings for the assertions that were evaluated and never satisfied. -/
def PropertyCount.reports (run : RunRecord) (pc : PropertyCount) : List Update :=
  if pc.assertType = "sometimes" then
    if 0 < pc.total ∧ pc.passed = 0 then [.report run .sometimes pc.message pc.message] else []
  else if pc.assertType = "reachable" then
    if 0 < pc.total ∧ pc.passed = 0 then [.report run .reachable pc.message pc.message] else []
  else []

def systemUpdate (id : String) (kind : AssertionKind) (message : String) (passed failed : Bool) :
    Update :=
  .count ("sys:" ++ id) kind message (passed.toNat + failed.toNat) passed.toNat failed.toNat

def updateSystemProperties (result : RunResult) (faultsEnabled : Bool) : List Update :=
  let totalAssertions := result.always.total + result.sometimes.total + result.reachable.total
  [ systemUpdate "driver_setup" .always "Driver setup completed"
      (0 < result.totalStates) (result.totalStates = 0),
    systemUpdate "assertions_declared" .always "SDK assertions were registered"
      (0 < totalAssertions) (totalAssertions = 0),
    systemUpdate "faults_active" .always "Fault injection is active" faultsEnabled !faultsEnabled,
    systemUpdate "coverage_growing" .always "New coverage edges discovered"
      (0 < result.newEdges) (result.newEdges = 0),
    systemUpdate "no_always_violations" .always "No always-assertion violations"
      (result.always.failed = 0 ∧ 0 < result.always.total) (0 < result.always.failed),
    systemUpdate "sometimes_satisfied" .sometimes "Sometimes goals observed"
      (0 < result.sometimes.passed) false ]

def applyResult (run : RunRecord) (result : RunResult) (faultsEnabled : Bool) : List Update :=
  result.violations.map (fun v => .report run .always v.property v.message) ++
    result.propertyCounts.flatMap (PropertyCount.reports run) ++
    [ .count "always" .always "always assertions"
        result.always.total result.always.passed result.always.failed,
      .count "sometimes" .sometimes "sometimes assertions"
        result.sometimes.total result.sometimes.passed 0,
      .count "reachable" .reachable "reachable assertions"
        result.reachable.total result.reachable.passed 0 ] ++
    updateSystemProperties result faultsEnabled ++
    [.cover result.totalEdges result.newEdges]

end OpenThesis.Api
