import OpenThesis.Explorer.Record
import OpenThesis.Orchestrator.Inject

/-!
# A serial step

One burst after the other (`internal/orchestrator/explore.go`): restore, inject, run, process the
output, take a child snapshot.
-/

namespace OpenThesis.Orchestrator

open Fault SnapshotTree Explorer

universe u

structure SerialConfig extends Config where
  seed : UInt64
  maxDepth : UInt32

/-- The state of the serial loop. -/
structure Serial (R : Type u) where
  tree : SnapshotTree.Tree := newTree
  faults : OrchestratorState R
  violations : List Violation := []
  states : Nat := 0
  preforkMode : Bool := false
  currentTimeNS : UInt64 := 0
  currentStep : Nat := 0
  currentBurstInsns : UInt64 := 0

structure Paused where
  hypID : ID
  covHash : UInt64 := 0
  rngState : UInt64 := 0

structure Output where
  violations : List (String × String) := []
  lifecycleEvents : List String := []

/-- What the guest does in a burst. -/
structure BurstInput where
  stepCount : Nat
  burstInsns : UInt64 := 0
  drainInsns : UInt64 := 0
  pathHash : UInt64 := 0
  quiet : Bool := false
  restoreErr : Option String := none
  burstErr : Option String := none
  waited : List (String × String) := []
  outputs : List Output := []
  preforkSnapshot : Option Paused := none
  childSnapshot : Option Paused := none

namespace Serial

variable {R : Type u}

def takeSnapshotPaused (o : Serial R) (parentID : ID) (snapshot : Option Paused) : Serial R :=
  match snapshot with
  | none => o
  | some paused =>
    match o.tree.create parentID paused.hypID o.currentTimeNS paused.covHash paused.rngState
        o.faults.currentFaultCount o.faults.currentFaultKindMask with
    | .error _ => o
    | .ok (_, tree) => { o with tree }

def processViolation (cfg : SerialConfig) (burstInsns : UInt64) (o : Serial R)
    (parsed : String × String) : Serial R :=
  let v : Violation :=
    { property := parsed.1, message := parsed.2, snapshotID := o.tree.current,
      seed := cfg.seed, step := o.currentStep, burstInsns }
  { o with violations := o.violations ++ [reportViolation o.tree v] }

def processLifecycle (snapshot : Option Paused) (o : Serial R) (eventType : String) :
    Serial R :=
  if eventType = "openthesis_prefork" ∧ o.preforkMode = false then
    takeSnapshotPaused { o with preforkMode := true } o.tree.current snapshot
  else o

def processChunk (cfg : SerialConfig) (snapshot : Option Paused) (o : Serial R) (out : Output) :
    Serial R :=
  out.lifecycleEvents.foldl (processLifecycle snapshot)
    (out.violations.foldl (processViolation cfg o.currentBurstInsns) o)

def processOutput (cfg : SerialConfig) (snapshot : Option Paused) (outputs : List Output)
    (o : Serial R) : Serial R :=
  outputs.foldl (processChunk cfg snapshot) o

def startBurst (o : Serial R) (input : BurstInput) : Serial R :=
  { o with
    currentStep := input.stepCount
    currentBurstInsns := input.burstInsns
    faults :=
      { o.faults with
        lastInjectedFault := none
        currentFaultCount := 0
        currentFaultKindMask := 0 } }

def needsRestore (cfg : SerialConfig) (o : Serial R) (entry : ID) : Bool :=
  !(o.preforkMode && cfg.backend = .gvisor &&
    (o.tree.current = entry || o.tree.isChildOf entry o.tree.current))

def enter (o : Serial R) (entry : ID) : Serial R :=
  let o :=
    match o.tree.get entry with
    | .ok snap => { o with currentTimeNS := snap.timeNS }
    | .error _ => o
  match o.tree.setCurrent entry with
  | .ok tree => { o with tree }
  | .error _ => o

def observe (cfg : SerialConfig) (entry : ID) (input : BurstInput) (o : Serial R) : Serial R :=
  let o := o.processOutput cfg input.preforkSnapshot input.outputs
  match o.tree.get entry with
  | .error _ => o
  | .ok parent =>
    if parent.depth < cfg.maxDepth then o.takeSnapshotPaused entry input.childSnapshot else o

def runBurst (cfg : SerialConfig) (entry : ID) (input : BurstInput) (o : Serial R) :
    Serial R × Option String :=
  if o.preforkMode && cfg.backend = .gvisor then
    let o := input.waited.foldl (processViolation cfg 0) o
    let o := { o with currentTimeNS := o.currentTimeNS + input.burstInsns * 128 }
    (o.observe cfg entry input, none)
  else
    match input.burstErr with
    | some err => (o, some s!"step burst: {err}")
    | none =>
      let o :=
        { o with
          currentTimeNS := o.currentTimeNS + input.burstInsns * 128 + input.drainInsns * 128 }
      (o.observe cfg entry input, none)

variable (cfg : SerialConfig) (env : Environment) (inj : Injectors R)

def stepInput (o : Serial R) (input : BurstInput) : StepInput where
  step := input.stepCount
  pathHash := input.pathHash
  timeNS := o.currentTimeNS
  quiet := input.quiet

def restoreError (o : Serial R) (entry : ID) (input : BurstInput) : Option String :=
  if o.needsRestore cfg entry then input.restoreErr else none

def suspendPrefork (o : Serial R) (entry : ID) : Serial R :=
  { o with
    preforkMode := o.preforkMode && !(o.needsRestore cfg entry && cfg.backend = .gvisor) }

/-- Restores `entry`, injects, runs and takes the snapshot. -/
def step (o : Serial R) (entry : ID) (input : BurstInput) : Serial R × Option String :=
  let o := { o with states := o.states + 1 }
  match o.tree.hypervisorID entry with
  | .error err => (o, some s!"step hypervisor id: {err}")
  | .ok _ =>
    match o.restoreError cfg entry input with
    | some err => (o.suspendPrefork cfg entry, some s!"step restore: {err}")
    | none =>
      let o := (o.suspendPrefork cfg entry).enter entry
      let o :=
        { o with faults := o.faults.injectFaults cfg.toConfig env inj (o.stepInput input) }
      o.runBurst cfg entry input

end Serial

inductive SerialAction where
  | rootSnapshot (snapshot : Option Paused)
  | step (entry : ID) (input : BurstInput)
  | pruneSnapshots (frontierIDs : List ID)

namespace Serial

variable {R : Type u} (cfg : SerialConfig) (env : Environment) (inj : Injectors R)

/-- One action of the serial loop. -/
def act (o : Serial R) : SerialAction → Serial R
  | .rootSnapshot snapshot => o.takeSnapshotPaused SnapshotTree.rootID snapshot
  | .step entry input => ((o.startBurst input).step cfg env inj entry input).1
  | .pruneSnapshots frontierIDs => { o with tree := (o.tree.prune frontierIDs).2 }

def run (o : Serial R) (actions : List SerialAction) : Serial R :=
  actions.foldl (act cfg env inj) o

end Serial

end OpenThesis.Orchestrator
