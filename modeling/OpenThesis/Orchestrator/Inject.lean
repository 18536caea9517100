import OpenThesis.Orchestrator.Agent

/-!
# Injecting faults

`injectFaults` (`internal/orchestrator/faults.go`) asks the injectors, in a fixed order, or replays
a schedule. Injectors are arbitrary functions of the random state; an environment says what is
accepted.
-/

namespace OpenThesis.Orchestrator

open Fault

universe u

inductive Backend where
  | tcg
  | patched
  | gvisor
  | firecracker
  deriving DecidableEq, Repr

inductive PartitionDirection where
  | both
  | outbound
  | inbound
  deriving DecidableEq, Repr

def PartitionDirection.string : PartitionDirection → String
  | outbound => "outbound"
  | inbound => "inbound"
  | both => "both"

/-- What the injection reads of the configuration. -/
structure Config where
  nodes : List Node
  backend : Backend
  diskCorruptDataDir : String := ""
  diskFullTargetFreeBytes : Int := 0

def Config.nodeNames (c : Config) : List String :=
  c.nodes.map (·.name)

def Config.port? (c : Config) (name : String) : Option String :=
  let port := nodePort c.nodes name
  if port = "" then none else some port

/-- Which messages are accepted. -/
structure Environment where
  agent : List AgentFaultMsg → Bool
  hypervisor : List (Kind × Params) → Bool

/-- The schedule and what was sent. -/
structure FaultState where
  faultSchedule : Schedule := newSchedule
  currentFaultCount : UInt32 := 0
  currentFaultKindMask : UInt16 := 0
  currentStepPathHash : UInt64 := 0
  currentStepVTimeNS : UInt64 := 0
  sent : List AgentFaultMsg := []
  injected : List (Kind × Params) := []

namespace FaultState

def send (env : Environment) (msg : AgentFaultMsg) (s : FaultState) : Bool × FaultState :=
  let sent := s.sent ++ [msg]
  (env.agent sent, { s with sent })

def injectFault (env : Environment) (kind : Kind) (params : Params) (s : FaultState) :
    Bool × FaultState :=
  let injected := s.injected ++ [(kind, params)]
  (env.hypervisor injected, { s with injected })

def countFault (kind : Kind) (s : FaultState) : FaultState :=
  { s with
    currentFaultCount := s.currentFaultCount + 1
    currentFaultKindMask := s.currentFaultKindMask ||| kindToMask kind }

def recordFault (entry : ScheduleEntry) (s : FaultState) : FaultState :=
  { s with
    faultSchedule := s.faultSchedule.record
      { entry with
        snapshotPathHash := s.currentStepPathHash
        virtualTimeNS := s.currentStepVTimeNS } }

def countDelivered (kind : Kind) : Bool × FaultState → FaultState
  | (true, s) => s.countFault kind
  | (false, s) => s

def deliverAll {α : Type u} (deliver : α → FaultState → Bool × FaultState) :
    List α → FaultState → Bool × FaultState
  | [], s => (false, s)
  | item :: items, s =>
    let (accepted, s) := deliver item s
    let (others, s) := deliverAll deliver items s
    (accepted || others, s)

def sendUntilError (env : Environment) : List AgentFaultMsg → FaultState → Bool × FaultState
  | [], s => (true, s)
  | msg :: msgs, s =>
    match s.send env msg with
    | (true, s) => sendUntilError env msgs s
    | (false, s) => (false, s)

end FaultState

/-- A fault that an injector decided on. -/
inductive Decision where
  | nWayPartition (groups : List (List String))
  | drop (a b : String)
  | delay (a b : String) (duration : Int)
  | partition (a b : String) (dir : PartitionDirection)
  | throttle (a b : String) (rate : Int)
  | reorder (a b : String) (corr : Int)
  | hang (n : String) (duration : Int)
  | terminate (n : String)
  | dirtyRestart (n : String)
  | threadPause (n : String) (duration : Int)
  | cpuThrottle (n : String) (pct : Int)
  | cpuModulate (n : String) (speedPct : Int)
  | diskSlow (n : String) (bps : Int)
  | diskCorrupt (n dataDir : String)
  | memPressure (n : String) (limitBytes : Int)
  | script (n path : String) (args : List String) (timeout : Int)
  | diskFlakey (n : String) (interval duration : Int)
  | diskFull (targetFree : Int)
  | clockJitter (jitter : Int)

def milliseconds (duration : Int) : Int :=
  duration.tdiv 1000000

def interGroupPairs : List (List String) → List (String × String)
  | [] => []
  | group :: groups =>
    (groups.flatMap fun other => group.flatMap fun portA => other.map fun portB =>
      (portA, portB)) ++ interGroupPairs groups

def partitionMessages (c : Config) (groups : List (List String)) : List AgentFaultMsg :=
  (interGroupPairs (groups.map (·.filterMap c.port?))).map fun (portA, portB) =>
    agentPartition portA portB "both"

namespace Decision

/-- The entry that the schedule records for a decision. -/
def entry (c : Config) (step : Nat) : Decision → ScheduleEntry
  | nWayPartition groups =>
    { step, faultKind := .nWayPartition, params := [("groups", .stringLists groups)] }
  | drop a b =>
    { step, faultKind := .drop, target := a, targetB := b,
      params := [("src", .string a), ("dst", .string b)] }
  | delay a b duration =>
    { step, faultKind := .delay, target := a, targetB := b,
      params := [("src", .string a), ("dst", .string b),
        ("ms", .int64 (milliseconds duration))] }
  | partition a b dir =>
    { step, faultKind := .partition, target := a, targetB := b,
      params := [("src", .string a), ("dst", .string b), ("direction", .string dir.string),
        ("src_port", .string (nodePort c.nodes a)),
        ("dst_port", .string (nodePort c.nodes b))] }
  | throttle a b rate =>
    { step, faultKind := .throttle, target := a, targetB := b,
      params := [("src", .string a), ("dst", .string b), ("rate_kbps", .int rate)] }
  | reorder a b corr =>
    { step, faultKind := .reorder, target := a, targetB := b,
      params := [("src", .string a), ("dst", .string b), ("correlation", .int corr)] }
  | hang n duration =>
    { step, faultKind := .hang, target := n,
      params := [("node", .string n), ("duration_ns", .int64 duration)] }
  | terminate n =>
    { step, faultKind := .terminate, target := n, params := [("node", .string n)] }
  | dirtyRestart n =>
    { step, faultKind := .terminate, target := n,
      params := [("node", .string n), ("dirty", .bool true)] }
  | threadPause n duration =>
    { step, faultKind := .threadPause, target := n,
      params := [("node", .string n), ("duration_ms", .int64 (milliseconds duration))] }
  | cpuThrottle n pct =>
    { step, faultKind := .cpuThrottle, target := n,
      params := [("node", .string n), ("cpu_pct", .int pct)] }
  | cpuModulate n speedPct =>
    { step, faultKind := .cpuModulate, target := n,
      params := [("node", .string n), ("speed_pct", .int speedPct)] }
  | diskSlow n bps =>
    { step, faultKind := .diskSlow, target := n,
      params := [("node", .string n), ("bps", .int64 bps)] }
  | diskCorrupt n dataDir =>
    { step, faultKind := .diskCorrupt, target := n,
      params := [("node", .string n), ("data_dir", .string dataDir)] }
  | memPressure n limitBytes =>
    { step, faultKind := .memPressure, target := n,
      params := [("node", .string n), ("limit_bytes", .int64 limitBytes)] }
  | script n path args timeout =>
    { step, faultKind := .script, target := n,
      params := [("path", .string path), ("args", .strings args),
        ("timeout_seconds", .int timeout)] }
  | diskFlakey n interval duration =>
    { step, faultKind := .diskFlakey, target := n,
      params := [("node", .string n), ("interval_secs", .int interval),
        ("duration_secs", .int duration)] }
  | diskFull targetFree =>
    { step, faultKind := .diskFull, params := [("target_free_bytes", .int64 targetFree)] }
  | clockJitter jitter =>
    { step, faultKind := .clockJitter, params := [("jitter_ns", .int64 jitter)] }

def injectRouted (c : Config) (env : Environment) (entry : ScheduleEntry)
    (msg : Option AgentFaultMsg) (s : FaultState) : FaultState :=
  let delivered :=
    if c.backend = .firecracker then
      match msg with
      | none => (true, s)
      | some msg => s.send env msg
    else s.injectFault env entry.faultKind entry.params
  (FaultState.countDelivered entry.faultKind delivered).recordFault entry

def injectGuest (c : Config) (env : Environment) (entry : ScheduleEntry) (msg : AgentFaultMsg)
    (s : FaultState) : FaultState :=
  let s :=
    if c.backend = .firecracker then
      FaultState.countDelivered entry.faultKind (s.send env msg)
    else s
  s.recordFault entry

def recordDelivered (entry : ScheduleEntry) : Bool × FaultState → FaultState
  | (true, s) => (s.countFault entry.faultKind).recordFault entry
  | (false, s) => s

def inject (c : Config) (env : Environment) (step : Nat) (d : Decision) (s : FaultState) :
    FaultState :=
  let entry := d.entry c step
  match d with
  | nWayPartition groups =>
    let deliver := fun msg s =>
      if c.backend = .firecracker then FaultState.send env msg s
      else FaultState.injectFault env .nWayPartition entry.params s
    recordDelivered entry (FaultState.deliverAll deliver (partitionMessages c groups) s)
  | drop _ b =>
    injectRouted c env entry ((c.port? b).map fun port => agentFault "block_port" port 0) s
  | delay _ b duration =>
    injectRouted c env entry
      ((c.port? b).map fun port => agentFault "delay_port" port (milliseconds duration)) s
  | partition a b dir =>
    let portA := nodePort c.nodes a
    let portB := nodePort c.nodes b
    injectRouted c env entry
      (if portA ≠ "" ∧ portB ≠ "" then some (agentPartition portA portB dir.string) else none) s
  | throttle _ b rate =>
    injectRouted c env entry ((c.port? b).map fun port => agentThrottle port rate) s
  | reorder _ b corr =>
    injectRouted c env entry ((c.port? b).map fun port => agentReorder port corr) s
  | hang n duration => injectRouted c env entry (some (agentHangNode n duration)) s
  | terminate n => injectRouted c env entry (some (agentTerminateNode n)) s
  | dirtyRestart n => recordDelivered entry (s.send env (agentDirtyRestartNode n))
  | threadPause n duration =>
    injectRouted c env entry (some (agentPauseNode n (milliseconds duration))) s
  | cpuThrottle n pct => injectRouted c env entry (some (agentCPUThrottle n pct)) s
  | cpuModulate n speedPct => injectRouted c env entry (some (agentCPUModulate n speedPct)) s
  | diskSlow n bps => injectGuest c env entry (agentDiskSlow n bps) s
  | diskCorrupt n dataDir => injectGuest c env entry (agentDiskCorrupt n dataDir) s
  | memPressure n limitBytes => injectGuest c env entry (agentMemPressure n limitBytes) s
  | script _ path args timeout => injectGuest c env entry (agentScript path args timeout) s
  | diskFlakey n interval duration =>
    injectGuest c env entry (agentDiskFlakey n interval duration) s
  | diskFull targetFree => injectGuest c env entry (agentDiskFull targetFree) s
  | clockJitter _ =>
    let delivered := s.injectFault env .clockJitter entry.params
    (FaultState.countDelivered .clockJitter delivered).recordFault entry

end Decision

structure NetworkInjector (R : Type u) where
  shouldNWayPartition : List String → R → Option (List (List String)) × R
  shouldDrop : String → String → R → Bool × R
  delay : String → String → R → Int × R
  shouldPartition : String → String → R → Option PartitionDirection × R
  shouldThrottle : String → String → R → Option Int × R
  shouldReorder : String → String → R → Option Int × R

structure NodeInjector (R : Type u) where
  shouldHang : String → R → Option Int × R
  shouldTerminate : String → R → Bool × R
  shouldDirtyRestart : String → R → Bool × R
  shouldPause : String → R → Option Int × R
  shouldCPUThrottle : String → R → Option Int × R
  shouldCPUModulate : String → R → Option Int × R
  shouldDiskSlow : String → R → Option Int × R
  shouldDiskCorrupt : String → R → Bool × R
  shouldMemPressure : String → R → Option Int × R
  shouldScript : R → Option (String × List String × Int) × R
  shouldDiskFlakey : String → R → Option (Int × Int) × R
  shouldDiskFull : String → R → Bool × R
  clockJitter : R → Int × R

structure Injectors (R : Type u) where
  faultNet : Option (NetworkInjector R) := none
  faultNode : Option (NodeInjector R) := none
  adaptiveFaults : Option (R → List Kind × R) := none

/-- A place where an injector is asked: the kind that must have been picked, if any, and the
question. -/
structure Site (R : Type u) where
  kind : Option Kind
  decide : R → Option Decision × R

namespace Site

variable {R : Type u} {α : Type}

def ofFlag (kind : Option Kind) (ask : R → Bool × R) (d : Decision) : Site R where
  kind
  decide rng :=
    let (yes, rng) := ask rng
    (if yes then some d else none, rng)

def ofValue (kind : Kind) (ask : R → Option α × R) (d : α → Decision) : Site R where
  kind := some kind
  decide rng :=
    let (value, rng) := ask rng
    (value.map d, rng)

def enabled (site : Site R) (selected : Option (List Kind)) : Bool :=
  match selected, site.kind with
  | some kinds, some kind => kind ∈ kinds
  | _, _ => true

end Site

section

variable {R : Type u}

def nodePairs : List String → List (String × String)
  | [] => []
  | a :: nodes => nodes.map (fun b => (a, b)) ++ nodePairs nodes

def NetworkInjector.pairSites (net : NetworkInjector R) (a b : String) : List (Site R) :=
  [.ofFlag (some .drop) (net.shouldDrop a b) (.drop a b),
   { kind := some .delay
     decide := fun rng =>
      let (duration, rng) := net.delay a b rng
      (if duration > 0 then some (.delay a b duration) else none, rng) },
   .ofValue .partition (net.shouldPartition a b) (.partition a b),
   .ofValue .throttle (net.shouldThrottle a b) (.throttle a b),
   .ofValue .reorder (net.shouldReorder a b) (.reorder a b)]

def NetworkInjector.sites (net : NetworkInjector R) (c : Config) : List (Site R) :=
  .ofValue .nWayPartition (net.shouldNWayPartition c.nodeNames) .nWayPartition ::
    (nodePairs c.nodeNames).flatMap fun (a, b) => net.pairSites a b

def NodeInjector.nodeSites (node : NodeInjector R) (c : Config) (n : String) : List (Site R) :=
  [.ofValue .hang (node.shouldHang n) (.hang n),
   .ofFlag (some .terminate) (node.shouldTerminate n) (.terminate n),
   .ofFlag none (node.shouldDirtyRestart n) (.dirtyRestart n),
   .ofValue .threadPause (node.shouldPause n) (.threadPause n),
   .ofValue .cpuThrottle (node.shouldCPUThrottle n) (.cpuThrottle n),
   .ofValue .cpuModulate (node.shouldCPUModulate n) (.cpuModulate n),
   .ofValue .diskSlow (node.shouldDiskSlow n) (.diskSlow n),
   .ofFlag (some .diskCorrupt) (node.shouldDiskCorrupt n)
    (.diskCorrupt n c.diskCorruptDataDir),
   .ofValue .memPressure (node.shouldMemPressure n) (.memPressure n),
   .ofValue .script node.shouldScript fun (path, args, timeout) => .script n path args timeout,
   .ofValue .diskFlakey (node.shouldDiskFlakey n) fun (interval, duration) =>
    .diskFlakey n interval duration]

/-- The decisions about nodes, in the order of their draws. -/
def NodeInjector.sites (node : NodeInjector R) (c : Config) : List (Site R) :=
  c.nodeNames.flatMap (node.nodeSites c) ++
    [.ofFlag (some .diskFull) (node.shouldDiskFull "") (.diskFull c.diskFullTargetFreeBytes),
     { kind := some .clockJitter
       decide := fun rng =>
        let (jitter, rng) := node.clockJitter rng
        (if jitter ≠ 0 then some (.clockJitter jitter) else none, rng) }]

def Injectors.sites (inj : Injectors R) (c : Config) : List (Site R) :=
  inj.faultNet.toList.flatMap (·.sites c) ++ inj.faultNode.toList.flatMap (·.sites c)

end

/-- Where a fault is sent. -/
inductive Route where
  | agent (msgs : List AgentFaultMsg)
  | hypervisor

def portRoute (c : Config) (e : ScheduleEntry) (msg : String → AgentFaultMsg) : Route :=
  .agent ((c.port? e.targetB).toList.map msg)

def replayRoute (c : Config) (e : ScheduleEntry) : Route :=
  match e.faultKind with
  | .drop => portRoute c e fun port => agentFault "block_port" port 0
  | .delay => portRoute c e fun port => agentFault "delay_port" port (e.params.int64 "ms")
  | .partition =>
    let srcPort := e.params.string "src_port"
    let dstPort := e.params.string "dst_port"
    if srcPort = "" ∨ dstPort = "" then .agent []
    else .agent [agentPartition srcPort dstPort (e.params.string "direction")]
  | .throttle => portRoute c e fun port => agentThrottle port (e.params.int "rate_kbps")
  | .reorder => portRoute c e fun port => agentReorder port (e.params.int "correlation")
  | .nWayPartition => .agent (partitionMessages c (e.params.stringLists "groups"))
  | .threadPause => .agent [agentPauseNode e.target (e.params.int64 "duration_ms")]
  | .cpuThrottle => .agent [agentCPUThrottle e.target (e.params.int "cpu_pct")]
  | .cpuModulate => .agent [agentCPUModulate e.target (e.params.int "speed_pct")]
  | .diskSlow => .agent [agentDiskSlow e.target (e.params.int64 "bps")]
  | .diskFull => .agent [agentDiskFull (e.params.int64 "target_free_bytes")]
  | .diskCorrupt => .agent [agentDiskCorrupt e.target (e.params.string "data_dir")]
  | .diskFlakey =>
    .agent [agentDiskFlakey e.target (e.params.int "interval_secs")
      (e.params.int "duration_secs")]
  | .memPressure => .agent [agentMemPressure e.target (e.params.int64 "limit_bytes")]
  | .hang => .agent [agentHangNode e.target (e.params.int64 "duration_ns")]
  | .terminate => .agent [agentTerminateNode e.target]
  | .script =>
    .agent [agentScript (e.params.string "path") (e.params.untypedStrings "args")
      (e.params.int "timeout_seconds")]
  | .clockJitter | .clear => .hypervisor

def replayAgentFault (c : Config) (env : Environment) (e : ScheduleEntry) (s : FaultState) :
    Bool × FaultState :=
  match replayRoute c e with
  | .agent msgs => s.sendUntilError env msgs
  | .hypervisor => s.injectFault env e.faultKind e.params

def replayFault (c : Config) (env : Environment) (s : FaultState) (e : ScheduleEntry) :
    FaultState :=
  FaultState.countDelivered e.faultKind
    (if c.backend = .firecracker then replayAgentFault c env e s
    else s.injectFault env e.faultKind e.params)

structure OrchestratorState (R : Type u) extends FaultState where
  faultRng : R
  lastInjectedFault : Option Kind := none

structure StepInput where
  step : Nat
  pathHash : UInt64 := 0
  timeNS : UInt64 := 0
  quiet : Bool := false

namespace OrchestratorState

variable {R : Type u}

def beginStep (o : OrchestratorState R) : OrchestratorState R :=
  { o with sent := [], injected := [] }

def visit (c : Config) (env : Environment) (step : Nat) (selected : Option (List Kind))
    (o : OrchestratorState R) (site : Site R) : OrchestratorState R :=
  if site.enabled selected then
    let (decision, rng) := site.decide o.faultRng
    match decision with
    | none => { o with faultRng := rng }
    | some d => { o with toFaultState := d.inject c env step o.toFaultState, faultRng := rng }
  else o

def selectKinds (inj : Injectors R) (o : OrchestratorState R) :
    Option (List Kind) × OrchestratorState R :=
  match inj.adaptiveFaults with
  | none => (none, o)
  | some select =>
    let (kinds, rng) := select o.faultRng
    (some kinds,
      { o with faultRng := rng, lastInjectedFault := kinds.head?.or o.lastInjectedFault })

def clear (c : Config) (env : Environment) (inj : Injectors R) (s : FaultState) : FaultState :=
  if c.backend = .firecracker then
    if inj.faultNet.isSome then (s.send env (agentFault "clear" "" 0)).2 else s
  else (s.injectFault env .clear []).2

/-- The faults of a step: replayed from the schedule, or drawn. -/
def injectFaults (c : Config) (env : Environment) (inj : Injectors R) (input : StepInput)
    (o : OrchestratorState R) : OrchestratorState R :=
  let o := o.beginStep
  if o.faultSchedule.replay then
    let (entries, faultSchedule) := o.faultSchedule.faultsAt input.step
    { o with
      toFaultState := entries.foldl (replayFault c env) { o.toFaultState with faultSchedule } }
  else if inj.faultNet.isNone && inj.faultNode.isNone then o
  else if input.quiet then o
  else
    let (selected, o) := o.selectKinds inj
    let o :=
      { o with currentStepPathHash := input.pathHash, currentStepVTimeNS := input.timeNS }
    let o := { o with toFaultState := clear c env inj o.toFaultState }
    (inj.sites c).foldl (visit c env input.step selected) o

end OrchestratorState

end OpenThesis.Orchestrator
