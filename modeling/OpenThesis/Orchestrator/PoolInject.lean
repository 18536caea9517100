import OpenThesis.Orchestrator.Fidelity
import OpenThesis.Orchestrator.Pool

/-!
# Fault injection by a pool worker

The workers (`internal/orchestrator/pool.go`) record faults with parameters of their own, which the
serial orchestrator replays. On Firecracker, for entries in memory.
-/

namespace OpenThesis.Orchestrator

open Fault List

universe u

namespace Decision

def poolParams (c : Config) : Decision → Params
  | nWayPartition _ | drop .. | terminate _ | diskCorrupt .. | diskFull _ => []
  | delay _ _ duration => [("ms", .int64 (milliseconds duration))]
  | partition a b dir =>
    [("direction", .string dir.string), ("src_port", .string (nodePort c.nodes a)),
      ("dst_port", .string (nodePort c.nodes b))]
  | throttle _ _ rate => [("rate_kbps", .int rate)]
  | reorder _ _ corr => [("correlation", .int corr)]
  | hang _ duration => [("duration_ns", .int64 duration)]
  | dirtyRestart _ => [("dirty", .bool true)]
  | threadPause _ duration => [("duration_ms", .int64 (milliseconds duration))]
  | cpuThrottle _ pct => [("cpu_pct", .int pct)]
  | cpuModulate _ speedPct => [("cpu_pct", .int speedPct)]
  | diskSlow _ bps => [("bps", .int64 bps)]
  | memPressure _ limitBytes => [("limit_bytes", .int64 limitBytes)]
  | script _ path args timeout =>
    [("path", .string path), ("args", .strings args), ("timeout_seconds", .int timeout)]
  | diskFlakey _ interval duration =>
    [("interval_secs", .int interval), ("duration_secs", .int duration)]
  | clockJitter jitter => [("jitter_ns", .int64 jitter)]

def poolEntry (c : Config) (w : PoolWorker) (d : Decision) : ScheduleEntry :=
  let recorded := d.entry c w.stepHint
  w.entry recorded.faultKind recorded.target recorded.targetB (d.poolParams c)

end Decision

structure PoolFault where
  entry : ScheduleEntry
  messages : List AgentFaultMsg

structure PoolInjection (R : Type u) where
  worker : PoolWorker
  rng : R
  faults : List PoolFault := []

open PoolInjection

section

variable {R : Type u}

def PoolInjection.apply (c : Config) (p : PoolInjection R) (d : Decision) : PoolInjection R :=
  let entry := d.poolEntry c p.worker
  { p with
    worker := p.worker.hit entry.faultKind entry
    faults := p.faults ++ [⟨entry, d.messages c⟩] }

def PoolInjection.visit (c : Config) (selected : Option (List Kind)) (p : PoolInjection R)
    (site : Site R) : PoolInjection R :=
  if site.enabled selected then
    match (site.decide p.rng).1 with
    | none => { p with rng := (site.decide p.rng).2 }
    | some d => { p with rng := (site.decide p.rng).2 }.apply c d
  else p

def NetworkInjector.poolSites (net : NetworkInjector R) (c : Config) : List (Site R) :=
  { kind := some .nWayPartition
    decide := fun rng =>
      let (groups, rng) := net.shouldNWayPartition c.nodeNames rng
      ((groups.filter (· ≠ [])).map .nWayPartition, rng) } ::
    (nodePairs c.nodeNames).flatMap fun (a, b) => net.pairSites a b

def NodeInjector.poolSites (node : NodeInjector R) (c : Config) : List (Site R) :=
  c.nodeNames.flatMap (node.nodeSites c) ++
    [.ofFlag (some .diskFull) (node.shouldDiskFull "") (.diskFull c.diskFullTargetFreeBytes)]

structure PoolInjectors (R : Type u) where
  faultNet : Option (NetworkInjector R) := none
  faultNode : Option (NodeInjector R) := none
  adaptiveFaults : Bool := false
  selectedFault : Option Kind := none

namespace PoolInjectors

variable (inj : PoolInjectors R) (c : Config)

def selected : Option (List Kind) :=
  if inj.adaptiveFaults then some inj.selectedFault.toList else none

def sites : List (Site R) :=
  inj.faultNet.toList.flatMap (·.poolSites c) ++ inj.faultNode.toList.flatMap (·.poolSites c)

def workerInjectFaults (p : PoolInjection R) : PoolInjection R :=
  (inj.sites c).foldl (visit c inj.selected) p

def decisions (rng : R) : List Decision :=
  decisionsAt inj.selected (inj.sites c) rng

end PoolInjectors

theorem faults_foldl_visit (c : Config) (selected : Option (List Kind)) (sites : List (Site R))
    (p : PoolInjection R) : (sites.foldl (visit c selected) p).faults =
      ((decisionsAt selected sites p.rng).foldl (apply c) p).faults := by
  have same : ∀ (rng : R) (ds : List Decision) (p : PoolInjection R),
      (ds.foldl (apply c) { p with rng }).faults =
        (ds.foldl (apply c) p).faults := by
    intro rng ds
    induction ds with
    | nil => exact fun _ => rfl
    | cons d ds ih => exact fun p => ih (p.apply c d)
  induction sites generalizing p with
  | nil => rfl
  | cons site sites ih =>
    rw [foldl_cons, ih, decisionsAt]
    by_cases enabled : site.enabled selected = true
    · cases decided : (site.decide p.rng).1 with
      | none => simp [visit, enabled, decided, same]
      | some d =>
        have visited : p.visit c selected site =
            { p.apply c d with rng := (site.decide p.rng).2 } := by
          simp only [visit, enabled, decided, if_true]
          rfl
        rw [visited, same]
        simp [enabled]
    · simp [visit, enabled]

theorem forall_faults_iff (c : Config) {property : PoolFault → Prop} {condition : Decision → Prop}
    (agree : ∀ w d, property ⟨Decision.poolEntry c w d, d.messages c⟩ ↔ condition d)
    (ds : List Decision) (p : PoolInjection R) :
    (∀ fault ∈ (ds.foldl (apply c) p).faults, property fault) ↔
      (∀ fault ∈ p.faults, property fault) ∧ ∀ d ∈ ds, condition d := by
  induction ds generalizing p with
  | nil => simp
  | cons d ds ih =>
    rw [foldl_cons, ih, forall_mem_cons, ← and_assoc]
    simp only [apply, forall_mem_append, forall_mem_singleton, agree]

end

namespace Decision

def poolReplayed : Decision → Decision
  | nWayPartition _ => nWayPartition []
  | dirtyRestart n => terminate n
  | cpuModulate n _ => cpuModulate n 0
  | diskCorrupt n _ => diskCorrupt n ""
  | script n path _ timeout => script n path [] timeout
  | diskFull _ => diskFull 0
  | d => d

/-- The same for the pool, whose entries carry other parameters. -/
def PoolReplayable (c : Config) : Decision → Prop
  | nWayPartition groups => interGroupPairs (groups.map (·.filterMap c.port?)) = []
  | dirtyRestart _ => False
  | cpuModulate _ speedPct => speedPct = 0
  | diskCorrupt _ dataDir => dataDir = ""
  | script _ _ args _ => args = []
  | diskFull targetFree => targetFree = 0
  | _ => True

variable (c : Config)

theorem messages_replayRoute_poolEntry (w : PoolWorker) (d : Decision) :
    (replayRoute c (d.poolEntry c w)).messages = d.poolReplayed.messages c := by
  cases d with
  | partition a b dir =>
    have route : replayRoute c ((partition a b dir).poolEntry c w) =
        if nodePort c.nodes a = "" ∨ nodePort c.nodes b = "" then .agent []
        else .agent [agentPartition (nodePort c.nodes a) (nodePort c.nodes b) dir.string] := rfl
    have same : (partition a b dir).poolReplayed = partition a b dir := rfl
    rw [route, apply_ite Route.messages, same, messages]
    simp only [Route.messages, ne_eq, ← not_or, ite_not]
  | _ => rfl

theorem length_messages_poolReplayed (d : Decision) : (d.poolReplayed.messages c).length ≤ 1 := by
  have port : ∀ (b : String) (msg : String → AgentFaultMsg),
      ((c.port? b).toList.map msg).length ≤ 1 := by
    intro b msg
    cases c.port? b with
    | none => exact Nat.zero_le 1
    | some port => exact le_rfl
  cases d with
  | drop | delay | throttle | reorder => exact port _ _
  | partition a b dir =>
    simp only [poolReplayed, messages]
    split
    · exact le_rfl
    · exact Nat.zero_le 1
  | nWayPartition | clockJitter => exact Nat.zero_le 1
  | _ => exact le_rfl

theorem messages_poolReplayed_iff (d : Decision) :
    d.poolReplayed.messages c = d.messages c ↔ d.PoolReplayable c := by
  cases d with
  | nWayPartition groups => exact (nWayPartition groups).messages_reloaded_iff c
  | dirtyRestart n => exact (dirtyRestart n).messages_reloaded_iff c
  | cpuModulate n speedPct => exact (cpuModulate n speedPct).messages_reloaded_iff c
  | diskFull targetFree => exact (diskFull targetFree).messages_reloaded_iff c
  | diskCorrupt n dataDir =>
    constructor
    · intro equal
      exact (congrArg (·.payload.dataDir) (singleton_inj.mp equal)).symm
    · rintro rfl
      rfl
  | script n path args timeout =>
    constructor
    · intro equal
      exact (congrArg (·.payload.scriptArgs) (singleton_inj.mp equal)).symm
    · rintro rfl
      rfl
  | _ => exact iff_of_true rfl trivial

end Decision

/-- The replay of the entry sends the messages of the fault, whatever the agent accepts. -/
def PoolFault.Replays (c : Config) (fault : PoolFault) : Prop :=
  ∀ env s, (replayAgentFault c env fault.entry s).2.sent = s.sent ++ fault.messages

theorem replays_iff (c : Config) (w : PoolWorker) (d : Decision) :
    PoolFault.Replays c ⟨d.poolEntry c w, d.messages c⟩ ↔ d.PoolReplayable c := by
  have sent : ∀ env s, (replayAgentFault c env (d.poolEntry c w) s).2.sent =
      s.sent ++ d.poolReplayed.messages c := by
    intro env s
    rw [← d.messages_replayRoute_poolEntry c w]
    have short := d.length_messages_poolReplayed c
    rw [← d.messages_replayRoute_poolEntry c w] at short
    cases route : replayRoute c (d.poolEntry c w) with
    | agent msgs =>
      rw [route] at short
      simp only [replayAgentFault, route]
      exact sent_sendUntilError env short s
    | hypervisor =>
      simp only [replayAgentFault, route]
      exact (append_nil _).symm
  rw [← d.messages_poolReplayed_iff c]
  simp only [PoolFault.Replays, sent, append_cancel_left_eq]
  exact ⟨fun same => same ⟨fun _ => true, fun _ => true⟩ {}, fun same _ _ => same⟩

/-- Every fault of a burst is replayed with its messages exactly if the recorded parameters keep
each of the faults that the injectors decided on. -/
theorem pool_replays_iff {R : Type u} (inj : PoolInjectors R) (c : Config) (w : PoolWorker)
    (rng : R) :
    (∀ fault ∈ (inj.workerInjectFaults c { worker := w, rng }).faults, fault.Replays c) ↔
      ∀ d ∈ inj.decisions c rng, d.PoolReplayable c := by
  rw [PoolInjectors.workerInjectFaults, faults_foldl_visit, forall_faults_iff c (replays_iff c)]
  simp [PoolInjectors.decisions]

def halfSpeed : NodeInjector Unit :=
  { noNodeFaults with shouldCPUModulate := fun _ rng => (some 50, rng) }

/-- The speed is recorded under `cpu_pct` and looked up under `speed_pct`: the agent is told 50 and
then 0. -/
theorem pool_replays_other_speed :
    let c : Config := { nodes := [{ name := "n1" }], backend := .firecracker }
    let faults := (PoolInjectors.workerInjectFaults { faultNode := some halfSpeed } c
      { worker := {}, rng := () }).faults
    faults.map (·.messages) = [[agentCPUModulate "n1" 50]] ∧
      faults.map (fun fault => (replayAgentFault c ⟨fun _ => true, fun _ => true⟩ fault.entry
        {}).2.sent) = [[agentCPUModulate "n1" 0]] := by
  decide

end OpenThesis.Orchestrator
