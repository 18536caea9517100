import OpenThesis.Threads.Core
import OpenThesis.Guest.Pauses
import OpenThesis.Guest.Shaping
import OpenThesis.Orchestrator.Agent

/-!
# Fault messages and the handlers they start

Every fault message has a goroutine: a thread over iptables, tc, the processes, the cgroups and the
fill file. Resume timers, scripts and the device mapper are left out, and a killed process is gone
at once.
-/

namespace OpenThesis.Guest

open Orchestrator Threads List Function

inductive FaultChain where
  | faults
  | faultsIn
  | faultsOut
  deriving DecidableEq, Repr

structure DropRule where
  sport : Option String
  dport : String
  deriving DecidableEq, Repr

structure CpuMax where
  quota : Option Int
  period : Int
  deriving DecidableEq, Repr

structure CgroupLimits where
  cpuMax : CpuMax := { quota := none, period := 100000 }
  ioMax : Option Int := none
  memoryMax : Option Int := none
  deriving DecidableEq, Repr

structure Cgroups where
  limits : Std.ExtTreeMap String CgroupLimits compare
  member : Int → Option String

structure FillFile where
  file : Option (Nat × Int)
  nextInode : Nat
  deriving DecidableEq, Repr

structure ProcTable extends Procs where
  dead : Int → Bool
  nextPid : Int

/-- The parts of the state that handlers share. -/
inductive FaultPart where
  | chain (chain : FaultChain)
  | shaping
  | procs
  | cgroups
  | fill
  | nodes
  deriving DecidableEq, Repr

abbrev FaultPart.Value : FaultPart → Type
  | chain _ => List DropRule
  | shaping => Shaper
  | procs => ProcTable
  | cgroups => Cgroups
  | fill => FillFile
  | nodes => List (String × Int)

abbrev FaultState := Store FaultPart.Value

abbrev FaultThread := Thread FaultPart.Value

/-- The rules that iptables takes, the names of the nodes, and the space of the disk without the
fill file. -/
structure GuestEnv where
  accepts : DropRule → Bool
  config : List String
  available : Int

namespace ProcTable

def sigstop (pid : Int) (procs : ProcTable) : ProcTable :=
  if procs.dead pid then procs else { procs with toProcs := procs.toProcs.sigstop pid }

def sigcont (pid : Int) (procs : ProcTable) : ProcTable :=
  { procs with toProcs := procs.toProcs.sigcont pid }

def sigkill (pid : Int) (procs : ProcTable) : ProcTable :=
  { procs with
    toProcs := procs.toProcs.sigcont pid
    dead := update procs.dead pid true }

def remember (pid : Int) (procs : ProcTable) : ProcTable :=
  { procs with toProcs := procs.toProcs.rememberPausedProc pid }

def takePaused (procs : ProcTable) : ProcTable :=
  { procs with toProcs := procs.toProcs.takePausedProcs.1 }

def spawn (procs : ProcTable) : ProcTable :=
  { procs with
    toProcs := procs.toProcs.sigcont procs.nextPid
    dead := update procs.dead procs.nextPid false
    nextPid := procs.nextPid + 1 }

end ProcTable

namespace Cgroups

def mkdir (dir : String) (cgroups : Cgroups) : Cgroups :=
  { cgroups with limits := cgroups.limits.insertIfNew dir {} }

def join (pid : Int) (dir : String) (cgroups : Cgroups) : Cgroups :=
  { cgroups with member := update cgroups.member pid (some dir) }

def setLimit (write : String × (CgroupLimits → CgroupLimits)) (cgroups : Cgroups) : Cgroups :=
  { cgroups with limits := cgroups.limits.modify write.1 write.2 }

def resets (cgroups : Cgroups) : List (String × (CgroupLimits → CgroupLimits)) :=
  cgroups.limits.keys.flatMap fun dir =>
    [(dir, fun limits => { limits with cpuMax := { quota := none, period := 100000 } }),
      (dir, fun limits => { limits with ioMax := none }),
      (dir, fun limits => { limits with memoryMax := none })]

end Cgroups

namespace FillFile

def inode (fill : FillFile) : Nat :=
  (fill.file.map Prod.fst).getD fill.nextInode

def openTrunc (fill : FillFile) : FillFile :=
  { file := some (fill.inode, 0)
    nextInode := if fill.file.isSome then fill.nextInode else fill.nextInode + 1 }

def allocate (inode : Nat) (size : Int) (fill : FillFile) : FillFile :=
  { fill with file := fill.file.map fun file => if file.1 = inode then (inode, size) else file }

def remove (fill : FillFile) : FillFile :=
  { fill with file := none }

end FillFile

def lookupNodePID (nodes : List (String × Int)) (name : String) : Int :=
  ((nodes.find? (·.1 == name)).map Prod.snd).getD 0

def registerNode (name : String) (pid : Int) (nodes : List (String × Int)) :
    List (String × Int) :=
  match nodes.findIdx? (·.1 == name) with
  | some position => nodes.set position (name, pid)
  | none => nodes ++ [(name, pid)]

def appendRule (env : GuestEnv) (rule : DropRule) (rules : List DropRule) : List DropRule :=
  if env.accepts rule then rules ++ [rule] else rules

open Thread

section

variable (env : GuestEnv)

def handleBlockPort (port : String) : FaultThread :=
  if port = "" then done
  else write (.chain .faults) (appendRule env { sport := none, dport := port }) done

def addDropRule (sport dport : String) (next : FaultThread) : FaultThread :=
  write (.chain .faultsOut) (appendRule env { sport := some sport, dport }) next

def handleBlockOneWay (srcPort dstPort direction : String) : FaultThread :=
  if srcPort = "" ∨ dstPort = "" then done
  else
    match direction with
    | "outbound" => addDropRule env srcPort dstPort done
    | "inbound" => addDropRule env dstPort srcPort done
    | "both" | "" => addDropRule env srcPort dstPort (addDropRule env dstPort srcPort done)
    | _ => done

def shapePort (handle : Shaper → Shaper) : FaultThread :=
  write .shaping handle done

def withNodePID (name : String) (next : Int → FaultThread) : FaultThread :=
  if name = "" then done
  else
    read .nodes fun nodes =>
      if lookupNodePID nodes name ≤ 0 then done else next (lookupNodePID nodes name)

/-- Stop the process and note its pid, in two steps. The timer is left out. -/
def handlePauseNode (name : String) : FaultThread :=
  withNodePID name fun pid =>
    act .procs (ProcTable.sigstop pid) fun procs =>
      if procs.dead pid then done else write .procs (ProcTable.remember pid) done

def handleHangNode (name : String) (durationNS : Int) : FaultThread :=
  if durationNS ≤ 0 then done else withNodePID name fun _ => done

def handleTerminateNode (name : String) : FaultThread :=
  withNodePID name fun pid => write .procs (ProcTable.sigkill pid) done

def restartNode (name : String) : FaultThread :=
  act .procs ProcTable.spawn fun procs => write .nodes (registerNode name procs.nextPid) done

def handleDirtyRestartNode (name : String) : FaultThread :=
  if name = "" ∨ name ∉ env.config then done
  else
    read .nodes fun nodes =>
      if 0 < lookupNodePID nodes name then
        write .procs (ProcTable.sigkill (lookupNodePID nodes name)) (restartNode name)
      else restartNode name

def limitNode (name dir : String) (limit : CgroupLimits → CgroupLimits) : FaultThread :=
  withNodePID name fun pid =>
    write .cgroups (Cgroups.mkdir dir) <|
    read .procs fun procs =>
      if procs.dead pid then done
      else
        write .cgroups (Cgroups.join pid dir) <|
        write .cgroups (Cgroups.setLimit (dir, limit)) done

def cpuQuota (pct period floor : Int) : CpuMax :=
  { quota := if pct ≤ 0 then none else some (max floor (min pct 99 * period / 100)), period }

def handleCPUThrottleNode (name : String) (pct : Int) : FaultThread :=
  limitNode name name fun limits => { limits with cpuMax := cpuQuota pct 100000 1000 }

def handleCPUModulateNode (name : String) (speedPct : Int) : FaultThread :=
  limitNode name (name ++ "-modulate") fun limits =>
    { limits with cpuMax := cpuQuota speedPct 10000 100 }

def positiveLimit (limit : Int) : Option Int :=
  if limit ≤ 0 then none else some limit

def handleDiskSlowNode (name : String) (bps : Int) : FaultThread :=
  limitNode name name fun limits => { limits with ioMax := positiveLimit bps }

def handleMemPressureNode (name : String) (limitBytes : Int) : FaultThread :=
  limitNode name name fun limits => { limits with memoryMax := positiveLimit limitBytes }

def fillSize (targetFreeBytes : Int) (fill : FillFile) : Int :=
  env.available - (fill.file.map Prod.snd).getD 0 -
    (if targetFreeBytes ≤ 0 then 1048576 else targetFreeBytes)

def handleDiskFull (targetFreeBytes : Int) : FaultThread :=
  read .fill fun found =>
    if fillSize env targetFreeBytes found ≤ 0 then done
    else
      act .fill FillFile.openTrunc fun opened =>
        write .fill (FillFile.allocate opened.inode (fillSize env targetFreeBytes found)) done

def handleClearFaults : FaultThread :=
  write (.chain .faults) (fun _ => []) <|
  write (.chain .faultsIn) (fun _ => []) <|
  write (.chain .faultsOut) (fun _ => []) <|
  write .shaping Shaper.clear <|
  act .procs ProcTable.takePaused fun procs =>
    writeEach .procs ProcTable.sigcont procs.toProcs.takePausedProcs.2 <|
    read .cgroups fun cgroups =>
      writeEach .cgroups Cgroups.setLimit cgroups.resets <|
      write .fill FillFile.remove done

def handleInjectFault (p : AgentFault) : FaultThread :=
  match p.kind with
  | "block_port" => handleBlockPort env p.port
  | "delay_port" => shapePort (handleDelayPort p.port p.delayMS)
  | "block_one_way" => handleBlockOneWay env p.srcPort p.dstPort p.direction
  | "throttle_port" => shapePort (handleThrottlePort p.port p.rateKbps)
  | "reorder_port" => shapePort (handleReorderPort p.port p.correlation)
  | "pause_node" => handlePauseNode p.nodeName
  | "hang_node" => handleHangNode p.nodeName p.durationNS
  | "terminate_node" => handleTerminateNode p.nodeName
  | "dirty_restart_node" => handleDirtyRestartNode env p.nodeName
  | "cpu_throttle_node" => handleCPUThrottleNode p.nodeName p.cpuPct
  | "cpu_modulate_node" => handleCPUModulateNode p.nodeName p.cpuPct
  | "disk_slow_node" => handleDiskSlowNode p.nodeName p.bps
  | "disk_full" => handleDiskFull env p.targetFreeBytes
  | "mem_pressure_node" => handleMemPressureNode p.nodeName p.targetFreeBytes
  | "clear" => handleClearFaults
  | _ => done

end

def faultReads (kind : String) : Set FaultPart :=
  match kind with
  | "pause_node" | "hang_node" | "terminate_node" => {.nodes}
  | "cpu_throttle_node" | "cpu_modulate_node" | "disk_slow_node" | "mem_pressure_node" =>
    {.nodes, .procs}
  | "dirty_restart_node" => {.nodes}
  | "disk_full" => {.fill}
  | "clear" => {.cgroups}
  | _ => ∅

def faultWrites (kind : String) : Set FaultPart :=
  match kind with
  | "block_port" => {.chain .faults}
  | "block_one_way" => {.chain .faultsOut}
  | "delay_port" | "throttle_port" | "reorder_port" => {.shaping}
  | "pause_node" | "terminate_node" => {.procs}
  | "dirty_restart_node" => {.procs, .nodes}
  | "cpu_throttle_node" | "cpu_modulate_node" | "disk_slow_node" | "mem_pressure_node" =>
    {.cgroups}
  | "disk_full" => {.fill}
  | "clear" => {part | part ≠ .nodes}
  | _ => ∅

variable (env : GuestEnv) (name : String) {s : FaultState}

theorem handleBlockPort_within (port : String) :
    (handleBlockPort env port).Within ∅ {.chain .faults} := by
  unfold handleBlockPort
  split
  · exact .done
  · exact .write rfl .done

theorem handleBlockOneWay_within (srcPort dstPort direction : String) :
    (handleBlockOneWay env srcPort dstPort direction).Within ∅ {.chain .faultsOut} := by
  unfold handleBlockOneWay
  split
  · exact .done
  · split
    case h_1 => exact .write rfl .done
    case h_2 => exact .write rfl .done
    case h_3 => exact .write rfl (.write rfl .done)
    case h_4 => exact .write rfl (.write rfl .done)
    case h_5 => exact .done

theorem shapePort_within (handle : Shaper → Shaper) : (shapePort handle).Within ∅ {.shaping} :=
  .write rfl .done

theorem withNodePID_within {reads writes : Set FaultPart} (isRead : FaultPart.nodes ∈ reads)
    {next : Int → FaultThread} (rest : ∀ pid, (next pid).Within reads writes) (name : String) :
    (withNodePID name next).Within reads writes := by
  unfold withNodePID
  split
  · exact .done
  · refine .read isRead fun nodes => ?_
    split
    · exact .done
    · exact rest _

theorem handlePauseNode_within : (handlePauseNode name).Within {.nodes} {.procs} := by
  refine withNodePID_within (Set.mem_singleton _)
    (fun pid => .act (Set.mem_singleton _) fun procs => ?_) name
  split
  · exact .done
  · exact .write rfl .done

theorem handleHangNode_within (durationNS : Int) :
    (handleHangNode name durationNS).Within {.nodes} ∅ := by
  unfold handleHangNode
  split
  · exact .done
  · exact withNodePID_within (Set.mem_singleton _) (fun _ => .done) name

theorem handleTerminateNode_within : (handleTerminateNode name).Within {.nodes} {.procs} :=
  withNodePID_within (Set.mem_singleton _) (fun _ => .write (Set.mem_singleton _) .done) name

theorem handleDirtyRestartNode_within (name : String) :
    (handleDirtyRestartNode env name).Within {.nodes} {.procs, .nodes} := by
  have restart : (restartNode name).Within {.nodes} {.procs, .nodes} :=
    .act (.inl rfl) fun _ => .write (.inr rfl) .done
  unfold handleDirtyRestartNode
  split
  · exact .done
  · refine .read rfl fun nodes => ?_
    split
    · exact .write (.inl rfl) restart
    · exact restart

theorem limitNode_within (name dir : String) (limit : CgroupLimits → CgroupLimits) :
    (limitNode name dir limit).Within {.nodes, .procs} {.cgroups} := by
  refine withNodePID_within (Set.mem_insert _ _) (fun pid => .write (Set.mem_singleton _)
    (.read (Set.mem_insert_of_mem _ (Set.mem_singleton _)) fun procs => ?_)) name
  split
  · exact .done
  · exact .write rfl (.write rfl .done)

theorem handleDiskFull_within (targetFreeBytes : Int) :
    (handleDiskFull env targetFreeBytes).Within {.fill} {.fill} := by
  refine .read rfl fun found => ?_
  split
  · exact .done
  · exact .act rfl fun _ => .write rfl .done

theorem handleClearFaults_within : handleClearFaults.Within {.cgroups} {part | part ≠ .nodes} := by
  refine .write nofun (.write nofun (.write nofun (.write nofun (.act nofun fun procs => ?_))))
  refine .writeEach nofun (.read rfl fun cgroups => ?_)
  exact .writeEach nofun (.write nofun .done)

theorem handleInjectFault_within (p : AgentFault) :
    (handleInjectFault env p).Within (faultReads p.kind) (faultWrites p.kind) := by
  unfold handleInjectFault
  split
  case h_1 kind => exact kind ▸ handleBlockPort_within env _
  case h_2 kind => exact kind ▸ shapePort_within _
  case h_3 kind => exact kind ▸ handleBlockOneWay_within env _ _ _
  case h_4 kind => exact kind ▸ shapePort_within _
  case h_5 kind => exact kind ▸ shapePort_within _
  case h_6 kind => exact kind ▸ handlePauseNode_within _
  case h_7 kind => exact kind ▸ handleHangNode_within _ _
  case h_8 kind => exact kind ▸ handleTerminateNode_within _
  case h_9 kind => exact kind ▸ handleDirtyRestartNode_within env _
  case h_10 kind => exact kind ▸ limitNode_within _ _ _
  case h_11 kind => exact kind ▸ limitNode_within _ _ _
  case h_12 kind => exact kind ▸ limitNode_within _ _ _
  case h_13 kind => exact kind ▸ handleDiskFull_within env _
  case h_14 kind => exact kind ▸ limitNode_within _ _ _
  case h_15 kind => exact kind ▸ handleClearFaults_within
  case h_16 => exact .done

def faultTask (env : GuestEnv) (p : AgentFault) : Task FaultPart.Value where
  reads := faultReads p.kind
  writes := faultWrites p.kind
  thread := handleInjectFault env p
  within := handleInjectFault_within env p

def FaultState.procTable (s : FaultState) : ProcTable :=
  s .procs

def FaultState.shaper (s : FaultState) : Shaper :=
  s .shaping

def Recorded (s : FaultState) : Prop :=
  s.procTable.Recorded

/-- No fault is in force. -/
structure Cleared (s : FaultState) : Prop where
  chains (chain : FaultChain) : s (.chain chain) = []
  shaping : s.shaper.tc = none
  procs (pid : Int) : s.procTable.stopped pid = false

theorem procTable_update (s : FaultState) (procs : ProcTable) :
    FaultState.procTable (update s FaultPart.procs procs) = procs :=
  update_self ..

theorem Recorded.of_untouched {thread : FaultThread} {reads writes : Set FaultPart}
    (recorded : Recorded s) (within : thread.Within reads writes)
    (untouched : FaultPart.procs ∉ writes) : Recorded (thread.run s) := by
  rw [Recorded, FaultState.procTable, within.run_apply untouched]
  exact recorded

theorem run_withNodePID (next : Int → FaultThread) (s : FaultState) :
    (withNodePID name next).run s = s ∨
      ∃ pid, (withNodePID name next).run s = (next pid).run s := by
  unfold withNodePID
  split
  · exact .inl rfl
  · rw [run_read]
    split
    · exact .inl rfl
    · exact .inr ⟨_, rfl⟩

namespace ProcTable

variable {procs : ProcTable}

theorem recorded_pause (recorded : procs.Recorded) (pid : Int) :
    ((procs.sigstop pid).remember pid).Recorded := by
  intro other stopped
  by_cases same : other = pid
  · simp [remember, Procs.rememberPausedProc, same]
  · unfold sigstop at stopped ⊢
    split at stopped
    case isTrue dead =>
      rw [if_pos dead]
      exact Std.ExtTreeSet.mem_insert.mpr (.inr (recorded other stopped))
    case isFalse alive =>
      rw [if_neg alive]
      have before : procs.stopped other = true := by
        simpa [remember, Procs.rememberPausedProc, Procs.sigstop, same] using stopped
      exact Std.ExtTreeSet.mem_insert.mpr (.inr (recorded other before))

theorem recorded_sigcont (recorded : procs.Recorded) (pid : Int) :
    (procs.toProcs.sigcont pid).Recorded := by
  intro other stopped
  by_cases same : other = pid
  · simp [Procs.sigcont, same] at stopped
  · exact recorded other (by simpa [Procs.sigcont, same] using stopped)

theorem toProcs_foldl_sigcont (procs : ProcTable) (pids : List Int) :
    (pids.foldl (fun procs pid => procs.sigcont pid) procs).toProcs =
      pids.foldl Procs.sigcont procs.toProcs :=
  (foldl_hom ProcTable.toProcs fun _ _ => rfl).symm

end ProcTable

section

variable (recorded : Recorded s)

include recorded

theorem Recorded.pause (name : String) : Recorded ((handlePauseNode name).run s) := by
  rcases run_withNodePID name _ s with same | ⟨pid, runs⟩
  · rw [handlePauseNode, same]
    exact recorded
  · rw [handlePauseNode, runs, run_act]
    by_cases dead : (s .procs).dead pid = true
    · have unchanged : ProcTable.sigstop pid (s .procs) = s .procs := if_pos dead
      rw [unchanged, update_eq_self, if_pos dead]
      exact recorded
    · rw [if_neg dead, run_write, run_done, Recorded, procTable_update, update_self]
      exact ProcTable.recorded_pause recorded pid

theorem Recorded.kill (pid : Int) (next : FaultThread) :
    ∃ killed, Recorded killed ∧
      (write FaultPart.procs (ProcTable.sigkill pid) next).run s = next.run killed := by
  refine ⟨_, ?_, run_write ..⟩
  rw [Recorded, procTable_update]
  exact ProcTable.recorded_sigcont recorded pid

theorem Recorded.terminate (name : String) : Recorded ((handleTerminateNode name).run s) := by
  rcases run_withNodePID name _ s with same | ⟨pid, runs⟩
  · rw [handleTerminateNode, same]
    exact recorded
  · obtain ⟨killed, recorded, kills⟩ := recorded.kill pid done
    rw [handleTerminateNode, runs, kills, run_done]
    exact recorded

theorem Recorded.restart (name : String) : Recorded ((restartNode name).run s) := by
  have spawned : Recorded (update s FaultPart.procs (ProcTable.spawn (s .procs))) := by
    rw [Recorded, procTable_update]
    exact ProcTable.recorded_sigcont recorded _
  have registers : (write FaultPart.nodes (registerNode name (s .procs).nextPid)
      (done : FaultThread)).Within ∅ {.nodes} :=
    .write rfl .done
  exact spawned.of_untouched registers nofun

theorem Recorded.dirtyRestart (env : GuestEnv) (name : String) :
    Recorded ((handleDirtyRestartNode env name).run s) := by
  unfold handleDirtyRestartNode
  split
  · exact recorded
  · rw [run_read]
    split
    · obtain ⟨killed, recorded, kills⟩ :=
        recorded.kill (lookupNodePID (s .nodes) name) (restartNode name)
      rw [kills]
      exact recorded.restart name
    · exact recorded.restart name

theorem Recorded.clear :
    Cleared (handleClearFaults.run s) where
  chains chain := by
    cases chain with
    | faults | faultsIn | faultsOut => simp [handleClearFaults]
  shaping := by
    simp [handleClearFaults, FaultState.shaper, Shaper.clear_eq]
  procs pid := by
    have resumed : (FaultState.procTable (handleClearFaults.run s)).toProcs =
        s.procTable.toProcs.resumeAllPausedProcs := by
      simp [handleClearFaults, FaultState.procTable, ProcTable.toProcs_foldl_sigcont,
        Procs.resumeAllPausedProcs, ProcTable.takePaused]
    rw [resumed]
    exact Procs.Recorded.resumeAll recorded pid

theorem Recorded.handle (env : GuestEnv) (p : AgentFault) :
    Recorded ((handleInjectFault env p).run s) := by
  unfold handleInjectFault
  split
  case h_1 => exact recorded.of_untouched (handleBlockPort_within env _) (by simp)
  case h_2 => exact recorded.of_untouched (shapePort_within _) (by simp)
  case h_3 => exact recorded.of_untouched (handleBlockOneWay_within env _ _ _) (by simp)
  case h_4 => exact recorded.of_untouched (shapePort_within _) (by simp)
  case h_5 => exact recorded.of_untouched (shapePort_within _) (by simp)
  case h_6 => exact recorded.pause _
  case h_7 => exact recorded.of_untouched (handleHangNode_within _ _) (by simp)
  case h_8 => exact recorded.terminate _
  case h_9 => exact recorded.dirtyRestart env _
  case h_10 => exact recorded.of_untouched (limitNode_within _ _ _) (by simp)
  case h_11 => exact recorded.of_untouched (limitNode_within _ _ _) (by simp)
  case h_12 => exact recorded.of_untouched (limitNode_within _ _ _) (by simp)
  case h_13 => exact recorded.of_untouched (handleDiskFull_within env _) (by simp)
  case h_14 => exact recorded.of_untouched (limitNode_within _ _ _) (by simp)
  case h_15 =>
    intro pid stopped
    rw [recorded.clear.procs pid] at stopped
    cases stopped
  case h_16 => exact recorded

end

def handleAll (env : GuestEnv) (messages : List AgentFault) (s : FaultState) : FaultState :=
  messages.foldl (fun s p => (handleInjectFault env p).run s) s

theorem Recorded.handleAll (recorded : Recorded s) (env : GuestEnv) (messages : List AgentFault) :
    Recorded (handleAll env messages s) :=
  foldlRecOn (motive := Recorded) messages _ recorded
    fun _ recorded p _ => recorded.handle env p

theorem Recorded.handleAll_clear (recorded : Recorded s) (env : GuestEnv)
    {messages : List AgentFault} {last : AgentFault} (isLast : messages.getLast? = some last)
    (isClear : last.kind = "clear") : Cleared (Guest.handleAll env messages s) := by
  obtain ⟨earlier, rfl⟩ := getLast?_eq_some_iff.mp isLast
  have clears : handleInjectFault env last = handleClearFaults := by
    rw [handleInjectFault, isClear]
    rfl
  rw [Guest.handleAll, foldl_concat, clears]
  exact (recorded.handleAll env earlier).clear

def faultPool (env : GuestEnv) (messages : List AgentFault) (s : FaultState) :
    Pool FaultPart.Value where
  store := s
  tasks := messages.map (faultTask env)

/-- If a handler takes a step only when every earlier handler is done or touches other parts of the
fault state, then the messages take effect in order, and nothing is left after a clear. -/
theorem faults_take_effect_in_order (env : GuestEnv) (s : FaultState) (recorded : Recorded s)
    (messages : List AgentFault) (schedule : List Nat)
    (finished : ((faultPool env messages s).exec schedule).Finished)
    (inTurn : ∀ before position, before ++ [position] <+: schedule →
      ((faultPool env messages s).exec before).InTurn position) :
    ((faultPool env messages s).exec schedule).store = handleAll env messages s ∧
      ∀ last ∈ messages.getLast?, last.kind = "clear" →
        Cleared ((faultPool env messages s).exec schedule).store := by
  have ends : _ = handleAll env messages s :=
    (Pool.exec_eq_runAll inTurn finished).trans foldl_map
  refine ⟨ends, fun last isLast isClear => ?_⟩
  rw [ends]
  exact recorded.handleAll_clear env isLast isClear

def quietGuest : FaultState
  | .chain _ => []
  | .shaping => { rootInstalled := false, tc := none }
  | .procs =>
    { pausedProcs := ∅, stopped := fun _ => false, dead := fun _ => false, nextPid := 8 }
  | .cgroups => { limits := ∅, member := fun _ => none }
  | .fill => { file := none, nextInode := 1 }
  | .nodes => [("n1", 7)]

def anyRule : GuestEnv where
  accepts _ := true
  config := ["n1"]
  available := 4194304

theorem faults_take_effect_in_order_pause_block :
    ((faultPool anyRule [{ kind := "pause_node", nodeName := "n1" },
        { kind := "block_port", port := "80" }] quietGuest).exec [0, 1, 0, 0]).store =
      handleAll anyRule [{ kind := "pause_node", nodeName := "n1" },
        { kind := "block_port", port := "80" }] quietGuest := by
  refine (faults_take_effect_in_order anyRule quietGuest ?_ _ [0, 1, 0, 0] ?_ ?_).1
  · intro pid stopped
    cases stopped
  · decide +kernel
  · intro before position isPre
    rcases before with _ | ⟨first, _ | ⟨second, rest⟩⟩
    · obtain rfl : position = 0 := by simpa using isPre
      intro task _ earlier isEarlier
      cases isEarlier
    · obtain ⟨rfl, rfl⟩ : first = 0 ∧ position = 1 := by simpa using isPre
      intro task isTask earlier isEarlier
      cases isTask
      cases mem_singleton.mp isEarlier
      right
      constructor
      · rintro cell rfl
        exact ⟨nofun, nofun⟩
      · rintro cell rfl
        exact ⟨nofun, nofun⟩
    · obtain ⟨_, _, later⟩ : first = 0 ∧ second = 1 ∧ rest ++ [position] <+: [0, 0] := by
        simpa using isPre
      obtain rfl : position = 0 := by
        simpa using later.subset (mem_append_right _ mem_cons_self)
      intro task _ earlier isEarlier
      cases isEarlier

/-- A clear that overtakes the block of a port leaves the rule. -/
theorem clear_overtakes_block :
    ((faultPool anyRule [{ kind := "block_port", port := "80" }, { kind := "clear" }]
        quietGuest).exec [1, 1, 1, 1, 1, 1, 1, 0]).Finished ∧
      ((faultPool anyRule [{ kind := "block_port", port := "80" }, { kind := "clear" }]
        quietGuest).exec [1, 1, 1, 1, 1, 1, 1, 0]).store (.chain .faults) =
          [{ sport := none, dport := "80" }] ∧
      handleAll anyRule [{ kind := "block_port", port := "80" }, { kind := "clear" }] quietGuest
        (.chain .faults) = [] := by
  decide +kernel

end OpenThesis.Guest
