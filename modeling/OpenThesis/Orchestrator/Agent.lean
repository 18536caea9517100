import OpenThesis.Fault.Schedule

/-!
# Messages to the guest agent

Messages of the faults that an agent applies in the guest (`internal/orchestrator/faults.go`). Each
`sendAgent…` function is here the function that builds the message.
-/

namespace OpenThesis.Orchestrator

structure Node where
  name : String
  readyProbe : String := ""
  faultProbe : String := ""
  deriving DecidableEq, Repr

def probePort (probe : String) : String :=
  let chars := probe.toList
  if ':' ∈ chars then
    let portPath := (chars.reverse.takeWhile (· ≠ ':')).reverse
    String.ofList (portPath.takeWhile (· ≠ '/'))
  else ""

def nodePort : List Node → String → String
  | [], _ => ""
  | n :: nodes, name =>
    if n.name ≠ name then nodePort nodes name
    else
      let probe := if n.faultProbe = "" then n.readyProbe else n.faultProbe
      if probe = "" then nodePort nodes name else probePort probe

structure AgentFault where
  kind : String
  port : String := ""
  delayMS : Int := 0
  srcPort : String := ""
  dstPort : String := ""
  direction : String := ""
  rateKbps : Int := 0
  nodeName : String := ""
  durationMS : Int := 0
  durationNS : Int := 0
  correlation : Int := 0
  cpuPct : Int := 0
  bps : Int := 0
  targetFreeBytes : Int := 0
  dataDir : String := ""
  scriptPath : String := ""
  scriptArgs : List String := []
  scriptTimeout : Int := 0
  diskFlakeyInterval : Int := 0
  diskFlakeyDuration : Int := 0
  deriving DecidableEq, Repr

structure AgentFaultMsg where
  type : String := "inject_fault"
  payload : AgentFault
  deriving DecidableEq, Repr

def agentFault (kind port : String) (delayMS : Int) : AgentFaultMsg :=
  { payload := { kind, port, delayMS } }

def agentPartition (srcPort dstPort direction : String) : AgentFaultMsg :=
  { payload := { kind := "block_one_way", srcPort, dstPort, direction } }

def agentThrottle (port : String) (rateKbps : Int) : AgentFaultMsg :=
  { payload := { kind := "throttle_port", port, rateKbps } }

def agentReorder (port : String) (correlation : Int) : AgentFaultMsg :=
  { payload := { kind := "reorder_port", port, correlation } }

def agentCPUThrottle (nodeName : String) (cpuPct : Int) : AgentFaultMsg :=
  { payload := { kind := "cpu_throttle_node", nodeName, cpuPct } }

def agentCPUModulate (nodeName : String) (speedPct : Int) : AgentFaultMsg :=
  { payload := { kind := "cpu_modulate_node", nodeName, cpuPct := speedPct } }

def agentDiskSlow (nodeName : String) (bps : Int) : AgentFaultMsg :=
  { payload := { kind := "disk_slow_node", nodeName, bps } }

def agentDiskFull (targetFreeBytes : Int) : AgentFaultMsg :=
  { payload := { kind := "disk_full", targetFreeBytes } }

def agentMemPressure (nodeName : String) (limitBytes : Int) : AgentFaultMsg :=
  { payload := { kind := "mem_pressure_node", nodeName, targetFreeBytes := limitBytes } }

def agentDiskFlakey (nodeName : String) (intervalSecs durationSecs : Int) : AgentFaultMsg :=
  { payload :=
      { kind := "disk_flakey_node", nodeName
        diskFlakeyInterval := intervalSecs, diskFlakeyDuration := durationSecs } }

def agentDiskCorrupt (nodeName dataDir : String) : AgentFaultMsg :=
  { payload := { kind := "disk_corrupt_node", nodeName, dataDir } }

def agentScript (path : String) (args : List String) (timeoutSeconds : Int) : AgentFaultMsg :=
  { payload :=
      { kind := "exec_script", scriptPath := path, scriptArgs := args
        scriptTimeout := timeoutSeconds } }

def agentHangNode (nodeName : String) (durationNS : Int) : AgentFaultMsg :=
  { payload := { kind := "hang_node", nodeName, durationNS } }

def agentTerminateNode (nodeName : String) : AgentFaultMsg :=
  { payload := { kind := "terminate_node", nodeName } }

def agentDirtyRestartNode (nodeName : String) : AgentFaultMsg :=
  { payload := { kind := "dirty_restart_node", nodeName } }

def agentPauseNode (nodeName : String) (durationMS : Int) : AgentFaultMsg :=
  { payload := { kind := "pause_node", nodeName, durationMS } }

end OpenThesis.Orchestrator
