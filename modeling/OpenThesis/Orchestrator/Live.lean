import OpenThesis.Orchestrator.Inject

/-!
# Live injection on Firecracker

In record mode every decision sends a fixed list of messages and records at most its own entry. A
message counts as sent once it is handed to the listener.
-/

namespace OpenThesis.Orchestrator

open Fault List

namespace Decision

/-- The messages to the agent that carry a decision out. -/
def messages (c : Config) : Decision → List AgentFaultMsg
  | nWayPartition groups => partitionMessages c groups
  | drop _ b => (c.port? b).toList.map fun port => agentFault "block_port" port 0
  | delay _ b duration =>
    (c.port? b).toList.map fun port => agentFault "delay_port" port (milliseconds duration)
  | partition a b dir =>
    if nodePort c.nodes a ≠ "" ∧ nodePort c.nodes b ≠ "" then
      [agentPartition (nodePort c.nodes a) (nodePort c.nodes b) dir.string]
    else []
  | throttle _ b rate => (c.port? b).toList.map fun port => agentThrottle port rate
  | reorder _ b corr => (c.port? b).toList.map fun port => agentReorder port corr
  | hang n duration => [agentHangNode n duration]
  | terminate n => [agentTerminateNode n]
  | dirtyRestart n => [agentDirtyRestartNode n]
  | threadPause n duration => [agentPauseNode n (milliseconds duration)]
  | cpuThrottle n pct => [agentCPUThrottle n pct]
  | cpuModulate n speedPct => [agentCPUModulate n speedPct]
  | diskSlow n bps => [agentDiskSlow n bps]
  | diskCorrupt n dataDir => [agentDiskCorrupt n dataDir]
  | memPressure n limitBytes => [agentMemPressure n limitBytes]
  | script _ path args timeout => [agentScript path args timeout]
  | diskFlakey n interval duration => [agentDiskFlakey n interval duration]
  | diskFull targetFree => [agentDiskFull targetFree]
  | clockJitter _ => []

def recordedOnDelivery : Decision → Bool
  | nWayPartition _ | dirtyRestart _ => true
  | _ => false

end Decision

namespace FaultState

def stamp (s : FaultState) (entry : ScheduleEntry) : ScheduleEntry :=
  { entry with
    snapshotPathHash := s.currentStepPathHash
    virtualTimeNS := s.currentStepVTimeNS }

/-- The messages that a part of a step sends and the entries it records. -/
structure Logs (s after : FaultState) (msgs : List AgentFaultMsg) (entries : List ScheduleEntry) :
    Prop where
  sent : after.sent = s.sent ++ msgs
  recorded : after.faultSchedule =
    { s.faultSchedule with entries := s.faultSchedule.entries ++ entries }
  pathHash : after.currentStepPathHash = s.currentStepPathHash
  vtime : after.currentStepVTimeNS = s.currentStepVTimeNS

variable {s between after : FaultState} {msgs later : List AgentFaultMsg}
  {entries others : List ScheduleEntry}

theorem Logs.refl (s : FaultState) : Logs s s [] [] where
  sent := (append_nil _).symm
  recorded := by rw [append_nil]
  pathHash := rfl
  vtime := rfl

theorem Logs.trans (first : Logs s between msgs entries)
    (second : Logs between after later others) :
    Logs s after (msgs ++ later) (entries ++ others) where
  sent := by rw [second.sent, first.sent, append_assoc]
  recorded := by rw [second.recorded, first.recorded, append_assoc]
  pathHash := second.pathHash.trans first.pathHash
  vtime := second.vtime.trans first.vtime

theorem Logs.recording (logs : Logs s after msgs entries)
    (recording : s.faultSchedule.replay = false) : after.faultSchedule.replay = false := by
  rw [logs.recorded]
  exact recording

variable (env : Environment)

theorem logs_send (msg : AgentFaultMsg) (s : FaultState) : Logs s (s.send env msg).2 [msg] [] :=
  ⟨rfl, (Logs.refl s).recorded, rfl, rfl⟩

theorem logs_injectFault (kind : Kind) (params : Params) (s : FaultState) :
    Logs s (s.injectFault env kind params).2 [] [] :=
  ⟨(Logs.refl s).sent, (Logs.refl s).recorded, rfl, rfl⟩

theorem logs_countFault (kind : Kind) (s : FaultState) : Logs s (s.countFault kind) [] [] :=
  ⟨(Logs.refl s).sent, (Logs.refl s).recorded, rfl, rfl⟩

theorem logs_countDelivered (kind : Kind) (delivered : Bool × FaultState) :
    Logs delivered.2 (countDelivered kind delivered) [] [] := by
  rcases delivered with ⟨accepted, s⟩
  cases accepted with
  | true => exact logs_countFault kind s
  | false => exact Logs.refl s

theorem logs_recordFault (recording : s.faultSchedule.replay = false) (entry : ScheduleEntry) :
    Logs s (s.recordFault entry) [] [s.stamp entry] :=
  ⟨(Logs.refl s).sent, Schedule.record_of_recording recording _, rfl, rfl⟩

theorem Logs.stamp (logs : Logs s after msgs entries) (entry : ScheduleEntry) :
    after.stamp entry = s.stamp entry := by
  rw [FaultState.stamp, FaultState.stamp, logs.pathHash, logs.vtime]

theorem Logs.record (logs : Logs s after msgs []) (recording : s.faultSchedule.replay = false)
    (entry : ScheduleEntry) : Logs s (after.recordFault entry) msgs [s.stamp entry] := by
  have recorded := logs.trans (logs_recordFault (logs.recording recording) entry)
  rw [append_nil, nil_append, logs.stamp] at recorded
  exact recorded

theorem Logs.count (kind : Kind) {delivered : Bool × FaultState}
    (logs : Logs s delivered.2 msgs []) : Logs s (countDelivered kind delivered) msgs [] := by
  have counted := logs.trans (logs_countDelivered kind delivered)
  rw [append_nil, append_nil] at counted
  exact counted

theorem logs_deliverAll (msgs : List AgentFaultMsg) (s : FaultState) :
    Logs s (deliverAll (send env) msgs s).2 msgs [] := by
  induction msgs generalizing s with
  | nil => exact Logs.refl s
  | cons msg msgs ih => exact (logs_send env msg s).trans (ih _)

end FaultState

namespace Decision

open FaultState

section

variable {c : Config} {s : FaultState}

section

variable (firecracker : c.backend = .firecracker) (recording : s.faultSchedule.replay = false)
  (env : Environment) (entry : ScheduleEntry)

include firecracker recording env entry

theorem logs_injectRouted (msg : Option AgentFaultMsg) :
    Logs s (injectRouted c env entry msg s) msg.toList [s.stamp entry] := by
  simp only [injectRouted, firecracker, if_true]
  cases msg with
  | none => exact ((@Logs.count s [] _ (true, s) (Logs.refl s))).record recording entry
  | some msg => exact ((logs_send env msg s).count _).record recording entry

theorem logs_injectPort (name : String) (msg : String → AgentFaultMsg) :
    Logs s (injectRouted c env entry ((c.port? name).map msg) s) ((c.port? name).toList.map msg)
      [s.stamp entry] := by
  rw [← Option.toList_map]
  exact logs_injectRouted firecracker recording env entry _

theorem logs_injectGuest
    (msg : AgentFaultMsg) : Logs s (injectGuest c env entry msg s) [msg] [s.stamp entry] := by
  simp only [injectGuest, firecracker, if_true]
  exact ((logs_send env msg s).count _).record recording entry

end

theorem logs_recordDelivered (recording : s.faultSchedule.replay = false) (entry : ScheduleEntry)
    {delivered : Bool × FaultState} {msgs : List AgentFaultMsg}
    (logs : Logs s delivered.2 msgs []) :
    ∃ entries, Logs s (recordDelivered entry delivered) msgs entries ∧
      (entries = [s.stamp entry] ∨ entries = []) := by
  rcases delivered with ⟨accepted, after⟩
  cases accepted with
  | true =>
    have counted := @Logs.count s msgs entry.faultKind (true, after) logs
    exact ⟨_, counted.record recording entry, Or.inl rfl⟩
  | false => exact ⟨[], logs, Or.inr rfl⟩

theorem logs_inject (firecracker : c.backend = .firecracker)
    (recording : s.faultSchedule.replay = false) (env : Environment) (step : Nat) (d : Decision) :
    ∃ entries, Logs s (d.inject c env step s) (d.messages c) entries ∧
      (entries = [s.stamp (d.entry c step)] ∨ d.recordedOnDelivery = true ∧ entries = []) := by
  cases d with
  | nWayPartition groups =>
    simp only [inject, firecracker, if_true]
    rcases logs_recordDelivered recording ((nWayPartition groups).entry c step)
      (logs_deliverAll env (partitionMessages c groups) s) with ⟨entries, logs, recorded⟩
    exact ⟨entries, logs, recorded.imp_right fun none => ⟨rfl, none⟩⟩
  | dirtyRestart n =>
    rcases logs_recordDelivered recording ((dirtyRestart n).entry c step)
      (logs_send env (agentDirtyRestartNode n) s) with ⟨entries, logs, recorded⟩
    exact ⟨entries, logs, recorded.imp_right fun none => ⟨rfl, none⟩⟩
  | drop | delay | throttle | reorder =>
    exact ⟨_, logs_injectPort firecracker recording env _ _ _, Or.inl rfl⟩
  | partition a b dir =>
    have logs := logs_injectRouted firecracker recording env ((partition a b dir).entry c step)
      (if nodePort c.nodes a ≠ "" ∧ nodePort c.nodes b ≠ "" then
        some (agentPartition (nodePort c.nodes a) (nodePort c.nodes b) dir.string) else none)
    rw [apply_ite Option.toList] at logs
    exact ⟨_, logs, Or.inl rfl⟩
  | hang | terminate | threadPause | cpuThrottle | cpuModulate =>
    exact ⟨_, logs_injectRouted firecracker recording env _ (some _), Or.inl rfl⟩
  | diskSlow | diskCorrupt | memPressure | script | diskFlakey | diskFull =>
    exact ⟨_, logs_injectGuest firecracker recording env _ _, Or.inl rfl⟩
  | clockJitter jitter =>
    exact ⟨_, ((logs_injectFault env _ _ s).count _).record recording _, Or.inl rfl⟩

end

end Decision

end OpenThesis.Orchestrator
