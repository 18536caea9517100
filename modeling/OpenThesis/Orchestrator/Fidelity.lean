import Mathlib.Data.List.TakeWhile
import OpenThesis.Fault.Replay
import OpenThesis.Orchestrator.Live

/-!
# Fidelity of replay on Firecracker

A step is replayed faithfully if the agent gets the same messages. The file does not keep the types
of parameters; `Replayable` lists the faults that this leaves alone.
-/

namespace OpenThesis.Orchestrator

open Fault OrchestratorState List

universe u

namespace Decision

def reloaded : Decision → Decision
  | nWayPartition _ => nWayPartition []
  | drop a b => drop a b
  | delay a b _ => delay a b 0
  | partition a b dir => partition a b dir
  | throttle a b _ => throttle a b 0
  | reorder a b _ => reorder a b 0
  | hang n _ => hang n 0
  | terminate n => terminate n
  | dirtyRestart n => terminate n
  | threadPause n _ => threadPause n 0
  | cpuThrottle n _ => cpuThrottle n 0
  | cpuModulate n _ => cpuModulate n 0
  | diskSlow n _ => diskSlow n 0
  | diskCorrupt n dataDir => diskCorrupt n dataDir
  | memPressure n _ => memPressure n 0
  | script n path args _ => script n path args 0
  | diskFlakey n _ _ => diskFlakey n 0 0
  | diskFull _ => diskFull 0
  | clockJitter jitter => clockJitter jitter

/-- Decisions whose entry replays to the messages that were sent live. -/
def Replayable (c : Config) : Decision → Prop
  | nWayPartition groups => interGroupPairs (groups.map (·.filterMap c.port?)) = []
  | delay _ b duration => c.port? b = none ∨ milliseconds duration = 0
  | throttle _ b rate => c.port? b = none ∨ rate = 0
  | reorder _ b corr => c.port? b = none ∨ corr = 0
  | hang _ duration => duration = 0
  | threadPause _ duration => milliseconds duration = 0
  | cpuThrottle _ pct => pct = 0
  | cpuModulate _ speedPct => speedPct = 0
  | diskSlow _ bps => bps = 0
  | memPressure _ limitBytes => limitBytes = 0
  | script _ _ _ timeout => timeout = 0
  | diskFlakey _ interval duration => interval = 0 ∧ duration = 0
  | diskFull targetFree => targetFree = 0
  | dirtyRestart _ => False
  | drop .. | partition .. | terminate _ | diskCorrupt .. | clockJitter _ => True

end Decision

def Route.messages : Route → List AgentFaultMsg
  | agent msgs => msgs
  | hypervisor => []

def replayMessages (c : Config) (entries : List ScheduleEntry) : List AgentFaultMsg :=
  entries.flatMap fun e => (replayRoute c e.reload).messages

theorem replayMessages_append (c : Config) (entries others : List ScheduleEntry) :
    replayMessages c (entries ++ others) = replayMessages c entries ++ replayMessages c others :=
  flatMap_append

theorem length_replayRoute_reload (c : Config) (e : ScheduleEntry) :
    (replayRoute c e.reload).messages.length ≤ 1 := by
  have port : ∀ msg, (portRoute c e.reload msg).messages.length ≤ 1 := by
    intro msg
    simp only [portRoute, Route.messages, length_map]
    cases c.port? e.reload.targetB with
    | none => exact Nat.zero_le 1
    | some => exact le_rfl
  have kind : e.reload.faultKind = e.faultKind := rfl
  unfold replayRoute
  rw [kind]
  cases e.faultKind with
  | drop | delay | throttle | reorder => exact port _
  | partition =>
    simp only
    split
    · exact Nat.zero_le 1
    · exact le_rfl
  | nWayPartition =>
    simp only [ScheduleEntry.reload, Params.stringLists_reload]
    exact Nat.zero_le 1
  | clockJitter | clear => exact Nat.zero_le 1
  | _ => exact le_rfl

theorem sent_sendUntilError (env : Environment) {msgs : List AgentFaultMsg}
    (short : msgs.length ≤ 1) (s : FaultState) :
    (s.sendUntilError env msgs).2.sent = s.sent ++ msgs := by
  cases msgs with
  | nil => exact (append_nil _).symm
  | cons msg rest =>
    have noRest : rest.length ≤ 0 := Nat.le_of_succ_le_succ short
    obtain rfl := length_eq_zero_iff.mp (Nat.le_zero.mp noRest)
    simp only [FaultState.sendUntilError, FaultState.send]
    cases env.agent (s.sent ++ [msg]) with
    | true | false => rfl

theorem sent_replayFault {c : Config} (firecracker : c.backend = .firecracker) (env : Environment)
    (s : FaultState) (e : ScheduleEntry) :
    (replayFault c env s e.reload).sent = s.sent ++ (replayRoute c e.reload).messages := by
  have counted := (FaultState.logs_countDelivered e.faultKind
    (replayAgentFault c env e.reload s)).sent
  have short := length_replayRoute_reload c e
  simp only [replayFault, firecracker, if_true]
  rw [append_nil] at counted
  refine counted.trans ?_
  cases route : replayRoute c e.reload with
  | agent msgs =>
    rw [route] at short
    simp only [replayAgentFault, route]
    exact sent_sendUntilError env short s
  | hypervisor =>
    simp only [replayAgentFault, route]
    exact (append_nil _).symm

theorem sent_foldl_replayFault {c : Config} (firecracker : c.backend = .firecracker)
    (env : Environment) (entries : List ScheduleEntry) (s : FaultState) :
    ((entries.map (·.reload)).foldl (replayFault c env) s).sent =
      s.sent ++ replayMessages c entries := by
  induction entries generalizing s with
  | nil => exact (append_nil _).symm
  | cons e entries ih =>
    rw [map_cons, foldl_cons, ih, sent_replayFault firecracker, append_assoc]
    rfl

theorem append_eq_append_iff_of_length_le {α : Type u} {first second third fourth : List α}
    (firstShorter : first.length ≤ third.length) (secondShorter : second.length ≤ fourth.length) :
    first ++ second = third ++ fourth ↔ first = third ∧ second = fourth := by
  constructor
  · intro equal
    have lengths := congrArg List.length equal
    rw [length_append, length_append] at lengths
    exact append_inj equal (by omega)
  · rintro ⟨rfl, rfl⟩
    rfl

/-- The entries reproduce no more than the messages of the decisions, and all exactly when each
decision is replayable. -/
structure Reproduces (c : Config) (ds : List Decision) (entries : List ScheduleEntry) : Prop where
  shorter : (replayMessages c entries).length ≤ (ds.flatMap (·.messages c)).length
  same_iff : replayMessages c entries = ds.flatMap (·.messages c) ↔ ∀ d ∈ ds, d.Replayable c

theorem reproduces_nil (c : Config) : Reproduces c [] [] where
  shorter := le_rfl
  same_iff := by simp [replayMessages]

theorem Reproduces.append {c : Config} {ds later : List Decision}
    {entries others : List ScheduleEntry} (first : Reproduces c ds entries)
    (second : Reproduces c later others) : Reproduces c (ds ++ later) (entries ++ others) where
  shorter := by
    rw [replayMessages_append, flatMap_append, length_append, length_append]
    exact Nat.add_le_add first.shorter second.shorter
  same_iff := by
    rw [replayMessages_append, flatMap_append,
      append_eq_append_iff_of_length_le first.shorter second.shorter, forall_mem_append]
    exact and_congr first.same_iff second.same_iff

theorem zero_message_iff {msg : Int → AgentFaultMsg} (field : AgentFaultMsg → Int)
    (reads : ∀ value, field (msg value) = value) (value : Int) :
    [msg 0] = [msg value] ↔ value = 0 := by
  constructor
  · intro equal
    have fields := congrArg field (singleton_inj.mp equal)
    rw [reads, reads] at fields
    exact fields.symm
  · rintro rfl
    rfl

theorem zero_port_message_iff {msg : String → Int → AgentFaultMsg} (field : AgentFaultMsg → Int)
    (reads : ∀ port value, field (msg port value) = value) (port : Option String) (value : Int) :
    port.toList.map (msg · 0) = port.toList.map (msg · value) ↔ port = none ∨ value = 0 := by
  cases port with
  | none => exact iff_of_true rfl (Or.inl rfl)
  | some port =>
    have zero := zero_message_iff field (reads port) value
    simp only [Option.toList_some, map_cons, map_nil, reduceCtorEq, false_or]
    exact zero

namespace Decision

variable (c : Config)

theorem messages_replayRoute (step : Nat) (d : Decision) :
    (replayRoute c (d.entry c step).reload).messages = d.reloaded.messages c := by
  cases d with
  | partition a b dir =>
    let params := ((partition a b dir).entry c step).params
    have src : params.reload.string "src_port" = nodePort c.nodes a := Params.string_reload rfl
    have dst : params.reload.string "dst_port" = nodePort c.nodes b := Params.string_reload rfl
    have direction : params.reload.string "direction" = dir.string := Params.string_reload rfl
    have route : replayRoute c ((partition a b dir).entry c step).reload =
        if params.reload.string "src_port" = "" ∨ params.reload.string "dst_port" = "" then
          .agent []
        else .agent [agentPartition (params.reload.string "src_port")
          (params.reload.string "dst_port") (params.reload.string "direction")] := rfl
    rw [route, src, dst, direction, apply_ite Route.messages, reloaded, messages]
    simp only [Route.messages, ne_eq, ← not_or, ite_not]
  | diskCorrupt n dataDir =>
    let params := ((diskCorrupt n dataDir).entry c step).params
    have dir : params.reload.string "data_dir" = dataDir := Params.string_reload rfl
    exact congrArg (fun dir => [agentDiskCorrupt n dir]) dir
  | script n path args timeout =>
    let params := ((script n path args timeout).entry c step).params
    have pathEq : params.reload.string "path" = path := Params.string_reload rfl
    have argsEq : params.reload.untypedStrings "args" = args := Params.untypedStrings_reload rfl
    have timeoutEq : params.reload.int "timeout_seconds" = 0 := Params.int_reload _ _
    have route : replayRoute c ((script n path args timeout).entry c step).reload =
        .agent [agentScript (params.reload.string "path") (params.reload.untypedStrings "args")
          (params.reload.int "timeout_seconds")] := rfl
    rw [route, pathEq, argsEq, timeoutEq]
    rfl
  | _ =>
    simp [replayRoute, entry, ScheduleEntry.reload, reloaded, messages, Route.messages,
      portRoute, milliseconds]

theorem length_messages_reloaded (d : Decision) :
    (d.reloaded.messages c).length ≤ (d.messages c).length := by
  cases d with
  | nWayPartition => exact Nat.zero_le _
  | delay | throttle | reorder => simp only [reloaded, messages, length_map, le_refl]
  | _ => exact le_rfl

theorem messages_reloaded_iff (d : Decision) :
    d.reloaded.messages c = d.messages c ↔ d.Replayable c := by
  cases d with
  | nWayPartition groups =>
    have cut : (nWayPartition groups).messages c = [] ↔
        interGroupPairs (groups.map (·.filterMap c.port?)) = [] := map_eq_nil_iff
    exact eq_comm.trans cut
  | delay a b duration =>
    exact zero_port_message_iff (·.payload.delayMS) (fun _ _ => rfl) _ (milliseconds duration)
  | throttle a b rate => exact zero_port_message_iff (·.payload.rateKbps) (fun _ _ => rfl) _ rate
  | reorder a b corr => exact zero_port_message_iff (·.payload.correlation) (fun _ _ => rfl) _ corr
  | hang n duration => exact zero_message_iff (·.payload.durationNS) (fun _ => rfl) duration
  | threadPause n duration =>
    exact zero_message_iff (·.payload.durationMS) (fun _ => rfl) (milliseconds duration)
  | cpuThrottle n pct => exact zero_message_iff (·.payload.cpuPct) (fun _ => rfl) pct
  | cpuModulate n speedPct => exact zero_message_iff (·.payload.cpuPct) (fun _ => rfl) speedPct
  | diskSlow n bps => exact zero_message_iff (·.payload.bps) (fun _ => rfl) bps
  | memPressure n limitBytes =>
    exact zero_message_iff (·.payload.targetFreeBytes) (fun _ => rfl) limitBytes
  | script n path args timeout =>
    exact zero_message_iff (·.payload.scriptTimeout) (fun _ => rfl) timeout
  | diskFull targetFree =>
    exact zero_message_iff (·.payload.targetFreeBytes) (fun _ => rfl) targetFree
  | diskFlakey n interval duration =>
    constructor
    · intro equal
      have same : agentDiskFlakey n 0 0 = agentDiskFlakey n interval duration :=
        singleton_inj.mp equal
      exact ⟨(congrArg (·.payload.diskFlakeyInterval) same).symm,
        (congrArg (·.payload.diskFlakeyDuration) same).symm⟩
    · rintro ⟨rfl, rfl⟩
      rfl
  | dirtyRestart n =>
    apply iff_of_false
    · intro equal
      have kinds : "terminate_node" = "dirty_restart_node" :=
        congrArg (·.payload.kind) (singleton_inj.mp equal)
      exact absurd kinds (by decide)
    · exact id
  | drop | partition | terminate | diskCorrupt | clockJitter => exact iff_of_true rfl trivial

end Decision

theorem reproduces_entry (c : Config) (s : FaultState) (step : Nat) (d : Decision) :
    Reproduces c [d] [s.stamp (d.entry c step)] := by
  have replayed : replayMessages c [s.stamp (d.entry c step)] = d.reloaded.messages c := by
    rw [← d.messages_replayRoute c step, replayMessages, flatMap_singleton]
    rfl
  constructor
  · rw [replayed, flatMap_singleton]
    exact d.length_messages_reloaded c
  · rw [replayed, flatMap_singleton, forall_mem_singleton]
    exact d.messages_reloaded_iff c

theorem reproduces_undelivered (c : Config) {d : Decision}
    (onDelivery : d.recordedOnDelivery = true) : Reproduces c [d] [] := by
  constructor
  · exact Nat.zero_le _
  · rw [flatMap_singleton, forall_mem_singleton]
    cases d with
    | nWayPartition groups => exact (Decision.nWayPartition groups).messages_reloaded_iff c
    | dirtyRestart n => exact iff_of_false (cons_ne_nil _ _).symm id
    | _ => contradiction

theorem Decision.step_entry (c : Config) (step : Nat) (d : Decision) :
    (d.entry c step).step = step := by
  cases d <;> rfl

theorem logs_decisions {c : Config} {s : FaultState} (firecracker : c.backend = .firecracker)
    (recording : s.faultSchedule.replay = false) (env : Environment) (step : Nat)
    (ds : List Decision) :
    ∃ entries, FaultState.Logs s (ds.foldl (fun s d => d.inject c env step s) s)
        (ds.flatMap (·.messages c)) entries ∧
      Reproduces c ds entries ∧ ∀ e ∈ entries, e.step = step := by
  induction ds generalizing s with
  | nil => exact ⟨[], FaultState.Logs.refl s, reproduces_nil c, by simp⟩
  | cons d ds ih =>
    rcases d.logs_inject firecracker recording env step with ⟨here, logs, recorded⟩
    have reproduced : Reproduces c [d] here ∧ ∀ e ∈ here, e.step = step := by
      rcases recorded with rfl | ⟨onDelivery, rfl⟩
      · exact ⟨reproduces_entry c s step d,
          forall_mem_singleton.mpr (d.step_entry c step)⟩
      · exact ⟨reproduces_undelivered c onDelivery, by simp⟩
    rcases ih (logs.recording recording) with ⟨rest, restLogs, restReproduced, restSteps⟩
    refine ⟨here ++ rest, logs.trans restLogs, reproduced.1.append restReproduced, ?_⟩
    exact forall_mem_append.mpr ⟨reproduced.2, restSteps⟩

section

variable {R : Type u}

def decisionsAt (selected : Option (List Kind)) : List (Site R) → R → List Decision
  | [], _ => []
  | site :: sites, rng =>
    if site.enabled selected then
      (site.decide rng).1.toList ++ decisionsAt selected sites (site.decide rng).2
    else decisionsAt selected sites rng

namespace OrchestratorState

theorem foldl_visit (c : Config) (env : Environment) (step : Nat)
    (selected : Option (List Kind)) (sites : List (Site R)) (o : OrchestratorState R) :
    (sites.foldl (visit c env step selected) o).toFaultState =
      (decisionsAt selected sites o.faultRng).foldl (fun s d => d.inject c env step s)
        o.toFaultState := by
  induction sites generalizing o with
  | nil => rfl
  | cons site sites ih =>
    rw [foldl_cons, ih, decisionsAt]
    by_cases enabled : site.enabled selected = true
    · cases decided : (site.decide o.faultRng).1 with
      | none | some d => simp [visit, enabled, decided]
    · simp [visit, enabled]

def decisions (c : Config) (inj : Injectors R) (input : StepInput) (o : OrchestratorState R) :
    List Decision :=
  if (inj.faultNet.isNone && inj.faultNode.isNone) || input.quiet then []
  else decisionsAt (o.selectKinds inj).1 (inj.sites c) (o.selectKinds inj).2.faultRng

def clearing (inj : Injectors R) (input : StepInput) : List AgentFaultMsg :=
  if input.quiet || inj.faultNet.isNone then [] else [agentFault "clear" "" 0]

def cleared (c : Config) (env : Environment) (inj : Injectors R) (input : StepInput)
    (o : OrchestratorState R) : FaultState :=
  clear c env inj
    { o.beginStep.toFaultState with
      currentStepPathHash := input.pathHash
      currentStepVTimeNS := input.timeNS }

variable {c : Config} {o : OrchestratorState R}

theorem injectFaults_eq (recording : o.faultSchedule.replay = false) (env : Environment)
    {inj : Injectors R} {input : StepInput}
    (active : ((inj.faultNet.isNone && inj.faultNode.isNone) || input.quiet) = false) :
    (o.injectFaults c env inj input).toFaultState =
      (o.decisions c inj input).foldl (fun s d => d.inject c env input.step s)
        (o.cleared c env inj input) := by
  rcases Bool.or_eq_false_iff.mp active with ⟨configured, loud⟩
  have recording' : o.beginStep.faultSchedule.replay = false := recording
  simp only [injectFaults, recording', configured, loud, decisions, Bool.false_eq_true,
    Bool.or_self, if_false, foldl_visit]
  cases adaptive : inj.adaptiveFaults with
  | none | some select =>
    simp only [selectKinds, adaptive]
    rfl

theorem logs_cleared (firecracker : c.backend = .firecracker) (o : OrchestratorState R)
    (env : Environment) (inj : Injectors R) (input : StepInput) (loud : input.quiet = false) :
    (o.cleared c env inj input).sent = clearing inj input ∧
      (o.cleared c env inj input).faultSchedule = o.faultSchedule := by
  simp only [cleared, clear, clearing, firecracker, if_true, loud, Bool.false_or]
  cases inj.faultNet with
  | none | some => exact ⟨rfl, rfl⟩

theorem injectFaults_idle (recording : o.faultSchedule.replay = false) (env : Environment)
    {inj : Injectors R} {input : StepInput}
    (idle : ((inj.faultNet.isNone && inj.faultNode.isNone) || input.quiet) = true) :
    o.injectFaults c env inj input = o.beginStep ∧ o.decisions c inj input = [] ∧
      clearing inj input = [] := by
  have recording' : o.beginStep.faultSchedule.replay = false := recording
  refine ⟨?_, if_pos idle, ?_⟩
  · rcases Bool.or_eq_true_iff.mp idle with none | quiet
    · simp only [injectFaults, recording', none, Bool.false_eq_true, if_false, if_true]
    · simp only [injectFaults, recording', quiet, Bool.false_eq_true, if_false, if_true, ite_self]
  · apply if_pos
    rcases Bool.or_eq_true_iff.mp idle with none | quiet
    · rw [(Bool.and_eq_true_iff.mp none).1, Bool.or_true]
    · rw [quiet, Bool.true_or]

theorem logs_injectFaults (firecracker : c.backend = .firecracker)
    (recording : o.faultSchedule.replay = false) (env : Environment) (inj : Injectors R)
    (input : StepInput) :
    ∃ entries, (o.injectFaults c env inj input).sent =
        clearing inj input ++ (o.decisions c inj input).flatMap (·.messages c) ∧
      (o.injectFaults c env inj input).faultSchedule =
        { o.faultSchedule with entries := o.faultSchedule.entries ++ entries } ∧
      Reproduces c (o.decisions c inj input) entries ∧ ∀ e ∈ entries, e.step = input.step := by
  cases active : (inj.faultNet.isNone && inj.faultNode.isNone) || input.quiet with
  | true =>
    rcases @injectFaults_idle R c o recording env inj input active with
      ⟨unchanged, undecided, unsent⟩
    rw [unchanged, undecided, unsent]
    refine ⟨[], rfl, ?_, reproduces_nil c, by simp⟩
    rw [append_nil]
    rfl
  | false =>
    have loud := (Bool.or_eq_false_iff.mp active).2
    rcases logs_cleared firecracker o env inj input loud with ⟨sent, schedule⟩
    have ready : (o.cleared c env inj input).faultSchedule.replay = false := by
      rw [schedule]
      exact recording
    rcases logs_decisions firecracker ready env input.step (o.decisions c inj input) with
      ⟨entries, logs, reproduces, steps⟩
    rw [← injectFaults_eq recording env active] at logs
    refine ⟨entries, ?_, ?_, reproduces, steps⟩
    · rw [logs.sent, sent]
    · rw [logs.recorded, schedule]

def isClear (msg : AgentFaultMsg) : Bool :=
  msg.payload.kind = "clear"

end OrchestratorState

end

theorem Decision.isClear_messages (c : Config) (d : Decision) :
    ∀ msg ∈ d.messages c, isClear msg = false := by
  intro msg member
  cases d with
  | nWayPartition groups =>
    rcases mem_map.mp member with ⟨pair, -, rfl⟩
    rfl
  | drop | delay | throttle | reorder =>
    rcases mem_map.mp member with ⟨port, -, rfl⟩
    rfl
  | partition a b dir =>
    simp only [messages] at member
    split at member
    · rw [mem_singleton.mp member]
      rfl
    · contradiction
  | clockJitter => contradiction
  | _ =>
    rw [mem_singleton.mp member]
    rfl

theorem faultsAt_loaded {old new : List ScheduleEntry} {step : Nat}
    (earlier : ∀ e ∈ old, e.step < step) (now : ∀ e ∈ new, e.step = step) :
    (Schedule.faultsAt { entries := (old ++ new).map (·.reload), replay := true } step).1 =
      new.map (·.reload) := by
  have all : passed step ((old ++ new).map (·.reload)) = (old ++ new).map (·.reload) := by
    apply takeWhile_eq_self_iff.mpr
    intro e member
    rcases mem_map.mp member with ⟨original, recorded, rfl⟩
    apply decide_eq_true
    rcases mem_append.mp recorded with before | here
    · exact Nat.le_of_lt (earlier original before)
    · exact Nat.le_of_eq (now original here)
  have none : atStep step (old.map (·.reload)) = [] :=
    atStep_eq_nil (forall_step_map_reload (p := (· ≠ step)) fun e member =>
      Nat.ne_of_lt (earlier e member))
  have these : atStep step (new.map (·.reload)) = new.map (·.reload) :=
    atStep_eq_self (forall_step_map_reload (p := (· = step)) now)
  simp only [Schedule.faultsAt, if_true, drop_zero, dueFrom_eq, all]
  rw [map_append, atStep_append, none, these, nil_append]

theorem sent_injectFaults_replay {R : Type u} {c : Config}
    (firecracker : c.backend = .firecracker) {o : OrchestratorState R}
    (replaying : o.faultSchedule.replay = true) (env : Environment) (inj : Injectors R)
    (input : StepInput) {entries : List ScheduleEntry}
    (due : (o.faultSchedule.faultsAt input.step).1 = entries.map (·.reload)) :
    (o.injectFaults c env inj input).sent = replayMessages c entries := by
  have replaying' : o.beginStep.faultSchedule.replay = true := replaying
  have due' : (o.beginStep.faultSchedule.faultsAt input.step).1 = entries.map (·.reload) := due
  simp only [injectFaults, replaying', if_true, due', sent_foldl_replayFault firecracker]
  exact nil_append _

theorem dropWhile_isClear {R : Type u} (c : Config) (inj : Injectors R) (input : StepInput)
    (ds : List Decision) :
    (clearing inj input ++ ds.flatMap (·.messages c)).dropWhile
        isClear = ds.flatMap (·.messages c) := by
  have rest : (ds.flatMap (·.messages c)).dropWhile isClear =
      ds.flatMap (·.messages c) := by
    apply dropWhile_eq_self_iff.mpr
    intro nonempty
    rcases mem_flatMap.mp (List.getElem_mem nonempty) with ⟨d, -, member⟩
    rw [d.isClear_messages c _ member]
    exact Bool.false_ne_true
  unfold clearing
  split
  · exact rest
  · exact rest

/-- Replay sends the agent the messages of the live step, the leading clear message aside, exactly
when every fault that was decided on is replayable. Neither what else is in the schedule for earlier
steps nor what the agent and the hypervisor accept matters. -/
theorem replay_sends_same_iff {R : Type u} {c : Config} (firecracker : c.backend = .firecracker)
    (env replayEnv : Environment) (inj replayInj : Injectors R) (input : StepInput)
    {o : OrchestratorState R} (recording : o.faultSchedule.replay = false)
    (earlier : ∀ e ∈ o.faultSchedule.entries, e.step < input.step) (fresh : OrchestratorState R) :
    ∃ loaded, newReplaySchedule (o.injectFaults c env inj input).faultSchedule.save = .ok loaded ∧
      (({ fresh with faultSchedule := loaded }.injectFaults c replayEnv replayInj input).sent =
        (o.injectFaults c env inj input).sent.dropWhile isClear ↔
        ∀ d ∈ o.decisions c inj input, d.Replayable c) := by
  rcases logs_injectFaults firecracker recording env inj input with
    ⟨entries, sent, recorded, reproduces, steps⟩
  refine ⟨_, newReplaySchedule_save _, ?_⟩
  have due := faultsAt_loaded earlier steps
  have stored : (o.injectFaults c env inj input).faultSchedule.entries =
      o.faultSchedule.entries ++ entries := by rw [recorded]
  rw [← stored] at due
  rw [sent_injectFaults_replay firecracker rfl replayEnv replayInj input due, sent,
    dropWhile_isClear]
  exact reproduces.same_iff

def noNodeFaults : NodeInjector Unit where
  shouldHang _ rng := (none, rng)
  shouldTerminate _ rng := (false, rng)
  shouldDirtyRestart _ rng := (false, rng)
  shouldPause _ rng := (none, rng)
  shouldCPUThrottle _ rng := (none, rng)
  shouldCPUModulate _ rng := (none, rng)
  shouldDiskSlow _ rng := (none, rng)
  shouldDiskCorrupt _ rng := (false, rng)
  shouldMemPressure _ rng := (none, rng)
  shouldScript rng := (none, rng)
  shouldDiskFlakey _ rng := (none, rng)
  shouldDiskFull _ rng := (false, rng)
  clockJitter rng := (0, rng)

def oneNode : Config where
  nodes := [{ name := "db" }]
  backend := .firecracker

def accepting : Environment where
  agent _ := true
  hypervisor _ := true

/-- A hang of five nanoseconds is replayed as a hang of zero: an `int64` is loaded as a
floating-point number. -/
theorem replay_loses_hang_duration :
    let inj : Injectors Unit :=
      { faultNode := some { noNodeFaults with shouldHang := fun _ rng => (some 5, rng) } }
    let live := injectFaults oneNode accepting inj { step := 3 }
      { faultRng := () }
    live.sent = [agentHangNode "db" 5] ∧
      ∃ loaded, newReplaySchedule live.faultSchedule.save = .ok loaded ∧
        (injectFaults oneNode accepting inj { step := 3 }
          { faultRng := (), faultSchedule := loaded }).sent = [agentHangNode "db" 0] ∧
        [agentHangNode "db" 0] ≠ live.sent := by
  intro inj live
  exact ⟨by decide, _, newReplaySchedule_save _, by decide, by decide⟩

theorem replay_sends_termination :
    let inj : Injectors Unit :=
      { faultNode := some { noNodeFaults with shouldTerminate := fun _ rng => (true, rng) } }
    let live := injectFaults oneNode accepting inj { step := 3 }
      { faultRng := () }
    ∃ loaded, newReplaySchedule live.faultSchedule.save = .ok loaded ∧
      (injectFaults oneNode accepting inj { step := 3 }
        { faultRng := (), faultSchedule := loaded }).sent =
          live.sent.dropWhile isClear := by
  intro inj live
  rcases @replay_sends_same_iff Unit oneNode rfl accepting accepting inj inj { step := 3 }
    { faultRng := () } rfl (by decide) { faultRng := () } with ⟨loaded, loads, same⟩
  refine ⟨loaded, loads, same.mpr ?_⟩
  intro d decided
  have terminated : d = .terminate "db" := List.mem_singleton.mp decided
  rw [terminated]
  trivial

end OpenThesis.Orchestrator
