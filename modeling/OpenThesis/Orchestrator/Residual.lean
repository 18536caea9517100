import Mathlib.Algebra.Order.Group.Multiset
import OpenThesis.Orchestrator.Fidelity
import OpenThesis.SnapshotTree.Core

/-!
# Faults that snapshots keep

A snapshot keeps the faults in force. Live injection lifts them first, unless it is a quiet period
(`injectFaults` in `internal/orchestrator/faults.go`); replay does not.
-/

namespace OpenThesis.Orchestrator

open Fault SnapshotTree OrchestratorState List

universe u v

def arrived (env : Environment) (earlier : List AgentFaultMsg) :
    List AgentFaultMsg → List AgentFaultMsg
  | [] => []
  | msg :: msgs =>
    if env.agent (earlier ++ [msg]) then msg :: arrived env (earlier ++ [msg]) msgs
    else arrived env (earlier ++ [msg]) msgs

def receive (faults : Multiset AgentFault) (msg : AgentFaultMsg) : Multiset AgentFault :=
  if isClear msg then 0 else msg.payload ::ₘ faults

/-- A burst: the snapshot it restores, the one it takes, and what the step gets from outside. -/
structure RestoredBurst where
  restored : ID
  taken : Option ID := none
  input : StepInput

structure GuestRun (R : Type u) where
  orchestrator : OrchestratorState R
  snapshots : ID → Multiset AgentFault := fun _ => 0

namespace GuestRun

section

variable {R : Type u} (c : Config) (env : Environment) (inj : Injectors R)

def sent (g : GuestRun R) (b : RestoredBurst) : List AgentFaultMsg :=
  (g.orchestrator.injectFaults c env inj b.input).sent

def inForce (g : GuestRun R) (b : RestoredBurst) : Multiset AgentFault :=
  (arrived env [] (g.sent c env inj b)).foldl receive (g.snapshots b.restored)

/-- A burst, and the faults in force in the snapshot it takes. -/
def step (g : GuestRun R) (b : RestoredBurst) : GuestRun R where
  orchestrator := g.orchestrator.injectFaults c env inj b.input
  snapshots :=
    match b.taken with
    | none => g.snapshots
    | some id => Function.update g.snapshots id (g.inForce c env inj b)

def inForceEach : GuestRun R → List RestoredBurst → List (Multiset AgentFault)
  | _, [] => []
  | g, b :: bursts => g.inForce c env inj b :: (g.step c env inj b).inForceEach bursts

/-- No fault message of the burst is lost, and if faults are lifted, the restored snapshot has none.
-/
def Clean (g : GuestRun R) (b : RestoredBurst) : Prop :=
  (arrived env [] (g.sent c env inj b)).filter (!isClear ·) =
      (g.sent c env inj b).filter (!isClear ·) ∧
    ((∃ msg ∈ arrived env [] (g.sent c env inj b), isClear msg = true) →
      g.snapshots b.restored = 0)

def CleanEach : GuestRun R → List RestoredBurst → Prop
  | _, [] => True
  | g, b :: bursts => g.Clean c env inj b ∧ (g.step c env inj b).CleanEach bursts

end

/-- The bursts of a replay send the same fault messages as the recorded ones. -/
def SameFaults {R : Type u} {S : Type v} (c : Config) (env : Environment) (inj : Injectors R)
    (replayInj : Injectors S) : GuestRun R → GuestRun S → List RestoredBurst → Prop
  | _, _, [] => True
  | g, r, b :: bursts =>
    (r.sent c accepting replayInj b).filter (!isClear ·) =
        (g.sent c env inj b).filter (!isClear ·) ∧
      SameFaults c env inj replayInj (g.step c env inj b) (r.step c accepting replayInj b) bursts

end GuestRun

theorem arrived_sublist (env : Environment) (earlier msgs : List AgentFaultMsg) :
    (arrived env earlier msgs).Sublist msgs := by
  induction msgs generalizing earlier with
  | nil => exact Sublist.refl _
  | cons msg msgs ih =>
    rw [arrived]
    split_ifs
    · exact (ih _).cons_cons msg
    · exact (ih _).cons msg

theorem arrived_accepting (earlier msgs : List AgentFaultMsg) :
    arrived accepting earlier msgs = msgs := by
  induction msgs generalizing earlier with
  | nil => rfl
  | cons msg msgs ih => rw [arrived, if_pos (show accepting.agent _ = true from rfl), ih]

theorem foldl_receive {msgs : List AgentFaultMsg}
    (faults : ∀ msg ∈ msgs, isClear msg = false) (before : Multiset AgentFault) :
    msgs.foldl receive before = before + (msgs.map (·.payload) : List AgentFault) := by
  induction msgs generalizing before with
  | nil => exact (add_zero before).symm
  | cons msg msgs ih =>
    obtain ⟨fault, faults⟩ := forall_mem_cons.mp faults
    rw [foldl_cons, ih faults, receive, fault, if_neg Bool.false_ne_true, map_cons,
      ← Multiset.cons_coe, Multiset.cons_add, Multiset.add_cons]

theorem filter_faults {msgs : List AgentFaultMsg}
    (faults : ∀ msg ∈ msgs, isClear msg = false) :
    msgs.filter (!isClear ·) = msgs := by
  apply filter_eq_self.mpr
  intro msg mem
  rw [faults msg mem]
  rfl

theorem isClear_replayRoute (c : Config) (e : ScheduleEntry) :
    ∀ msg ∈ (replayRoute c e).messages, isClear msg = false := by
  have port : ∀ build : String → AgentFaultMsg,
      (∀ port, isClear (build port) = false) →
      ∀ msg ∈ (portRoute c e build).messages, isClear msg = false := by
    intro build fault msg mem
    obtain ⟨port, -, rfl⟩ := mem_map.mp mem
    exact fault port
  intro msg mem
  unfold replayRoute at mem
  cases kind : e.faultKind with
  | drop | delay | throttle | reorder =>
    rw [kind] at mem
    exact port _ (fun _ => rfl) msg mem
  | partition =>
    rw [kind] at mem
    dsimp only at mem
    split_ifs at mem
    · cases mem
    · rw [mem_singleton.mp mem]
      rfl
  | nWayPartition =>
    rw [kind] at mem
    obtain ⟨pair, -, rfl⟩ := mem_map.mp mem
    rfl
  | clockJitter | clear =>
    rw [kind] at mem
    cases mem
  | _ =>
    rw [kind] at mem
    rw [mem_singleton.mp mem]
    rfl

/-- What holds throughout a step of a replay: no message lifts faults. -/
structure FaultState.Replaying (s : FaultState) : Prop where
  replay : s.faultSchedule.replay = true
  faults : ∀ msg ∈ s.sent, isClear msg = false

section

variable {R : Type u} {c : Config} {env : Environment} {s : FaultState}

theorem FaultState.Replaying.sendUntilError (replaying : s.Replaying) {msgs : List AgentFaultMsg}
    (faults : ∀ msg ∈ msgs, isClear msg = false) :
    (s.sendUntilError env msgs).2.Replaying := by
  induction msgs generalizing s with
  | nil => exact replaying
  | cons msg msgs ih =>
    obtain ⟨fault, faults⟩ := forall_mem_cons.mp faults
    have next : FaultState.Replaying { s with sent := s.sent ++ [msg] } :=
      ⟨replaying.replay, forall_mem_append.mpr
        ⟨replaying.faults, forall_mem_singleton.mpr fault⟩⟩
    simp only [FaultState.sendUntilError, FaultState.send]
    cases env.agent (s.sent ++ [msg]) with
    | true => exact ih next faults
    | false => exact next

theorem FaultState.Replaying.replayFault (replaying : s.Replaying)
    (firecracker : c.backend = .firecracker) (e : ScheduleEntry) :
    (replayFault c env s e).Replaying := by
  have faults := isClear_replayRoute c e
  have delivered : (replayAgentFault c env e s).2.Replaying := by
    rw [replayAgentFault]
    cases route : replayRoute c e with
    | agent msgs =>
      rw [route] at faults
      exact replaying.sendUntilError faults
    | hypervisor => exact ⟨replaying.replay, replaying.faults⟩
  rw [Orchestrator.replayFault, if_pos firecracker]
  generalize replayAgentFault c env e s = result at delivered
  rcases result with ⟨accepted, after⟩
  cases accepted with
  | true => exact ⟨delivered.replay, delivered.faults⟩
  | false => exact delivered

theorem replaying_injectFaults (firecracker : c.backend = .firecracker) {o : OrchestratorState R}
    (replay : o.faultSchedule.replay = true) (inj : Injectors R) (input : StepInput) :
    (o.injectFaults c env inj input).Replaying := by
  have replay' : o.beginStep.faultSchedule.replay = true := replay
  rw [injectFaults, if_pos replay']
  refine foldlRecOn _ (replayFault c env) (motive := FaultState.Replaying) ?_ ?_
  · refine ⟨?_, fun msg mem => by cases mem⟩
    simp only [Schedule.faultsAt, replay', if_true]
  · intro s replaying e _
    exact replaying.replayFault firecracker e

end

theorem sent_injectFaults {R : Type u} {c : Config} (firecracker : c.backend = .firecracker)
    {o : OrchestratorState R} (recording : o.faultSchedule.replay = false) (env : Environment)
    (inj : Injectors R) (input : StepInput) :
    (o.injectFaults c env inj input).faultSchedule.replay = false ∧
      ∃ faults, (o.injectFaults c env inj input).sent =
          clearing inj input ++ faults ∧
        ∀ msg ∈ faults, isClear msg = false := by
  obtain ⟨entries, sent, recorded, -, -⟩ :=
    logs_injectFaults firecracker recording env inj input
  refine ⟨by rw [recorded, recording], _, sent, ?_⟩
  intro msg mem
  obtain ⟨d, -, mem⟩ := mem_flatMap.mp mem
  exact d.isClear_messages c msg mem

section

variable {before : Multiset AgentFault} {some all : List AgentFaultMsg}

theorem add_payloads_eq_iff (sublist : some.Sublist all) :
    before + (all.map (·.payload) : List AgentFault) =
      before + (some.map (·.payload) : List AgentFault) ↔ some = all := by
  constructor
  · intro same
    have card := congrArg Multiset.card (add_left_cancel same)
    rw [Multiset.coe_card, Multiset.coe_card, length_map, length_map] at card
    exact sublist.eq_of_length card.symm
  · rintro rfl
    rfl

theorem payloads_eq_iff (sublist : some.Sublist all) :
    before + (all.map (·.payload) : List AgentFault) = (some.map (·.payload) : List AgentFault) ↔
      some = all ∧ before = 0 := by
  constructor
  · intro same
    have card := congrArg Multiset.card same
    rw [Multiset.card_add, Multiset.coe_card, Multiset.coe_card, length_map, length_map] at card
    have le := sublist.length_le
    exact ⟨sublist.eq_of_length (by omega), Multiset.card_eq_zero.mp (by omega)⟩
  · rintro ⟨rfl, rfl⟩
    exact zero_add _

end

namespace GuestRun

section

variable {R : Type u} {S : Type v} {c : Config} {env : Environment} {inj : Injectors R}
  {replayInj : Injectors S} {g : GuestRun R} {r : GuestRun S} {b : RestoredBurst}

theorem inForce_replay (firecracker : c.backend = .firecracker)
    (replaying : r.orchestrator.faultSchedule.replay = true) : r.inForce c accepting replayInj b =
      r.snapshots b.restored +
        ((r.sent c accepting replayInj b).map (·.payload) : List AgentFault) := by
  rw [inForce, arrived_accepting]
  exact foldl_receive (replaying_injectFaults firecracker replaying replayInj b.input).faults _

omit R S c env inj replayInj g r b in
theorem kept_iff (before : Multiset AgentFault) {some all : List AgentFaultMsg}
    (sublist : some.Sublist all) (faults : ∀ msg ∈ all, isClear msg = false) :
    before + (all.map (·.payload) : List AgentFault) = some.foldl receive before ↔
      some.filter (!isClear ·) = all.filter (!isClear ·) ∧
        ((∃ msg ∈ some, isClear msg = true) → before = 0) := by
  have faults' : ∀ msg ∈ some, isClear msg = false :=
    fun msg mem => faults msg (sublist.subset mem)
  rw [foldl_receive faults', add_payloads_eq_iff sublist, filter_faults faults',
    filter_faults faults]
  refine (and_iff_left ?_).symm
  rintro ⟨msg, mem, lifts⟩
  rw [faults' msg mem] at lifts
  cases lifts

theorem inForce_eq_iff (firecracker : c.backend = .firecracker)
    (recording : g.orchestrator.faultSchedule.replay = false)
    (replaying : r.orchestrator.faultSchedule.replay = true) (snapshots : r.snapshots = g.snapshots)
    (same : (r.sent c accepting replayInj b).filter (!isClear ·) =
      (g.sent c env inj b).filter (!isClear ·)) :
    r.inForce c accepting replayInj b = g.inForce c env inj b ↔ g.Clean c env inj b := by
  obtain ⟨-, faults, sent, areFaults⟩ := sent_injectFaults firecracker recording env inj b.input
  change g.sent c env inj b = _ at sent
  have replayed : (r.sent c accepting replayInj b).filter (!isClear ·) =
      r.sent c accepting replayInj b :=
    filter_faults (replaying_injectFaults firecracker replaying replayInj b.input).faults
  rw [inForce_replay firecracker replaying, ← replayed, same, snapshots, inForce, Clean, sent,
    clearing]
  split_ifs
  · rw [nil_append, filter_faults areFaults]
    have kept := kept_iff (g.snapshots b.restored) (arrived_sublist env [] faults) areFaults
    rwa [filter_faults areFaults] at kept
  · have sublist := arrived_sublist env [agentFault "clear" "" 0] faults
    rw [singleton_append, filter_cons_of_neg (by decide), filter_faults areFaults, arrived,
      nil_append]
    split_ifs
    · -- the agent has lifted what was in force
      have lifted : receive (g.snapshots b.restored) (agentFault "clear" "" 0) = 0 :=
        if_pos (by decide)
      have arrivedFaults : ∀ msg ∈ arrived env [agentFault "clear" "" 0] faults,
          isClear msg = false :=
        fun msg mem => areFaults msg (sublist.subset mem)
      rw [foldl_cons, filter_cons_of_neg (by decide), lifted,
        foldl_receive arrivedFaults, zero_add, payloads_eq_iff sublist,
        filter_faults arrivedFaults]
      refine and_congr_right fun _ => ⟨fun zero _ => zero, fun lifts => ?_⟩
      exact lifts ⟨_, mem_cons_self, by decide⟩
    · have kept := kept_iff (g.snapshots b.restored) sublist areFaults
      rwa [filter_faults areFaults] at kept

/-- A run on Firecracker is replayed without errors, with the same fault messages in each burst, and
restores the corresponding snapshots. The faults in force are the recorded ones exactly if the
recording has lost no fault message, and has lifted no faults that came back with a snapshot. -/
theorem replayed_under_same_faults_iff (firecracker : c.backend = .firecracker)
    (recording : g.orchestrator.faultSchedule.replay = false)
    (replaying : r.orchestrator.faultSchedule.replay = true)
    (snapshots : r.snapshots = g.snapshots) {bursts : List RestoredBurst}
    (same : SameFaults c env inj replayInj g r bursts) :
    r.inForceEach c accepting replayInj bursts = g.inForceEach c env inj bursts ↔
      g.CleanEach c env inj bursts := by
  induction bursts generalizing g r with
  | nil => exact iff_of_true rfl trivial
  | cons b bursts ih =>
    have here := inForce_eq_iff firecracker recording replaying snapshots same.1
    have recording' := (sent_injectFaults firecracker recording env inj b.input).1
    have replaying' : (r.step c accepting replayInj b).orchestrator.faultSchedule.replay = true :=
      (replaying_injectFaults firecracker replaying replayInj b.input).replay
    have later (agrees : r.inForce c accepting replayInj b = g.inForce c env inj b) :
        (r.step c accepting replayInj b).snapshots = (g.step c env inj b).snapshots := by
      rw [step, step, agrees, snapshots]
    rw [inForceEach, inForceEach, cons.injEq, CleanEach, ← here]
    exact and_congr_right fun agrees => ih recording' replaying' (later agrees) same.2

end

def dropsFirst : NetworkInjector Nat where
  shouldNWayPartition _ rng := (none, rng)
  shouldDrop _ _ rng := (rng = 0, rng + 1)
  delay _ _ rng := (0, rng)
  shouldPartition _ _ rng := (none, rng)
  shouldThrottle _ _ rng := (none, rng)
  shouldReorder _ _ rng := (none, rng)

def twoNodes : Config where
  nodes := [{ name := "a", readyProbe := ":1" }, { name := "b", readyProbe := ":2" }]
  backend := .firecracker

def twoBursts (restored : ID) : List RestoredBurst :=
  [{ restored := 0, taken := some 1, input := { step := 1 } },
   { restored, input := { step := 2 } }]

def dropsRecorded : GuestRun Nat where
  orchestrator := { faultRng := 0 }

/-- The second burst was recorded without faults, and is replayed with the fault of the first. -/
theorem replayed_under_residual_fault :
    let inj : Injectors Nat := { faultNet := some dropsFirst }
    let recorded := (twoBursts 1).foldl (step twoNodes accepting inj) dropsRecorded
    let block := (agentFault "block_port" "2" 0).payload
    ∃ loaded, newReplaySchedule recorded.orchestrator.faultSchedule.save = .ok loaded ∧
      let replay : GuestRun Nat := { orchestrator := { faultRng := 0, faultSchedule := loaded } }
      SameFaults twoNodes accepting inj inj dropsRecorded replay (twoBursts 1) ∧
        dropsRecorded.inForceEach twoNodes accepting inj (twoBursts 1) = [{block}, 0] ∧
        replay.inForceEach twoNodes accepting inj (twoBursts 1) = [{block}, {block}] := by
  intro inj recorded block
  refine ⟨_, newReplaySchedule_save _, ?_, by decide +kernel, by decide +kernel⟩
  exact ⟨by decide +kernel, by decide +kernel, trivial⟩

theorem replayed_from_first_snapshot :
    let inj : Injectors Nat := { faultNet := some dropsFirst }
    let recorded := (twoBursts 0).foldl (step twoNodes accepting inj) dropsRecorded
    ∃ loaded, newReplaySchedule recorded.orchestrator.faultSchedule.save = .ok loaded ∧
      inForceEach twoNodes accepting inj
          { orchestrator := ({ faultRng := 0, faultSchedule := loaded } : OrchestratorState Nat) }
          (twoBursts 0) =
        dropsRecorded.inForceEach twoNodes accepting inj (twoBursts 0) := by
  intro inj recorded
  refine ⟨_, newReplaySchedule_save _, ?_⟩
  refine (replayed_under_same_faults_iff ?_ ?_ ?_ ?_ ?_).mpr ?_
  · rfl
  · rfl
  · rfl
  · rfl
  · exact ⟨by decide +kernel, by decide +kernel, trivial⟩
  · refine ⟨⟨by decide +kernel, fun _ => rfl⟩, ⟨by decide +kernel, fun _ => ?_⟩, trivial⟩
    decide +kernel

end GuestRun

end OpenThesis.Orchestrator
