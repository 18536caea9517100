import Mathlib.Data.List.Nodup
import Mathlib.Data.String.Basic
import OpenThesis.Run.Core

/-!
# Reports of crashed nodes

An agent reports a daemon that exits unexpectedly: the Go agent waits for each process of the
startup, the Rust agent for any child. The crashes and the pid beside a report are not in the
program.
-/

namespace OpenThesis.Guest

open List

structure NodeConfig where
  name : String
  daemon : Bool
  deriving DecidableEq, Repr

structure NodeProc where
  pid : Int
  name : String
  daemon : Bool
  deriving DecidableEq, Repr

inductive ExitStatus where
  | exited (code : Nat)
  | signaled (signal : Nat)
  deriving DecidableEq, Repr

def sigkill : Nat := 9

def sigterm : Nat := 15

def ExitStatus.unexpected : ExitStatus → Bool
  | exited code => code != 0 && code != 137 && code != 143
  | signaled signal => signal != sigkill && signal != sigterm

structure Zombie where
  proc : NodeProc
  status : ExitStatus
  deriving DecidableEq, Repr

def Zombie.crash (zombie : Zombie) : Bool :=
  zombie.proc.daemon && zombie.status.unexpected

/-- The processes of the guest. -/
structure Kernel where
  running : List NodeProc
  zombies : List Zombie
  nextPid : Int
  crashes : List NodeProc

namespace Kernel

def exit (k : Kernel) (pid : Int) (status : ExitStatus) : Kernel :=
  match k.running.find? (·.pid == pid) with
  | none => k
  | some proc =>
    { k with
      running := k.running.filter (·.pid != pid)
      zombies := k.zombies ++ [{ proc, status }]
      crashes := k.crashes ++ if proc.daemon && status.unexpected then [proc] else [] }

def kill (k : Kernel) (pid : Int) : Kernel :=
  k.exit pid (.signaled sigkill)

def fork (k : Kernel) (node : NodeConfig) : NodeProc :=
  { pid := k.nextPid, name := node.name, daemon := node.daemon }

def spawn (k : Kernel) (node : NodeConfig) : Kernel :=
  { k with running := k.running ++ [k.fork node], nextPid := k.nextPid + 1 }

end Kernel

def firstPid : Int := 2

def startOrder (config : List NodeConfig) : List NodeConfig :=
  config.filter (·.daemon) ++ config.filter (!·.daemon)

def startProcs (config : List NodeConfig) : List NodeProc :=
  (startOrder config).zipIdx.map fun node =>
    { pid := firstPid + node.2, name := node.1.name, daemon := node.1.daemon }

def Kernel.start (config : List NodeConfig) : Kernel where
  running := startProcs config
  zombies := []
  nextPid := firstPid + (startOrder config).length
  crashes := []

structure PlatformAssertion where
  hit : Bool
  condition : Bool
  message : String
  deriving DecidableEq, Repr

def crashMessage (name : String) : String :=
  "process " ++ name ++ " never crashes"

def crashAssertion (name : String) : PlatformAssertion :=
  { hit := true, condition := false, message := crashMessage name }

def declared (config : List NodeConfig) : List PlatformAssertion :=
  (config.filter (·.daemon)).map fun node =>
    { hit := false, condition := false, message := crashMessage node.name }

def report (proc : NodeProc) : Int × PlatformAssertion :=
  (proc.pid, crashAssertion proc.name)

/-- There is one report for each crash and no other, and its message was declared. -/
structure Reported (config : List NodeConfig) (emitted : List (Int × PlatformAssertion))
    (crashes : List NodeProc) : Prop where
  each : emitted.Perm (crashes.map report)
  known (proc : NodeProc) : proc ∈ crashes →
    crashMessage proc.name ∈ (declared config).map (·.message)

inductive NodeAction where
  | terminate (name : String)
  | dirtyRestart (name : String)
  | exit (pid : Int) (status : ExitStatus)
  | reap
  deriving DecidableEq, Repr

/-- The Go agent. -/
structure GoNodes where
  kernel : Kernel
  /-- The processes that `reapLoop` was given. -/
  watched : List NodeProc
  nodeProcsRef : List NodeProc
  emitted : List (Int × PlatformAssertion)

namespace GoNodes

def start (config : List NodeConfig) : GoNodes where
  kernel := Kernel.start config
  watched := startProcs config
  nodeProcsRef := startProcs config
  emitted := []

def lookupNodePID (s : GoNodes) (name : String) : Int :=
  ((s.nodeProcsRef.find? (·.name == name)).map (·.pid)).getD 0

def handleTerminateNode (s : GoNodes) (name : String) : GoNodes :=
  if name = "" ∨ s.lookupNodePID name ≤ 0 then s
  else { s with kernel := s.kernel.kill (s.lookupNodePID name) }

def register (procs : List NodeProc) (proc : NodeProc) : List NodeProc :=
  match procs.findIdx? (·.name == proc.name) with
  | some position => procs.modify position fun old => { old with pid := proc.pid }
  | none => procs ++ [proc]

def handleDirtyRestartNode (config : List NodeConfig) (s : GoNodes) (name : String) : GoNodes :=
  if name = "" then s
  else
    match config.find? (·.name == name) with
    | none => s
    | some node =>
      let pid := s.lookupNodePID name
      let kernel := if 0 < pid then s.kernel.kill pid else s.kernel
      { s with
        kernel := kernel.spawn node
        nodeProcsRef := register s.nodeProcsRef (kernel.fork node) }

def detectAndEmitCrash (np : NodeProc) (status : ExitStatus) : Option (Int × PlatformAssertion) :=
  if np.daemon && status.unexpected then some (np.pid, crashAssertion np.name) else none

def reap (s : GoNodes) : GoNodes :=
  { s with
    kernel := { s.kernel with
      zombies := s.kernel.zombies.filter fun zombie =>
        !s.watched.any (·.pid == zombie.proc.pid) }
    emitted := s.emitted ++ s.kernel.zombies.filterMap fun zombie =>
      (s.watched.find? (·.pid == zombie.proc.pid)).bind fun np =>
        detectAndEmitCrash np zombie.status }

/-- A request, the exit of a process, or the reaper. -/
def step (config : List NodeConfig) (s : GoNodes) : NodeAction → GoNodes
  | .terminate name => s.handleTerminateNode name
  | .dirtyRestart name => handleDirtyRestartNode config s name
  | .exit pid status => { s with kernel := s.kernel.exit pid status }
  | .reap => s.reap

def run (config : List NodeConfig) (actions : List NodeAction) : GoNodes :=
  actions.foldl (step config) (start config)

end GoNodes

/-- The Rust agent. -/
structure RustNodes where
  kernel : Kernel
  /-- A node that was terminated has the pid -1. -/
  nodes : List NodeProc
  emitted : List (Int × PlatformAssertion)

namespace RustNodes

def start (config : List NodeConfig) : RustNodes where
  kernel := Kernel.start config
  nodes := startProcs config
  emitted := []

def lookupPid (nodes : List NodeProc) (name : String) : Option Int :=
  (nodes.find? fun node => node.name == name && decide (0 < node.pid)).map (·.pid)

def markDead (name : String) : List NodeProc → List NodeProc
  | [] => []
  | node :: nodes =>
    if node.name == name then { node with pid := -1 } :: nodes
    else node :: markDead name nodes

def terminateNode (s : RustNodes) (name : String) : RustNodes :=
  match lookupPid s.nodes name with
  | none => s
  | some pid =>
    { s with
      kernel := s.kernel.kill pid
      nodes := markDead name s.nodes }

def killAndWait (s : RustNodes) (name : String) : RustNodes :=
  match lookupPid s.nodes name with
  | none => s
  | some pid =>
    { s with
      kernel := { s.kernel.kill pid with
        zombies := (s.kernel.kill pid).zombies.filter (·.proc.pid != pid) }
      nodes := s.nodes.filter fun node => node.name != name || node.pid != pid }

def dirtyRestartNode (config : List NodeConfig) (s : RustNodes) (name : String) : RustNodes :=
  let s := s.killAndWait name
  match config.find? (·.name == name) with
  | none => s
  | some node =>
    { s with
      kernel := s.kernel.spawn node
      nodes := s.nodes ++ [s.kernel.fork node] }

def reapChildren : List Zombie → List NodeProc → List NodeProc × List Int
  | [], nodes => (nodes, [])
  | zombie :: rest, nodes =>
    let (left, crashed) := reapChildren rest (nodes.filter (·.pid != zombie.proc.pid))
    match nodes.find? (·.pid == zombie.proc.pid) with
    | none => (left, crashed)
    | some node =>
      if node.daemon && zombie.status.unexpected then (left, zombie.proc.pid :: crashed)
      else (left, crashed)

def pidName (pid : Int) : String :=
  "pid-" ++ toString pid

def reap (s : RustNodes) : RustNodes :=
  let (nodes, crashed) := reapChildren s.kernel.zombies s.nodes
  { s with
    kernel := { s.kernel with zombies := [] }
    nodes
    emitted := s.emitted ++ crashed.map fun pid => (pid, crashAssertion (pidName pid)) }

def step (config : List NodeConfig) (s : RustNodes) : NodeAction → RustNodes
  | .terminate name => s.terminateNode name
  | .dirtyRestart name => dirtyRestartNode config s name
  | .exit pid status => { s with kernel := s.kernel.exit pid status }
  | .reap => s.reap

def run (config : List NodeConfig) (actions : List NodeAction) : RustNodes :=
  actions.foldl (step config) (start config)

end RustNodes

namespace Kernel

def procs (k : Kernel) : List NodeProc :=
  k.running ++ k.zombies.map (·.proc)

def pending (k : Kernel) : List NodeProc :=
  (k.zombies.filter (·.crash)).map (·.proc)

/-- Pids are positive, old and given once, and nodes are those of the configuration. -/
structure Sound (config : List NodeConfig) (k : Kernel) : Prop where
  next : 0 < k.nextPid
  positive : ∀ proc ∈ k.procs, 0 < proc.pid
  old : ∀ proc ∈ k.procs, proc.pid < k.nextPid
  distinct : (k.procs.map (·.pid)).Nodup
  configured : ∀ proc ∈ k.running, { name := proc.name, daemon := proc.daemon } ∈ config
  crashed : ∀ proc ∈ k.crashes, proc.daemon = true ∧
    { name := proc.name, daemon := proc.daemon } ∈ config

section

variable (k : Kernel) (pid : Int) (status : ExitStatus)

theorem exit_cases :
    (k.exit pid status = k ∧ ∀ proc ∈ k.running, proc.pid ≠ pid) ∨
      ∃ proc ∈ k.running, proc.pid = pid ∧
        k.exit pid status =
          { k with
            running := k.running.filter (·.pid != pid)
            zombies := k.zombies ++ [{ proc, status }]
            crashes := k.crashes ++ if proc.daemon && status.unexpected then [proc] else [] } := by
  unfold exit
  split
  case h_1 none =>
    left
    refine ⟨rfl, fun proc inside samePid => ?_⟩
    have other := find?_eq_none.mp none proc inside
    exact other (beq_iff_eq.mpr samePid)
  case h_2 proc found =>
    right
    have samePid : proc.pid = pid := by simpa using find?_some found
    exact ⟨proc, mem_of_find?_eq_some found, samePid, rfl⟩

theorem nextPid_exit : (k.exit pid status).nextPid = k.nextPid := by
  rcases k.exit_cases pid status with ⟨same, _⟩ | ⟨proc, _, _, exits⟩
  · rw [same]
  · rw [exits]

theorem pending_exit :
    ∃ added, (k.exit pid status).pending = k.pending ++ added ∧
      (k.exit pid status).crashes = k.crashes ++ added ∧
      ∀ proc ∈ added, proc ∈ k.running ∧ proc.pid = pid ∧ proc.daemon = true ∧
        status.unexpected = true := by
  rcases k.exit_cases pid status with ⟨same, _⟩ | ⟨proc, isRunning, samePid, exits⟩
  · rw [same]
    exact ⟨[], (append_nil _).symm, (append_nil _).symm, nofun⟩
  · rw [exits, pending, pending, filter_append, map_append]
    refine ⟨_, ?_, rfl, ?_⟩
    · rw [filter_singleton]
      cases crash : proc.daemon && status.unexpected with
      | true | false => simp [Zombie.crash, crash]
    · intro other isAdded
      split at isAdded
      case isTrue crash =>
        rw [mem_singleton.mp isAdded]
        exact ⟨isRunning, samePid, Bool.and_eq_true_iff.mp crash⟩
      case isFalse => cases isAdded

theorem pending_kill : (k.kill pid).pending = k.pending ∧ (k.kill pid).crashes = k.crashes := by
  obtain ⟨added, morePending, moreCrashes, areCrashes⟩ :=
    k.pending_exit pid (.signaled sigkill)
  obtain rfl : added = [] :=
    eq_nil_iff_forall_not_mem.mpr fun proc isAdded =>
      absurd (areCrashes proc isAdded).2.2.2 (by decide)
  rw [append_nil] at morePending moreCrashes
  exact ⟨morePending, moreCrashes⟩

theorem running_exit_subset :
    ∀ proc ∈ (k.exit pid status).running, proc ∈ k.running ∧ proc.pid ≠ pid := by
  rcases k.exit_cases pid status with ⟨same, others⟩ | ⟨_, _, _, exits⟩
  · rw [same]
    exact fun proc inside => ⟨inside, others proc inside⟩
  · rw [exits]
    intro proc inside
    obtain ⟨isRunning, other⟩ := mem_filter.mp inside
    exact ⟨isRunning, bne_iff_ne.mp other⟩

end

theorem perm_filter_concat {procs : List NodeProc} (distinct : (procs.map (·.pid)).Nodup)
    {proc : NodeProc} (inside : proc ∈ procs) :
    procs.Perm (procs.filter (·.pid != proc.pid) ++ [proc]) := by
  induction procs with
  | nil => cases inside
  | cons first rest ih =>
    rw [map_cons, nodup_cons] at distinct
    rcases mem_cons.mp inside with rfl | later
    · have others : rest.filter (·.pid != proc.pid) = rest := by
        refine filter_eq_self.mpr fun other isOther => bne_iff_ne.mpr fun samePid => ?_
        exact distinct.1 (samePid ▸ mem_map_of_mem isOther)
      rw [filter_cons_of_neg (by simp), others]
      exact (perm_append_singleton proc rest).symm
    · have apart : first.pid ≠ proc.pid := fun samePid =>
        distinct.1 (samePid ▸ mem_map_of_mem later)
      have kept : (first :: rest).filter (·.pid != proc.pid) =
          first :: rest.filter (·.pid != proc.pid) :=
        filter_cons_of_pos (bne_iff_ne.mpr apart)
      rw [kept, cons_append]
      exact (ih distinct.2 later).cons first

theorem procs_spawn (k : Kernel) (node : NodeConfig) :
    (k.spawn node).procs.Perm (k.fork node :: k.procs) := by
  rw [procs, Kernel.spawn, append_assoc]
  exact perm_middle

variable {config : List NodeConfig} {k : Kernel}

theorem Sound.exit_procs (sound : k.Sound config) (pid : Int) (status : ExitStatus) :
    (k.exit pid status).procs.Perm k.procs := by
  rcases k.exit_cases pid status with ⟨same, _⟩ | ⟨proc, isRunning, rfl, exits⟩
  · rw [same]
  · rw [exits, procs, procs, map_append, ← append_assoc]
    have runningDistinct : (k.running.map (·.pid)).Nodup := by
      have distinct := sound.distinct
      rw [procs, map_append] at distinct
      exact distinct.of_append_left
    have moved := (perm_filter_concat runningDistinct isRunning).symm.append_right
      (k.zombies.map (·.proc))
    refine Perm.trans ?_ moved
    rw [append_assoc, append_assoc]
    exact perm_append_comm.append_left _

theorem Sound.exit (sound : k.Sound config) (pid : Int) (status : ExitStatus) :
    (k.exit pid status).Sound config := by
  have sameProcs := sound.exit_procs pid status
  have samePid := k.nextPid_exit pid status
  constructor
  case next =>
    rw [samePid]
    exact sound.next
  case positive => exact fun proc inside => sound.positive proc (sameProcs.subset inside)
  case old =>
    rw [samePid]
    exact fun proc inside => sound.old proc (sameProcs.subset inside)
  case distinct => exact (sameProcs.map _).nodup_iff.mpr sound.distinct
  case configured =>
    exact fun proc inside => sound.configured proc (k.running_exit_subset pid status proc inside).1
  case crashed =>
    obtain ⟨added, _, moreCrashes, areCrashes⟩ := k.pending_exit pid status
    rw [moreCrashes]
    intro proc inside
    rcases mem_append.mp inside with earlier | now
    · exact sound.crashed proc earlier
    · obtain ⟨isRunning, _, daemon, _⟩ := areCrashes proc now
      exact ⟨daemon, sound.configured proc isRunning⟩

theorem Sound.spawn (sound : k.Sound config) {node : NodeConfig} (isNode : node ∈ config) :
    (k.spawn node).Sound config := by
  have moreProcs := k.procs_spawn node
  constructor
  case next => exact sound.next.trans (Int.lt_succ _)
  case positive =>
    intro proc inside
    rcases mem_cons.mp (moreProcs.subset inside) with rfl | earlier
    · exact sound.next
    · exact sound.positive proc earlier
  case old =>
    intro proc inside
    rcases mem_cons.mp (moreProcs.subset inside) with rfl | earlier
    · exact Int.lt_succ _
    · exact (sound.old proc earlier).trans (Int.lt_succ _)
  case distinct =>
    rw [(moreProcs.map (·.pid)).nodup_iff, map_cons, nodup_cons]
    refine ⟨fun taken => ?_, sound.distinct⟩
    obtain ⟨proc, inside, samePid⟩ := mem_map.mp taken
    exact (sound.old proc inside).ne samePid
  case configured =>
    intro proc inside
    rcases mem_append.mp inside with earlier | now
    · exact sound.configured proc earlier
    · rw [mem_singleton.mp now]
      exact isNode
  case crashed => exact sound.crashed

def Accounted (k : Kernel) (emitted : List (Int × PlatformAssertion)) : Prop :=
  (k.crashes.map report).Perm (emitted ++ k.pending.map report)

theorem Accounted.exit {emitted : List (Int × PlatformAssertion)} (accounted : k.Accounted emitted)
    (pid : Int) (status : ExitStatus) : (k.exit pid status).Accounted emitted := by
  obtain ⟨added, morePending, moreCrashes, _⟩ := k.pending_exit pid status
  rw [Accounted, morePending, moreCrashes, map_append, map_append, ← append_assoc]
  exact accounted.append_right _

theorem mem_procs_of_mem_pending {proc : NodeProc} (isPending : proc ∈ k.pending) :
    proc ∈ k.procs := by
  obtain ⟨zombie, inside, rfl⟩ := mem_map.mp isPending
  exact mem_append_right _ (mem_map_of_mem (mem_filter.mp inside).1)

theorem Accounted.reported {emitted : List (Int × PlatformAssertion)}
    (accounted : k.Accounted emitted) (sound : k.Sound config) (nothing : k.pending = []) :
    Reported config emitted k.crashes where
  each := by
    rw [Accounted, nothing, map_nil, append_nil] at accounted
    exact accounted.symm
  known proc isCrash := by
    obtain ⟨daemon, isNode⟩ := sound.crashed proc isCrash
    rw [declared, map_map, mem_map]
    exact ⟨_, mem_filter.mpr ⟨isNode, daemon⟩, rfl⟩

/-- A list of the agent names no process wrongly, and no process of the future. -/
structure Knows (k : Kernel) (entries : List NodeProc) : Prop where
  same : ∀ entry ∈ entries, ∀ proc ∈ k.procs, entry.pid = proc.pid → entry = proc
  old : ∀ entry ∈ entries, entry.pid < k.nextPid

variable {entries : List NodeProc}

section

variable (knows : k.Knows entries)

include knows

theorem Knows.of_subset {next : Kernel}
    (fewer : ∀ proc ∈ next.procs, proc ∈ k.procs) (samePid : next.nextPid = k.nextPid) :
    next.Knows entries where
  same entry isEntry proc inside := knows.same entry isEntry proc (fewer proc inside)
  old := by
    rw [samePid]
    exact knows.old

theorem Knows.of_entries {fewer : List NodeProc}
    (subset : ∀ entry ∈ fewer, entry ∈ entries) : k.Knows fewer where
  same entry isEntry := knows.same entry (subset entry isEntry)
  old entry isEntry := knows.old entry (subset entry isEntry)

theorem Knows.exit (sound : k.Sound config) (pid : Int)
    (status : ExitStatus) : (k.exit pid status).Knows entries :=
  knows.of_subset (fun _ inside => (sound.exit_procs pid status).subset inside)
    (k.nextPid_exit pid status)

theorem Knows.spawn (node : NodeConfig) : (k.spawn node).Knows entries where
  same entry isEntry proc inside samePid := by
    rcases mem_cons.mp ((k.procs_spawn node).subset inside) with rfl | earlier
    · exact absurd samePid (knows.old entry isEntry).ne
    · exact knows.same entry isEntry proc earlier samePid
  old entry isEntry := (knows.old entry isEntry).trans (Int.lt_succ _)

theorem Knows.fork (sound : k.Sound config) (node : NodeConfig) :
    (k.spawn node).Knows (entries ++ [k.fork node]) where
  same entry isEntry proc inside samePid := by
    rcases mem_append.mp isEntry with earlier | now
    · exact (knows.spawn node).same entry earlier proc inside samePid
    · rw [mem_singleton.mp now] at samePid ⊢
      rcases mem_cons.mp ((k.procs_spawn node).subset inside) with rfl | earlier
      · rfl
      · exact absurd samePid.symm (sound.old proc earlier).ne
  old entry isEntry := by
    rcases mem_append.mp isEntry with earlier | now
    · exact (knows.spawn node).old entry earlier
    · rw [mem_singleton.mp now]
      exact Int.lt_succ _

end

section

variable {zombies : List Zombie}

theorem procs_sublist (fewer : zombies.Sublist k.zombies) :
    ({ k with zombies } : Kernel).procs.Sublist k.procs :=
  (fewer.map _).append_left _

theorem Sound.wait (sound : k.Sound config) (fewer : zombies.Sublist k.zombies) :
    ({ k with zombies } : Kernel).Sound config where
  next := sound.next
  positive proc inside := sound.positive proc ((procs_sublist fewer).subset inside)
  old proc inside := sound.old proc ((procs_sublist fewer).subset inside)
  distinct := sound.distinct.sublist ((procs_sublist fewer).map _)
  configured := sound.configured
  crashed := sound.crashed

theorem Knows.wait {entries : List NodeProc} (knows : k.Knows entries)
    (fewer : zombies.Sublist k.zombies) : ({ k with zombies } : Kernel).Knows entries :=
  knows.of_subset (fun _ inside => (procs_sublist fewer).subset inside) rfl

theorem pending_wait {pid : Int} (apart : ∀ proc ∈ k.pending, proc.pid ≠ pid) :
    ({ k with zombies := k.zombies.filter (·.proc.pid != pid) } : Kernel).pending = k.pending := by
  rw [pending, filter_filter, pending]
  refine congrArg _ (filter_congr fun zombie inside => ?_)
  cases crash : zombie.crash with
  | false => rfl
  | true =>
    rw [Bool.true_and]
    exact bne_iff_ne.mpr (apart _ (mem_map_of_mem (mem_filter.mpr ⟨inside, crash⟩)))

end

theorem mem_startProcs {proc : NodeProc} :
    proc ∈ startProcs config ↔ ∃ (position : Nat) (node : NodeConfig),
      (startOrder config)[position]? = some node ∧
      proc = { pid := firstPid + position, name := node.name, daemon := node.daemon } := by
  rw [startProcs, mem_map]
  constructor
  · rintro ⟨⟨node, position⟩, inside, rfl⟩
    exact ⟨position, node, mem_zipIdx_iff_getElem?.mp inside, rfl⟩
  · rintro ⟨position, node, inside, rfl⟩
    exact ⟨(node, position), mem_zipIdx_iff_getElem?.mpr inside, rfl⟩

theorem eq_of_mem_startProcs {first second : NodeProc} (firstIn : first ∈ startProcs config)
    (secondIn : second ∈ startProcs config) (samePid : first.pid = second.pid) :
    first = second := by
  obtain ⟨position, node, found, rfl⟩ := mem_startProcs.mp firstIn
  obtain ⟨other, otherNode, otherFound, rfl⟩ := mem_startProcs.mp secondIn
  obtain rfl : position = other := by
    have equal : firstPid + (position : Int) = firstPid + other := samePid
    omega
  cases found.symm.trans otherFound
  rfl

theorem sound_start (config : List NodeConfig) : (start config).Sound config := by
  have procs_start : (start config).procs = startProcs config := append_nil _
  constructor
  case next => exact Int.add_pos_of_pos_of_nonneg (by decide) (Int.natCast_nonneg _)
  case positive =>
    rw [procs_start]
    intro proc inside
    obtain ⟨position, node, _, rfl⟩ := mem_startProcs.mp inside
    exact Int.add_pos_of_pos_of_nonneg (by decide) (Int.natCast_nonneg _)
  case old =>
    rw [procs_start]
    intro proc inside
    obtain ⟨position, node, found, rfl⟩ := mem_startProcs.mp inside
    obtain ⟨bound, _⟩ := List.getElem?_eq_some_iff.mp found
    exact Int.add_lt_add_left (Int.ofNat_lt.mpr bound) firstPid
  case distinct =>
    have pids : (startProcs config).map (·.pid) =
        (range' 0 (startOrder config).length).map
          fun position : Nat => firstPid + (position : Int) := by
      rw [startProcs, map_map, ← zipIdx_map_snd 0, map_map]
      rfl
    rw [procs_start, pids]
    refine List.Nodup.map (fun first second equal => ?_) (nodup_range' 1)
    have equal : firstPid + (first : Int) = firstPid + second := equal
    omega
  case configured =>
    intro proc inside
    obtain ⟨position, node, found, rfl⟩ := mem_startProcs.mp inside
    rcases mem_append.mp (mem_of_getElem? found) with daemon | other
    · exact (mem_filter.mp daemon).1
    · exact (mem_filter.mp other).1
  case crashed =>
    intro proc inside
    cases inside

theorem knows_start (config : List NodeConfig) : (start config).Knows (startProcs config) where
  same entry isEntry proc inside samePid := by
    have started : proc ∈ startProcs config := by
      rw [procs, start, map_nil, append_nil] at inside
      exact inside
    exact eq_of_mem_startProcs isEntry started samePid
  old entry isEntry := (sound_start config).old entry (mem_append_left _ isEntry)

theorem Knows.entry_of_find (knows : k.Knows entries) {proc entry : NodeProc}
    (inside : proc ∈ k.procs) (found : entries.find? (·.pid == proc.pid) = some entry) :
    entry = proc := by
  have samePid : entry.pid = proc.pid := by simpa using find?_some found
  exact knows.same entry (mem_of_find?_eq_some found) proc inside samePid

/-- What an agent with a list of processes keeps: its reports and the crashes that wait are all
there are, and a crash that waits is of a process in the list. -/
structure Tracks (config : List NodeConfig) (k : Kernel)
    (emitted : List (Int × PlatformAssertion)) (entries : List NodeProc) : Prop where
  sound : k.Sound config
  accounted : k.Accounted emitted
  knows : k.Knows entries
  covered : ∀ proc ∈ k.pending, proc ∈ entries

theorem tracks_start (config : List NodeConfig) :
    Tracks config (start config) [] (startProcs config) where
  sound := sound_start config
  accounted := .nil
  knows := knows_start config
  covered := nofun

variable {emitted : List (Int × PlatformAssertion)} (tracks : k.Tracks config emitted entries)

include tracks

theorem Tracks.exit {pid : Int} {status : ExitStatus}
    (watches : status.unexpected = true → ∀ proc ∈ k.running, proc.pid = pid →
      proc.daemon = true → proc ∈ entries) :
    (k.exit pid status).Tracks config emitted entries where
  sound := tracks.sound.exit pid status
  accounted := tracks.accounted.exit pid status
  knows := tracks.knows.exit tracks.sound pid status
  covered proc isPending := by
    obtain ⟨added, morePending, _, areCrashes⟩ := k.pending_exit pid status
    rw [morePending] at isPending
    rcases mem_append.mp isPending with earlier | now
    · exact tracks.covered proc earlier
    · obtain ⟨isRunning, samePid, daemon, unexpected⟩ := areCrashes proc now
      exact watches unexpected proc isRunning samePid daemon

theorem Tracks.kill (pid : Int) : (k.kill pid).Tracks config emitted entries :=
  tracks.exit fun unexpected => absurd unexpected (by decide)

theorem Tracks.mem_of_crash {zombie : Zombie} (inside : zombie ∈ k.zombies)
    (crash : zombie.crash = true) : zombie.proc ∈ entries :=
  tracks.covered _ (mem_map_of_mem (mem_filter.mpr ⟨inside, crash⟩))

end Kernel

namespace GoNodes

def Inv (config : List NodeConfig) (s : GoNodes) : Prop :=
  s.kernel.Tracks config s.emitted s.watched

def Watches (s : GoNodes) (action : NodeAction) : Prop :=
  ∀ pid status, action = .exit pid status → status.unexpected = true →
    ∀ proc ∈ s.kernel.running, proc.pid = pid → proc.daemon = true → proc ∈ s.watched

variable {config : List NodeConfig} {s : GoNodes}

section

variable (inv : s.Inv config)

include inv

theorem Inv.spawn {node : NodeConfig} (isNode : node ∈ config) (registry : List NodeProc) :
    Inv config { s with kernel := s.kernel.spawn node, nodeProcsRef := registry } where
  sound := inv.sound.spawn isNode
  accounted := inv.accounted
  knows := inv.knows.spawn node
  covered := inv.covered

theorem Inv.dirtyRestart (name : String) : (handleDirtyRestartNode config s name).Inv config := by
  unfold handleDirtyRestartNode
  split
  · exact inv
  · split
    case h_1 => exact inv
    case h_2 node found =>
      have isNode := mem_of_find?_eq_some found
      dsimp only
      split
      · exact Inv.spawn (s := { s with kernel := s.kernel.kill (s.lookupNodePID name) })
          (inv.kill _) isNode _
      · exact inv.spawn isNode _

theorem Inv.emissions : (s.kernel.zombies.filterMap fun zombie =>
        (s.watched.find? (·.pid == zombie.proc.pid)).bind fun np =>
          detectAndEmitCrash np zombie.status) = s.kernel.pending.map report := by
  rw [Kernel.pending, map_map, ← filterMap_eq_map, filterMap_filter]
  refine filterMap_congr fun zombie inside => ?_
  have isProc : zombie.proc ∈ s.kernel.procs :=
    mem_append_right _ (mem_map_of_mem inside)
  cases crash : zombie.crash with
  | true =>
    have isWatched := inv.mem_of_crash inside crash
    obtain ⟨entry, found⟩ : ∃ entry,
        s.watched.find? (·.pid == zombie.proc.pid) = some entry :=
      Option.isSome_iff_exists.mp
        (find?_isSome.mpr ⟨zombie.proc, isWatched, beq_self_eq_true _⟩)
    have unexpected : (zombie.proc.daemon && zombie.status.unexpected) = true := crash
    rw [found, inv.knows.entry_of_find isProc found, Option.bind_some, detectAndEmitCrash,
      if_pos unexpected, if_pos rfl]
    rfl
  | false =>
    rw [if_neg Bool.false_ne_true]
    cases found : s.watched.find? (·.pid == zombie.proc.pid) with
    | none => rfl
    | some entry =>
      have expected : ¬ (zombie.proc.daemon && zombie.status.unexpected) = true :=
        Bool.eq_false_iff.mp crash
      rw [inv.knows.entry_of_find isProc found, Option.bind_some, detectAndEmitCrash,
        if_neg expected]

theorem Inv.pending_reap : s.reap.kernel.pending = [] := by
  rw [Kernel.pending, map_eq_nil_iff, filter_eq_nil_iff]
  intro zombie left crash
  obtain ⟨inside, notWatched⟩ := mem_filter.mp left
  have isWatched := inv.mem_of_crash inside crash
  have found : s.watched.any (·.pid == zombie.proc.pid) = true :=
    any_eq_true.mpr ⟨zombie.proc, isWatched, beq_self_eq_true _⟩
  rw [found] at notWatched
  cases notWatched

theorem Inv.reap : s.reap.Inv config where
  sound := inv.sound.wait filter_sublist
  accounted := by
    rw [Kernel.Accounted, inv.pending_reap, map_nil, append_nil, GoNodes.reap, inv.emissions]
    exact inv.accounted
  knows := inv.knows.wait filter_sublist
  covered := by
    rw [inv.pending_reap]
    nofun

theorem Inv.step {action : NodeAction} (watches : s.Watches action) :
    (step config s action).Inv config := by
  cases action with
  | terminate name =>
    rw [GoNodes.step, handleTerminateNode]
    split
    · exact inv
    · exact inv.kill _
  | dirtyRestart name => exact inv.dirtyRestart name
  | exit pid status => exact inv.exit (watches pid status rfl)
  | reap => exact inv.reap

end

theorem reported_of_watches {actions : List NodeAction}
    (watches : ∀ before action, before ++ [action] <+: actions →
      (run config before).Watches action) :
    Reported config (run config (actions ++ [.reap])).emitted
      (run config (actions ++ [.reap])).kernel.crashes := by
  have inv : (run config actions).Inv config :=
    Run.foldl_of_conditions (motive := Inv config) (Kernel.tracks_start config)
      (fun _ _ inv now => inv.step now) watches
  rw [run, foldl_concat]
  exact inv.reap.accounted.reported inv.reap.sound inv.pending_reap

end GoNodes

namespace RustNodes

/-- Every process and every crash that waits has its entry, where the message made from the pid is
right. -/
structure Inv (config : List NodeConfig) (s : RustNodes) : Prop
    extends s.kernel.Tracks config s.emitted s.nodes where
  listed : ∀ proc ∈ s.kernel.running, proc ∈ s.nodes
  named : ∀ proc ∈ s.kernel.pending, proc.name = pidName proc.pid

/-- A daemon that crashes has the name made from its pid, and no fault hits a node while a crash of
it waits. -/
def Watches (s : RustNodes) : NodeAction → Prop
  | .exit pid status => status.unexpected = true →
      ∀ proc ∈ s.kernel.running, proc.pid = pid → proc.daemon = true → proc.name = pidName pid
  | .terminate name | .dirtyRestart name => ∀ proc ∈ s.kernel.pending, proc.name ≠ name
  | .reap => True

variable {config : List NodeConfig} {s : RustNodes}

theorem inv_start (config : List NodeConfig) : (start config).Inv config where
  toTracks := Kernel.tracks_start config
  listed _ isRunning := isRunning
  named := nofun

theorem Inv.exit (inv : s.Inv config) {pid : Int} {status : ExitStatus}
    (watches : s.Watches (.exit pid status)) :
    Inv config { s with kernel := s.kernel.exit pid status } where
  toTracks := inv.toTracks.exit fun _ proc isRunning _ _ => inv.listed proc isRunning
  listed proc isRunning :=
    inv.listed proc (s.kernel.running_exit_subset pid status proc isRunning).1
  named proc isPending := by
    obtain ⟨added, morePending, _, areCrashes⟩ := s.kernel.pending_exit pid status
    rw [morePending] at isPending
    rcases mem_append.mp isPending with earlier | now
    · exact inv.named proc earlier
    · obtain ⟨isRunning, samePid, daemon, unexpected⟩ := areCrashes proc now
      rw [samePid]
      exact watches unexpected proc isRunning samePid daemon

theorem Inv.kill (inv : s.Inv config) (pid : Int) :
    Inv config { s with kernel := s.kernel.kill pid } :=
  inv.exit fun unexpected => absurd unexpected (by decide)

variable {nodes : List NodeProc} {name : String}

theorem lookupPid_eq_some {pid : Int} (found : lookupPid nodes name = some pid) :
    ∃ entry ∈ nodes, entry.name = name ∧ entry.pid = pid ∧ 0 < pid := by
  obtain ⟨entry, isFound, rfl⟩ := Option.map_eq_some_iff.mp found
  have matched := find?_some isFound
  rw [Bool.and_eq_true, beq_iff_eq, decide_eq_true_iff] at matched
  exact ⟨entry, mem_of_find?_eq_some isFound, matched.1, rfl, matched.2⟩

theorem mem_markDead {pid : Int} {proc : NodeProc} (found : lookupPid nodes name = some pid)
    (inside : proc ∈ nodes) (positive : 0 < proc.pid) (kept : proc.name ≠ name ∨ proc.pid ≠ pid) :
    proc ∈ markDead name nodes := by
  induction nodes with
  | nil => cases inside
  | cons node nodes ih =>
    rw [markDead]
    by_cases named : node.name = name
    · rw [if_pos (beq_iff_eq.mpr named)]
      rcases mem_cons.mp inside with rfl | later
      · -- the first entry of the name has a pid, so it is the one looked up
        have first : lookupPid (proc :: nodes) name = some proc.pid := by
          simp [lookupPid, named, positive]
        cases found.symm.trans first
        exact absurd rfl (kept.resolve_left fun other => other named)
      · exact mem_cons_of_mem _ later
    · rw [if_neg (mt beq_iff_eq.mp named)]
      rcases mem_cons.mp inside with rfl | later
      · exact mem_cons_self
      · have rest : lookupPid nodes name = some pid := by
          rw [lookupPid, find?_cons_of_neg (by simp [named])] at found
          exact found
        exact mem_cons_of_mem _ (ih rest later)

theorem mem_of_mem_markDead {entry : NodeProc} (inside : entry ∈ markDead name nodes) :
    entry ∈ nodes ∨ entry.pid = -1 := by
  induction nodes with
  | nil => cases inside
  | cons node nodes ih =>
    rw [markDead] at inside
    split at inside
    · rcases mem_cons.mp inside with rfl | later
      · exact .inr rfl
      · exact .inl (mem_cons_of_mem _ later)
    · rcases mem_cons.mp inside with rfl | later
      · exact .inl mem_cons_self
      · exact (ih later).imp_left (mem_cons_of_mem _)

theorem knows_markDead {k : Kernel} (knows : k.Knows nodes) (sound : k.Sound config)
    (name : String) : k.Knows (markDead name nodes) where
  same entry isEntry proc inside samePid := by
    rcases mem_of_mem_markDead isEntry with earlier | marked
    · exact knows.same entry earlier proc inside samePid
    · have positive := sound.positive proc inside
      omega
  old entry isEntry := by
    rcases mem_of_mem_markDead isEntry with earlier | marked
    · exact knows.old entry earlier
    · rw [marked]
      exact (by decide : (-1 : Int) < 0).trans sound.next

theorem Inv.terminate (inv : s.Inv config) (watches : ∀ proc ∈ s.kernel.pending, proc.name ≠ name) :
    (s.terminateNode name).Inv config := by
  unfold terminateNode
  split
  case h_1 => exact inv
  case h_2 pid found =>
    have killed := inv.kill pid
    refine { killed with
      knows := knows_markDead killed.knows killed.sound name
      covered := fun proc isPending => ?_
      listed := fun proc isRunning => ?_ }
    · rw [(s.kernel.pending_kill pid).1] at isPending
      exact mem_markDead found (inv.covered proc isPending)
        (inv.sound.positive proc (Kernel.mem_procs_of_mem_pending isPending))
        (.inl (watches proc isPending))
    · obtain ⟨wasRunning, other⟩ := s.kernel.running_exit_subset pid _ proc isRunning
      exact mem_markDead found (inv.listed proc wasRunning)
        (inv.sound.positive proc (mem_append_left _ wasRunning)) (.inr other)

theorem Inv.killAndWait (inv : s.Inv config)
    (watches : ∀ proc ∈ s.kernel.pending, proc.name ≠ name) : (s.killAndWait name).Inv config := by
  unfold RustNodes.killAndWait
  split
  case h_1 => exact inv
  case h_2 pid found =>
    have killed := inv.kill pid
    obtain ⟨entry, isEntry, entryName, entryPid, _⟩ := lookupPid_eq_some found
    -- the process is not a crash that waits, since its node has no such crash
    have apart : ∀ proc ∈ (s.kernel.kill pid).pending, proc.pid ≠ pid := by
      intro proc isPending samePid
      have inside := Kernel.mem_procs_of_mem_pending isPending
      have isProc := killed.knows.same entry isEntry proc inside (entryPid.trans samePid.symm)
      rw [(s.kernel.pending_kill pid).1] at isPending
      exact watches proc isPending (isProc ▸ entryName)
    have samePending := Kernel.pending_wait apart
    have kept {proc : NodeProc} (inside : proc ∈ s.nodes) (other : proc.pid ≠ pid) :
        proc ∈ s.nodes.filter fun node => node.name != name || node.pid != pid :=
      mem_filter.mpr ⟨inside, Bool.or_eq_true_iff.mpr (.inr (bne_iff_ne.mpr other))⟩
    refine ⟨⟨killed.sound.wait filter_sublist, ?_, ?_, ?_⟩, fun proc isRunning => ?_, ?_⟩
    · rw [Kernel.Accounted, samePending]
      exact killed.accounted
    · exact (killed.knows.wait filter_sublist).of_entries fun entry isEntry =>
        (mem_filter.mp isEntry).1
    · rw [samePending]
      exact fun proc isPending => kept (killed.covered proc isPending) (apart proc isPending)
    · obtain ⟨wasRunning, other⟩ := s.kernel.running_exit_subset pid _ proc isRunning
      exact kept (inv.listed proc wasRunning) other
    · rw [samePending]
      exact killed.named

theorem Inv.spawn (inv : s.Inv config) {node : NodeConfig} (isNode : node ∈ config) :
    Inv config { s with
      kernel := s.kernel.spawn node
      nodes := s.nodes ++ [s.kernel.fork node] } where
  sound := inv.sound.spawn isNode
  accounted := inv.accounted
  knows := inv.knows.fork inv.sound node
  listed proc isRunning := by
    rcases mem_append.mp isRunning with earlier | now
    · exact mem_append_left _ (inv.listed proc earlier)
    · exact mem_append_right _ now
  covered proc isPending := mem_append_left _ (inv.covered proc isPending)
  named := inv.named

theorem Inv.dirtyRestart (inv : s.Inv config)
    (watches : ∀ proc ∈ s.kernel.pending, proc.name ≠ name) :
    (dirtyRestartNode config s name).Inv config := by
  have waited := inv.killAndWait watches
  unfold dirtyRestartNode
  dsimp only
  split
  case h_1 => exact waited
  case h_2 node found => exact waited.spawn (mem_of_find?_eq_some found)

theorem reapChildren_fst (zombies : List Zombie) (nodes : List NodeProc) :
    (reapChildren zombies nodes).1 =
      nodes.filter fun node => zombies.all (·.proc.pid != node.pid) := by
  induction zombies generalizing nodes with
  | nil => exact (filter_true nodes).symm
  | cons zombie rest ih =>
    have left : (reapChildren (zombie :: rest) nodes).1 =
        (reapChildren rest (nodes.filter (·.pid != zombie.proc.pid))).1 := by
      rw [reapChildren]
      cases nodes.find? (·.pid == zombie.proc.pid) with
      | none => rfl
      | some node =>
        dsimp only
        split
        · rfl
        · rfl
    rw [left, ih, filter_filter]
    refine filter_congr fun node _ => ?_
    rw [all_cons, Bool.and_comm, bne_comm]

theorem reapChildren_snd {zombies : List Zombie} (distinct : (zombies.map (·.proc.pid)).Nodup)
    (same : ∀ entry ∈ nodes, ∀ zombie ∈ zombies, entry.pid = zombie.proc.pid → entry = zombie.proc)
    (covered : ∀ zombie ∈ zombies, zombie.crash = true → zombie.proc ∈ nodes) :
    (reapChildren zombies nodes).2 = (zombies.filter (·.crash)).map (·.proc.pid) := by
  induction zombies generalizing nodes with
  | nil => rfl
  | cons zombie rest ih =>
    rw [map_cons, nodup_cons] at distinct
    have later : (reapChildren rest (nodes.filter (·.pid != zombie.proc.pid))).2 =
        (rest.filter (·.crash)).map (·.proc.pid) := by
      refine ih distinct.2 (fun entry isEntry other isOther => ?_) fun other isOther crash => ?_
      · exact same entry (mem_filter.mp isEntry).1 other (mem_cons_of_mem _ isOther)
      · have apart : other.proc.pid ≠ zombie.proc.pid := fun samePid =>
          distinct.1 (samePid ▸ mem_map_of_mem isOther)
        exact mem_filter.mpr ⟨covered other (mem_cons_of_mem _ isOther) crash, bne_iff_ne.mpr apart⟩
    rw [reapChildren]
    cases found : nodes.find? (·.pid == zombie.proc.pid) with
    | none =>
      have expected : zombie.crash ≠ true := fun crash =>
        find?_eq_none.mp found zombie.proc (covered zombie mem_cons_self crash)
          (beq_self_eq_true _)
      rw [filter_cons_of_neg expected]
      exact later
    | some node =>
      have samePid : node.pid = zombie.proc.pid := by simpa using find?_some found
      have isProc : node = zombie.proc :=
        same node (mem_of_find?_eq_some found) zombie mem_cons_self samePid
      subst isProc
      dsimp only
      split
      case isTrue crash =>
        have isCrash : zombie.crash = true := crash
        rw [filter_cons_of_pos isCrash, map_cons, later]
      case isFalse expected =>
        have noCrash : ¬ zombie.crash = true := expected
        rw [filter_cons_of_neg noCrash]
        exact later

theorem Inv.emissions (inv : s.Inv config) :
    ((reapChildren s.kernel.zombies s.nodes).2.map fun pid => (pid, crashAssertion (pidName pid))) =
      s.kernel.pending.map report := by
  have distinct : (s.kernel.zombies.map (·.proc.pid)).Nodup := by
    have zombies := inv.sound.distinct
    rw [Kernel.procs, map_append, map_map] at zombies
    exact zombies.of_append_right
  have crashed : (reapChildren s.kernel.zombies s.nodes).2 = s.kernel.pending.map (·.pid) := by
    rw [reapChildren_snd distinct, Kernel.pending, map_map]
    · rfl
    · exact fun entry isEntry zombie inside => inv.knows.same entry isEntry zombie.proc
        (mem_append_right _ (mem_map_of_mem inside))
    · exact fun zombie inside => inv.mem_of_crash inside
  rw [crashed, map_map]
  refine map_congr_left fun proc isPending => ?_
  rw [report, inv.named proc isPending]
  rfl

theorem Inv.mem_reapChildren (inv : s.Inv config) {proc : NodeProc}
    (isRunning : proc ∈ s.kernel.running) : proc ∈ (reapChildren s.kernel.zombies s.nodes).1 := by
  have distinct := inv.sound.distinct
  rw [Kernel.procs, map_append, nodup_append] at distinct
  rw [reapChildren_fst]
  refine mem_filter.mpr ⟨inv.listed proc isRunning, all_eq_true.mpr ?_⟩
  intro zombie inside
  have other := distinct.2.2 proc.pid (mem_map_of_mem isRunning) zombie.proc.pid
    (mem_map_of_mem (mem_map_of_mem inside))
  exact bne_iff_ne.mpr other.symm

theorem Inv.reap (inv : s.Inv config) : s.reap.Inv config where
  sound := inv.sound.wait (nil_sublist _)
  accounted := by
    change (s.kernel.crashes.map report).Perm (s.emitted ++
      (reapChildren s.kernel.zombies s.nodes).2.map
        (fun pid => (pid, crashAssertion (pidName pid))) ++ [])
    rw [inv.emissions, append_nil]
    exact inv.accounted
  knows := by
    refine (inv.knows.wait (nil_sublist _)).of_entries fun entry isEntry => ?_
    change entry ∈ (reapChildren s.kernel.zombies s.nodes).1 at isEntry
    rw [reapChildren_fst] at isEntry
    exact (mem_filter.mp isEntry).1
  listed _ isRunning := inv.mem_reapChildren isRunning
  covered := nofun
  named := nofun

theorem Inv.step (inv : s.Inv config) {action : NodeAction} (watches : s.Watches action) :
    (step config s action).Inv config := by
  cases action with
  | terminate name => exact inv.terminate watches
  | dirtyRestart name => exact inv.dirtyRestart watches
  | exit pid status => exact inv.exit watches
  | reap => exact inv.reap

theorem reported_of_watches {actions : List NodeAction}
    (watches : ∀ before action, before ++ [action] <+: actions →
      (run config before).Watches action) :
    Reported config (run config (actions ++ [.reap])).emitted
      (run config (actions ++ [.reap])).kernel.crashes := by
  have inv := (Run.foldl_of_conditions (motive := Inv config) (inv_start config)
    (fun _ _ inv now => inv.step now) watches).reap
  rw [run, foldl_concat]
  exact inv.accounted.reported inv.sound rfl

end RustNodes

/-- Once an agent has waited, it has reported every crash under the declared message: the Go agent
if no daemon crashes that a dirty restart has started, the Rust agent if the name of every daemon
that crashes is made from its pid and no fault hits a node while a crash of it waits. -/
theorem crashes_reported_if_watched (config : List NodeConfig) (actions : List NodeAction) :
    ((∀ before action, before ++ [action] <+: actions →
        (GoNodes.run config before).Watches action) →
      Reported config (GoNodes.run config (actions ++ [.reap])).emitted
        (GoNodes.run config (actions ++ [.reap])).kernel.crashes) ∧
    ((∀ before action, before ++ [action] <+: actions →
        (RustNodes.run config before).Watches action) →
      Reported config (RustNodes.run config (actions ++ [.reap])).emitted
        (RustNodes.run config (actions ++ [.reap])).kernel.crashes) :=
  ⟨GoNodes.reported_of_watches, RustNodes.reported_of_watches⟩

theorem crashes_reported_if_watched_first_process :
    let config : List NodeConfig := [{ name := "pid-2", daemon := true }]
    let actions : List NodeAction := [.exit 2 (.exited 2), .reap]
    Reported config (GoNodes.run config actions).emitted
        (GoNodes.run config actions).kernel.crashes ∧
      Reported config (RustNodes.run config actions).emitted
        (RustNodes.run config actions).kernel.crashes := by
  intro config actions
  have reported := crashes_reported_if_watched config [.exit 2 (.exited 2)]
  constructor
  · refine reported.1 fun before action isPre => ?_
    rcases before with _ | ⟨first, rest⟩
    · exact fun _ _ _ _ _ isRunning _ _ => isRunning
    · simp at isPre
  · refine reported.2 fun before action isPre => ?_
    rcases before with _ | ⟨first, rest⟩
    · obtain rfl : action = .exit 2 (.exited 2) := by simpa using isPre
      intro _ proc isRunning _ _
      cases mem_singleton.mp isRunning
      rfl
    · simp at isPre

/-- The Go agent does not report a crash after a dirty restart, and the Rust agent reports a daemon
under the name of its pid. -/
theorem restarted_crash_unreported :
    let config : List NodeConfig := [{ name := "n1", daemon := true }]
    let go := GoNodes.run config [.dirtyRestart "n1", .exit 3 (.exited 2), .reap]
    let rust := RustNodes.run config [.exit 2 (.exited 2), .reap]
    (go.emitted = [] ∧ go.kernel.crashes.map report = [(3, crashAssertion "n1")]) ∧
      rust.emitted = [(2, crashAssertion "pid-2")] ∧
      rust.kernel.crashes.map report = [(2, crashAssertion "n1")] := by
  decide +kernel

end OpenThesis.Guest
