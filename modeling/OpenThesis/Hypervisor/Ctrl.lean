import Mathlib.Order.Basic
import Mathlib.Tactic.NormNum

/-!
# The control connection of Firecracker

Commands to the control server (`sendCtrl` of `internal/hypervisor/firecracker.go` and
`dst/ctrl.rs`), repeated at another socket if the connection fails. The clock is taken not to
overflow.
-/

namespace OpenThesis.Hypervisor

/-- The state of the control server; there may be no random generator and no packet queue. -/
structure Server where
  monotonicNS : Int
  hltCount : Nat
  rdtscQuantum : Nat
  rng : Option UInt64
  dpq : Option Nat
  pmcActive : Bool
  deriving DecidableEq

/-- The commands of the control socket. -/
inductive Command
  | ping
  | getTime
  | setTime (monotonicNS : Option Int)
  | burstStart (monotonicNS : Option Int)
  | getRngState
  | setRngState (state : Option UInt64)
  | flushDpq
  | restoreInPlace (snapshotPath memPath : Option String)
  | runBurst (instructions : Option Nat)
  | setRdtscQuantum (instructions : Option Nat)
  | advanceQuantum (deltaNS : Option Int)
  | unknown (name : String)
  deriving DecidableEq

structure CtrlResp where
  ok : Bool
  error : String := ""
  monotonicNS : Int := 0
  wallNS : Int := 0
  state : UInt64 := 0
  packetsInjected : Nat := 0
  dstMode : Bool := false
  pmcActive : Bool := false
  hltCount : Nat := 0
  deriving DecidableEq

def CtrlResp.err (message : String) : CtrlResp :=
  { ok := false, error := message }

/-- How the virtual machine behaves when a command runs or restores it; the progress is what the
guest adds to the clock. -/
structure Machine where
  available : Bool := true
  resumeError : Option String := none
  restoreError : Option String := none
  progress : Nat := 0
  deriving DecidableEq

def virtualEpochNS : Int := 1704067200000000000

def Server.drained (s : Server) : Server :=
  { s with dpq := s.dpq.map fun _ => 0 }

def dispatch (vmm : Machine) (s : Server) : Command → Server × CtrlResp
  | .ping => (s, { ok := true, dstMode := true, pmcActive := s.pmcActive })
  | .getTime =>
    (s, { ok := true, monotonicNS := s.monotonicNS, wallNS := virtualEpochNS + s.monotonicNS,
          hltCount := s.hltCount })
  | .setTime none => (s, .err "set-time: missing monotonic_ns")
  | .setTime (some ns) => ({ s with monotonicNS := ns }, { ok := true })
  | .burstStart none => (s, .err "burst-start: missing monotonic_ns")
  | .burstStart (some ns) => ({ s with monotonicNS := ns }, { ok := true })
  | .getRngState => (s, { ok := true, state := s.rng.getD 0 })
  | .setRngState none => (s, .err "set-rng-state: missing state")
  | .setRngState (some state) => ({ s with rng := s.rng.map fun _ => state }, { ok := true })
  | .flushDpq => (s.drained, { ok := true, packetsInjected := s.dpq.getD 0 })
  | .restoreInPlace none _ => (s, .err "restore-in-place: missing snapshot_path")
  | .restoreInPlace (some _) none => (s, .err "restore-in-place: missing mem_path")
  | .restoreInPlace (some _) (some _) =>
    if vmm.available then
      match vmm.restoreError with
      | none => (s, { ok := true })
      | some error => (s, .err ("restore-in-place: " ++ error))
    else (s, .err "restore-in-place: vmm not available")
  | .runBurst none | .runBurst (some 0) => (s, .err "run-burst: missing or zero instructions")
  | .runBurst (some (n + 1)) =>
    if vmm.available then
      match vmm.resumeError with
      | some error => (s, .err ("run-burst resume: " ++ error))
      | none =>
        -- a clock that has not come to the target is brought there
        let after := max (s.monotonicNS + vmm.progress) (s.monotonicNS + (n + 1 : Nat))
        ({ s.drained with monotonicNS := after },
          { ok := true, monotonicNS := after, hltCount := s.hltCount })
    else (s, .err "run-burst: vmm not available")
  | .setRdtscQuantum none | .setRdtscQuantum (some 0) =>
    (s, .err "set-rdtsc-quantum: missing value")
  | .setRdtscQuantum (some (n + 1)) => ({ s with rdtscQuantum := n + 1 }, { ok := true })
  | .advanceQuantum none => (s, .err "advance-quantum: missing delta_ns")
  | .advanceQuantum (some delta) =>
    if 0 < delta then ({ s with monotonicNS := s.monotonicNS + delta }, { ok := true })
    else (s, .err "advance-quantum: delta_ns must be positive")
  | .unknown name => (s, .err ("unknown command: " ++ name))

def fcSocketDir (digest : String → String) (vmID : String) : String :=
  "/tmp/ot-" ++ digest vmID

def ctrlSocket (digest : String → String) (vmID : String) : String :=
  fcSocketDir digest vmID ++ "/ctrl.sock"

def reconnectSocket (stateDir vmID : String) : String :=
  stateDir ++ "/" ++ vmID ++ "/openthesis-dst.sock"

theorem reconnectSocket_ne_ctrlSocket (digest : String → String) (stateDir vmID : String) :
    reconnectSocket stateDir vmID ≠ ctrlSocket digest vmID := by
  intro same
  -- the names differ in the letter before the extension
  have letters := congrArg (fun text => (text.toList.reverse.take 6)) same
  simp [reconnectSocket, ctrlSocket, fcSocketDir] at letters

/-- Where the connection fails. The server may have executed the command before the request was sent
to its end. -/
inductive Fate
  | answered
  | sendFails (executed : Bool)
  | recvFails (executed : Bool)
  deriving DecidableEq

/-- What happens to the first attempt of a call of `sendCtrl`, to the new connection, and to the
second attempt. -/
structure Try where
  first : Fate := .answered
  dials : Bool := true
  second : Fate := .answered
  vmm : Machine := {}
  deriving DecidableEq

inductive Conn
  | absent
  | broken
  | up
  deriving DecidableEq

/-- The client with the server, the number of executions of each command so far, and what the guest
itself has added to the clock. -/
structure Client where
  server : Server
  conn : Conn := .up
  executions : List Nat := []
  ran : Nat := 0
  deriving DecidableEq

open Client

def Command.isBurst : Command → Bool
  | .runBurst _ => true
  | _ => false

def attempt (vmm : Machine) (command : Command) (s : Server) :
    Fate → Server × Nat × Except String CtrlResp
  | .answered => ((dispatch vmm s command).1, 1, .ok (dispatch vmm s command).2)
  | .sendFails true => ((dispatch vmm s command).1, 1, .error "firecracker ctrl send")
  | .sendFails false => (s, 0, .error "firecracker ctrl send")
  | .recvFails true => ((dispatch vmm s command).1, 1, .error "firecracker ctrl recv")
  | .recvFails false => (s, 0, .error "firecracker ctrl recv")

def sendCtrl (reachable : Bool) (t : Try) (command : Command) (c : Client) : CtrlResp × Client :=
  match c.conn with
  | .absent =>
    (.err "firecracker ctrl: all attempts failed",
      { c with executions := c.executions ++ [0] })
  | conn =>
    let fate := if conn = .up then t.first else .sendFails false
    match attempt t.vmm command c.server fate with
    | (server, n, .ok resp) =>
      (resp, { c with server, executions := c.executions ++ [n] })
    | (server, n, .error error) =>
      if command.isBurst then
        (.err error, { c with server, executions := c.executions ++ [n] })
      else if reachable && t.dials then
        match attempt t.vmm command server t.second with
        | (server, n', .ok resp) =>
          (resp, { c with server, conn := .up, executions := c.executions ++ [n + n'] })
        | (server, n', .error error) =>
          (.err error, { c with server, conn := .up, executions := c.executions ++ [n + n'] })
      else
        (.err error, { c with server, conn := .broken, executions := c.executions ++ [n] })

/-- What the guest does on its own. -/
structure Guest where
  progress : Nat := 0
  hltCount : Nat := 0
  deriving DecidableEq

/-- What happens to each call of `sendCtrl`, in the guest, to the requests that resume and pause it,
and the number of polls. -/
structure World where
  tries : Nat → Try := fun _ => {}
  guest : Nat → Guest := fun _ => {}
  resumes : Bool := true
  pauses : Bool := true
  polls : Nat := 0
  cancelled : Option Nat := none

def int64 (n : UInt64) : Int :=
  if n.toNat < 2 ^ 63 then n.toNat else n.toNat - 2 ^ 64

theorem int64_le (n : UInt64) : int64 n ≤ n.toNat := by
  rw [int64]
  split_ifs
  · exact le_refl _
  · exact Int.sub_le_self _ (by norm_num)

def Client.run (c : Client) (g : Guest) : Client :=
  { c with
    server :=
      { c.server with monotonicNS := c.server.monotonicNS + g.progress, hltCount := g.hltCount }
    ran := c.ran + g.progress }

section

variable (reachable : Bool) (w : World)

def Client.send (c : Client) (command : Command) : CtrlResp × Client :=
  sendCtrl reachable (w.tries c.executions.length) command c

def advanceTime (deltaNS : UInt64) (c : Client) : Client :=
  let (cur, c) := c.send reachable w .getTime
  if cur.ok then
    ((c.run (w.guest 0)).send reachable w (.setTime (some (cur.monotonicNS + int64 deltaNS)))).2
  else c

def runForInstructionsFallback (n : UInt64) (c : Client) : Client :=
  if w.resumes then
    let c := c.run (w.guest 0)
    if w.cancelled.isNone ∧ w.pauses then
      let c := (c.send reachable w (.advanceQuantum (some (int64 n)))).2
      (c.send reachable w .flushDpq).2
    else c
  else c

inductive PollEnd
  | cancelled
  | idle
  | ended
  deriving DecidableEq

def poll (target : Int) (idleThreshold : Nat) : Nat → Nat → Client → PollEnd × Client
  | 0, _, c => (.ended, c)
  | left + 1, k, c =>
    let c := c.run (w.guest k)
    if w.cancelled = some k then (.cancelled, c)
    else
      let (cur, c) := c.send reachable w .getTime
      if cur.ok = false then (.ended, c)
      else if target ≤ cur.monotonicNS then (.ended, c)
      else if idleThreshold ≤ cur.hltCount then (.idle, c)
      else poll target idleThreshold left (k + 1) c

def minAdvance : Nat := 500000

def settle (beforeNS : Int) (idle : Bool) (c : Client) : Client :=
  let (after, c) := c.send reachable w .getTime
  let elapsed := after.monotonicNS - beforeNS
  let c :=
    if after.ok ∧ 0 ≤ elapsed ∧ elapsed < minAdvance ∧ idle = false then
      (c.send reachable w (.advanceQuantum (some (minAdvance - elapsed)))).2
    else c
  (c.send reachable w .flushDpq).2

def runUntilIdle (idleThreshold : Nat) (maxInstructions : UInt64) (c : Client) : Client :=
  let (before, c) := c.send reachable w .getTime
  if before.ok ∧ w.resumes then
    match poll reachable w (before.monotonicNS + int64 maxInstructions) idleThreshold w.polls 0 c
    with
    | (.cancelled, c) => c
    | (ending, c) =>
      -- the guest runs until it is paused
      let c := c.run (w.guest w.polls)
      if w.pauses then settle reachable w before.monotonicNS (ending = .idle) c else c
  else c

/-- The calls that move the clock. -/
inductive ClockCall
  | advanceTime (deltaNS : UInt64)
  | runForInstructionsFallback (n : UInt64)
  | runUntilIdle (idleThreshold : Nat) (maxInstructions : UInt64)

def ClockCall.perform : ClockCall → Client → Client
  | .advanceTime deltaNS => Hypervisor.advanceTime reachable w deltaNS
  | .runForInstructionsFallback n => Hypervisor.runForInstructionsFallback reachable w n
  | .runUntilIdle idleThreshold maxInstructions =>
    Hypervisor.runUntilIdle reachable w idleThreshold maxInstructions

end

def ClockCall.requested : ClockCall → Nat
  | .advanceTime deltaNS => deltaNS.toNat
  | .runForInstructionsFallback n => n.toNat
  | .runUntilIdle _ maxInstructions => maxInstructions.toNat

/-- A call executes each command at most once, and the clock has advanced by no more than requested,
unless the guest has added more than `progress`. -/
def ClockCall.Conforms (call : ClockCall) (reachable : Bool) (progress : Nat) : Prop :=
  ∀ (server : Server) (w : World), (call.perform reachable w { server }).ran ≤ progress →
    (∀ times ∈ (call.perform reachable w { server }).executions, times ≤ 1) ∧
      (call.perform reachable w { server }).server.monotonicNS ≤
        server.monotonicNS + call.requested

def ClockCall.reach (progress : Nat) : ClockCall → Nat
  | .advanceTime deltaNS => max progress (int64 deltaNS).toNat
  -- the whole amount is added to what the guest has added
  | .runForInstructionsFallback n => progress + (int64 n).toNat
  | .runUntilIdle _ _ => max progress minAdvance

section

variable {w : World} {c : Client} {command : Command}

theorem Client.ran_send {reachable : Bool} : (c.send reachable w command).2.ran = c.ran := by
  unfold send sendCtrl
  grind

theorem Client.send_once (once : ∀ times ∈ c.executions, times ≤ 1) :
    ∀ times ∈ (c.send false w command).2.executions, times ≤ 1 := by
  unfold send sendCtrl attempt
  grind

theorem Client.send_server :
    ((c.send false w command).2.server = c.server ∧ (c.send false w command).1.ok = false) ∨
      ∃ vmm, (c.send false w command).2.server = (dispatch vmm c.server command).1 ∧
        ((c.send false w command).1.ok = false ∨
          (c.send false w command).1 = (dispatch vmm c.server command).2) := by
  unfold send sendCtrl attempt
  grind [CtrlResp.err]

theorem Client.server_send_getTime : (c.send false w .getTime).2.server = c.server := by
  rcases send_server with ⟨same, -⟩ | ⟨vmm, executed, -⟩
  · exact same
  · exact executed

theorem Client.monotonicNS_of_send_getTime (ok : (c.send false w .getTime).1.ok = true) :
    (c.send false w .getTime).1.monotonicNS = c.server.monotonicNS := by
  rcases send_server with ⟨-, failed⟩ | ⟨vmm, -, failed | answered⟩
  · rw [failed] at ok
    cases ok
  · rw [failed] at ok
    cases ok
  · rw [answered, dispatch]

theorem Client.monotonicNS_send_flushDpq :
    (c.send false w .flushDpq).2.server.monotonicNS = c.server.monotonicNS := by
  rcases send_server with ⟨same, -⟩ | ⟨vmm, executed, -⟩
  · rw [same]
  · rw [executed, dispatch, Server.drained]

theorem Client.monotonicNS_send_setTime (ns : Int) :
    (c.send false w (.setTime (some ns))).2.server.monotonicNS = c.server.monotonicNS ∨
      (c.send false w (.setTime (some ns))).2.server.monotonicNS = ns := by
  rcases send_server with ⟨same, -⟩ | ⟨vmm, executed, -⟩
  · exact .inl (by rw [same])
  · exact .inr (by rw [executed, dispatch])

theorem Client.monotonicNS_send_advanceQuantum_le (delta : Int) :
    (c.send false w (.advanceQuantum (some delta))).2.server.monotonicNS ≤
      c.server.monotonicNS + delta.toNat := by
  rcases send_server with ⟨same, -⟩ | ⟨vmm, executed, -⟩
  · rw [same]
    omega
  · rw [executed, dispatch]
    split
    · show c.server.monotonicNS + delta ≤ _
      omega
    · show c.server.monotonicNS ≤ _
      omega

/-- What holds at every moment of a call in which only the guest has moved the clock so far. -/
structure Client.Following (start : Int) (c : Client) : Prop where
  once : ∀ times ∈ c.executions, times ≤ 1
  monotonicNS : c.server.monotonicNS = start + c.ran

theorem Client.Following.start {server : Server} : Client.Following server.monotonicNS { server } :=
  ⟨by simp, by simp⟩

variable {start : Int}

theorem Client.Following.run (following : c.Following start) (g : Guest) :
    (c.run g).Following start := by
  refine ⟨following.once, ?_⟩
  show c.server.monotonicNS + g.progress = start + ((c.ran + g.progress : Nat) : Int)
  rw [following.monotonicNS]
  push_cast
  omega

theorem Client.Following.getTime (following : c.Following start) :
    (c.send false w .getTime).2.Following start := by
  refine ⟨send_once following.once, ?_⟩
  rw [server_send_getTime, ran_send]
  exact following.monotonicNS

theorem Client.Following.poll (following : c.Following start) (target : Int)
    (idleThreshold left k : Nat) :
    (poll false w target idleThreshold left k c).2.Following start := by
  induction left generalizing k c with
  | zero => exact following
  | succ left ih =>
    rw [Hypervisor.poll]
    have polled := (following.run (w.guest k)).getTime (w := w)
    dsimp only
    split_ifs
    · exact following.run _
    · exact polled
    · exact polled
    · exact polled
    · exact ih polled _

/-- What a call leaves behind: each command executed at most once, and a limit of the clock. -/
structure Client.Within (start : Int) (limit : Nat → Nat) (c : Client) : Prop where
  once : ∀ times ∈ c.executions, times ≤ 1
  monotonicNS_le : c.server.monotonicNS ≤ start + limit c.ran

theorem Client.Following.within {limit : Nat → Nat} (following : c.Following start)
    (le : c.ran ≤ limit c.ran) : c.Within start limit := by
  refine ⟨following.once, ?_⟩
  rw [following.monotonicNS]
  omega

theorem within_advanceTime (deltaNS : UInt64) (following : c.Following start) (fresh : c.ran = 0) :
    (advanceTime false w deltaNS c).Within start fun ran =>
      (ClockCall.advanceTime deltaNS).reach ran := by
  have read := following.getTime (w := w)
  unfold advanceTime
  dsimp only
  split_ifs with ok
  · have running := read.run (w.guest 0)
    refine ⟨send_once running.once, ?_⟩
    rw [ran_send, monotonicNS_of_send_getTime ok, following.monotonicNS, fresh]
    rcases monotonicNS_send_setTime (w := w)
      (c := (c.send false w .getTime).2.run (w.guest 0))
      (start + (0 : Nat) + int64 deltaNS) with same | set
    · rw [same, running.monotonicNS, ClockCall.reach]
      omega
    · rw [set, ClockCall.reach]
      omega
  · exact read.within (le_max_left _ _)

theorem within_runForInstructionsFallback (n : UInt64) (following : c.Following start) :
    (runForInstructionsFallback false w n c).Within start fun ran =>
      (ClockCall.runForInstructionsFallback n).reach ran := by
  have running := following.run (w.guest 0)
  unfold runForInstructionsFallback
  dsimp only
  split_ifs
  · refine ⟨send_once (send_once running.once), ?_⟩
    rw [monotonicNS_send_flushDpq, ran_send, ran_send, ClockCall.reach]
    have advanced := monotonicNS_send_advanceQuantum_le (w := w) (c := c.run (w.guest 0))
      (int64 n)
    rw [running.monotonicNS] at advanced
    omega
  · exact running.within (Nat.le_add_right _ _)
  · exact following.within (Nat.le_add_right _ _)

theorem within_settle (idle : Bool) (idleThreshold : Nat) (maxInstructions : UInt64)
    (following : c.Following start) : (settle false w start idle c).Within start fun ran =>
      (ClockCall.runUntilIdle idleThreshold maxInstructions).reach ran := by
  have read := following.getTime (w := w)
  unfold settle
  dsimp only
  split_ifs with short
  · obtain ⟨ok, nonneg, lt, -⟩ := short
    refine ⟨send_once (send_once read.once), ?_⟩
    rw [monotonicNS_send_flushDpq, ran_send, ran_send, ClockCall.reach]
    have advanced := monotonicNS_send_advanceQuantum_le (w := w)
      (c := (c.send false w .getTime).2)
      (minAdvance - ((c.send false w .getTime).1.monotonicNS - start))
    rw [monotonicNS_of_send_getTime ok] at advanced lt
    rw [monotonicNS_of_send_getTime ok]
    rw [server_send_getTime] at advanced
    omega
  · refine ⟨send_once read.once, ?_⟩
    rw [monotonicNS_send_flushDpq, ran_send, read.monotonicNS, ClockCall.reach]
    omega

theorem within_runUntilIdle (idleThreshold : Nat) (maxInstructions : UInt64)
    (following : c.Following start) (fresh : c.ran = 0) :
    (runUntilIdle false w idleThreshold maxInstructions c).Within start fun ran =>
      (ClockCall.runUntilIdle idleThreshold maxInstructions).reach ran := by
  have read := following.getTime (w := w)
  unfold runUntilIdle
  dsimp only
  by_cases ready : (c.send false w .getTime).1.ok = true ∧ w.resumes = true
  · rw [if_pos ready]
    have baseline : (c.send false w .getTime).1.monotonicNS = start := by
      rw [monotonicNS_of_send_getTime ready.1, following.monotonicNS, fresh]
      simp
    rw [baseline]
    have polled := read.poll (w := w) (start + int64 maxInstructions) idleThreshold w.polls 0
    split
    next _ cancelled =>
      rw [cancelled] at polled
      exact polled.within (le_max_left _ _)
    next ended =>
      rw [ended] at polled
      have running := polled.run (w.guest w.polls)
      split_ifs
      · exact within_settle _ _ _ running
      · exact running.within (le_max_left _ _)
  · rw [if_neg ready]
    exact read.within (le_max_left _ _)

end

variable (call : ClockCall) {reachable : Bool} {w : World} {c : Client}

theorem ClockCall.within_perform (server : Server) (w : World) :
    (call.perform false w { server }).Within server.monotonicNS fun ran => call.reach ran := by
  cases call with
  | advanceTime deltaNS => exact within_advanceTime deltaNS .start rfl
  | runForInstructionsFallback n => exact within_runForInstructionsFallback n .start
  | runUntilIdle idleThreshold maxInstructions =>
    exact within_runUntilIdle idleThreshold maxInstructions .start rfl

theorem ClockCall.reach_mono {ran progress : Nat} (le : ran ≤ progress) :
    call.reach ran ≤ call.reach progress := by
  cases call with
  | advanceTime => exact max_le_max_right _ le
  | runForInstructionsFallback => exact Nat.add_le_add_right le _
  | runUntilIdle => exact max_le_max_right _ le

def lostResponses : World where
  tries := fun _ => { first := .recvFails true }

theorem Client.mem_executions_send {times : Nat} (command : Command) (mem : times ∈ c.executions) :
    times ∈ (c.send reachable w command).2.executions := by
  unfold send sendCtrl
  grind

theorem ran_settle (beforeNS : Int) (idle : Bool) :
    (settle reachable w beforeNS idle c).ran = c.ran := by
  unfold settle
  dsimp only
  split_ifs
  · rw [ran_send, ran_send, ran_send]
  · rw [ran_send, ran_send]

theorem mem_executions_settle {times : Nat} (beforeNS : Int) (idle : Bool)
    (mem : times ∈ c.executions) : times ∈ (settle reachable w beforeNS idle c).executions := by
  have read : times ∈ (c.send reachable w .getTime).2.executions :=
    mem_executions_send _ mem
  unfold settle
  dsimp only
  split_ifs
  · exact mem_executions_send _ (mem_executions_send _ read)
  · exact mem_executions_send _ read

theorem runUntilIdle_of_no_polls (idleThreshold : Nat) (maxInstructions : UInt64)
    (polls : w.polls = 0) (ready : (c.send reachable w .getTime).1.ok = true ∧ w.resumes = true)
    (pauses : w.pauses = true) : runUntilIdle reachable w idleThreshold maxInstructions c =
      settle reachable w (c.send reachable w .getTime).1.monotonicNS false
        ((c.send reachable w .getTime).2.run (w.guest 0)) := by
  unfold runUntilIdle
  dsimp only
  rw [if_pos ready, polls, poll]
  dsimp only
  rw [if_pos pauses]
  rfl

theorem ClockCall.lostResponses_twice (server : Server) :
    2 ∈ (call.perform true lostResponses { server }).executions ∧
      (call.perform true lostResponses { server }).ran = 0 := by
  cases call with
  | advanceTime deltaNS | runForInstructionsFallback n => exact ⟨.head _, rfl⟩
  | runUntilIdle idleThreshold maxInstructions =>
    rw [ClockCall.perform, runUntilIdle_of_no_polls _ _ rfl ⟨rfl, rfl⟩ rfl, ran_settle]
    exact ⟨mem_executions_settle _ _ (.head _), rfl⟩

def steady (progress : Nat) (call : ClockCall) : World where
  tries := fun k =>
    match call, k with
    | .advanceTime _, 1 => { first := .sendFails false }
    | _, _ => {}
  guest := fun _ => { progress }

theorem ClockCall.ran_steady (server : Server) (progress : Nat) :
    (call.perform false (steady progress call) { server }).ran = progress := by
  cases call with
  | advanceTime deltaNS | runForInstructionsFallback n => exact Nat.zero_add _
  | runUntilIdle idleThreshold maxInstructions =>
    rw [ClockCall.perform, runUntilIdle_of_no_polls _ _ rfl ⟨rfl, rfl⟩ rfl, ran_settle]
    exact Nat.zero_add _

theorem Client.send_of_quiet (quiet : w.tries = fun _ => {}) (up : c.conn = .up)
    (command : Command) :
    c.send false w command = ((dispatch {} c.server command).2,
      { c with
        server := (dispatch {} c.server command).1, executions := c.executions ++ [1] }) := by
  unfold send sendCtrl
  rw [quiet, up]
  rfl

theorem monotonicNS_settle {before : Int} {progress : Nat} (quiet : w.tries = fun _ => {})
    (up : c.conn = .up) (monotonicNS : c.server.monotonicNS = before + progress) :
    (settle false w before false c).server.monotonicNS =
      before + (max progress minAdvance : Nat) := by
  have still : ({ c with executions := c.executions ++ [1] } : Client).conn = .up := up
  unfold settle
  rw [send_of_quiet quiet up]
  dsimp only [dispatch]
  rw [monotonicNS_send_flushDpq, monotonicNS]
  split_ifs with short
  · obtain ⟨-, -, lt, -⟩ := short
    rw [send_of_quiet quiet still, dispatch, if_pos (by omega)]
    dsimp only
    rw [monotonicNS]
    omega
  · have enough : minAdvance ≤ progress := by
      by_contra lt
      exact short ⟨rfl, by omega, by omega, rfl⟩
    dsimp only
    rw [monotonicNS, max_eq_left enough]

theorem ClockCall.reach_le_of_steady (server : Server) (progress : Nat)
    (le : (call.perform false (steady progress call) { server }).server.monotonicNS ≤
      server.monotonicNS + call.requested) : call.reach progress ≤ call.requested := by
  cases call with
  | advanceTime deltaNS =>
    have guest : server.monotonicNS + (progress : Int) ≤ server.monotonicNS + deltaNS.toNat := le
    have := int64_le deltaNS
    rw [ClockCall.reach, ClockCall.requested]
    omega
  | runForInstructionsFallback n =>
    let w := steady progress (.runForInstructionsFallback n)
    let c : Client := ({ server } : Client).run { progress }
    change ((c.send false w (.advanceQuantum (some (int64 n)))).2.send false w
      .flushDpq).2.server.monotonicNS ≤ _ at le
    rw [monotonicNS_send_flushDpq, send_of_quiet rfl rfl, dispatch] at le
    rw [ClockCall.reach, ClockCall.requested]
    split_ifs at le with positive
    · have added : server.monotonicNS + (progress : Int) + int64 n ≤
        server.monotonicNS + n.toNat := le
      omega
    · have added : server.monotonicNS + (progress : Int) ≤ server.monotonicNS + n.toNat := le
      omega
  | runUntilIdle idleThreshold maxInstructions =>
    rw [ClockCall.perform, runUntilIdle_of_no_polls _ _ rfl ⟨rfl, rfl⟩ rfl,
      monotonicNS_settle rfl rfl rfl] at le
    exact Int.ofNat_le.mp (Int.le_of_add_le_add_left le)

/-- A call executes its commands at most once and keeps to what was requested exactly if the control
server does not also listen on the second socket, and the guest and the minimum of an idle run do
not ask for more. -/
theorem ClockCall.conforms_iff (listens : String → Bool) (stateDir vmID : String) (call : ClockCall)
    (progress : Nat) :
    call.Conforms (listens (reconnectSocket stateDir vmID)) progress ↔
      listens (reconnectSocket stateDir vmID) = false ∧ call.reach progress ≤ call.requested := by
  generalize listens (reconnectSocket stateDir vmID) = reachable
  constructor
  · intro conforms
    cases reachable with
    | true =>
      let server : Server := ⟨0, 0, 0, none, none, false⟩
      obtain ⟨twice, idle⟩ := call.lostResponses_twice server
      have once := (conforms server lostResponses (by omega)).1 2 twice
      omega
    | false =>
      let server : Server := ⟨0, 0, 0, none, none, false⟩
      have steady := conforms server (steady progress call) (call.ran_steady server progress).le
      exact ⟨rfl, call.reach_le_of_steady server progress steady.2⟩
  · rintro ⟨rfl, le⟩ server w ran
    have within := call.within_perform server w
    refine ⟨within.once, within.monotonicNS_le.trans ?_⟩
    have := call.reach_mono ran
    omega

def listensOn (digest : String → String) (vmID path : String) : Bool :=
  path = ctrlSocket digest vmID

theorem listensOn_reconnectSocket (digest : String → String) (stateDir vmID : String) :
    listensOn digest vmID (reconnectSocket stateDir vmID) = false :=
  decide_eq_false (reconnectSocket_ne_ctrlSocket digest stateDir vmID)

/-- With its own socket only, a run of 1000 instructions advances the clock by the minimum. With the
other socket too, a lost response advances the clock twice. -/
theorem advanced_too_far :
    let server : Server := ⟨0, 0, 0, none, none, false⟩
    let own := listensOn (fun _ => "0a1b2c3d") "vm" (reconnectSocket "/var/lib/openthesis" "vm")
    own = false ∧
      ((ClockCall.runUntilIdle 10 1000).perform own {} { server }).ran = 0 ∧
      ((ClockCall.runUntilIdle 10 1000).perform own {} { server }).server.monotonicNS = 500000 ∧
      ¬(ClockCall.runUntilIdle 10 1000).Conforms own 0 ∧
      ((ClockCall.runForInstructionsFallback 1000).perform true lostResponses
        { server }).executions = [2, 2] ∧
      ((ClockCall.runForInstructionsFallback 1000).perform true lostResponses
        { server }).server.monotonicNS = 2000 ∧
      ¬(ClockCall.runForInstructionsFallback 1000).Conforms true 0 := by
  refine ⟨listensOn_reconnectSocket _ _ _, by decide +kernel, by decide +kernel, ?_,
    by decide +kernel, by decide +kernel, ?_⟩
  · intro conforms
    have within := (conforms ⟨0, 0, 0, none, none, false⟩ {} (by decide +kernel)).2
    revert within
    decide +kernel
  · intro conforms
    have within := (conforms ⟨0, 0, 0, none, none, false⟩ lostResponses (by decide +kernel)).2
    revert within
    decide +kernel

end OpenThesis.Hypervisor
