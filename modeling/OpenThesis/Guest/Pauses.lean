import Mathlib.Algebra.Group.Nat.Defs
import Mathlib.Data.List.Basic
import Mathlib.Data.Nat.Basic
import OpenThesis.Run.Core

/-!
# Pauses of nodes and their resume timers

A pause stops a process and may start a timer; a clear continues all paused processes but stops no
timer. Timers fire from their due time on, in order.
-/

namespace OpenThesis.Guest

open List

/-- The paused processes, and those that are stopped. -/
structure Procs where
  pausedProcs : Std.ExtTreeSet Int compare
  stopped : Int → Bool

namespace Procs

def sigstop (procs : Procs) (pid : Int) : Procs :=
  { procs with stopped := Function.update procs.stopped pid true }

def sigcont (procs : Procs) (pid : Int) : Procs :=
  { procs with stopped := Function.update procs.stopped pid false }

def rememberPausedProc (procs : Procs) (pid : Int) : Procs :=
  { procs with pausedProcs := procs.pausedProcs.insert pid }

def forgetPausedProc (procs : Procs) (pid : Int) : Procs × Bool :=
  if pid ∈ procs.pausedProcs then
    ({ procs with pausedProcs := procs.pausedProcs.erase pid }, true)
  else (procs, false)

def takePausedProcs (procs : Procs) : Procs × List Int :=
  ({ procs with pausedProcs := ∅ }, procs.pausedProcs.toList)

def resumeAllPausedProcs (procs : Procs) : Procs :=
  let (procs, pids) := procs.takePausedProcs
  pids.foldl sigcont procs

def resume (procs : Procs) (pid : Int) : Procs :=
  match procs.forgetPausedProc pid with
  | (procs, false) => procs
  | (procs, true) => procs.sigcont pid

def Agrees (procs : Procs) : Prop :=
  ∀ pid, procs.stopped pid = true ↔ pid ∈ procs.pausedProcs

theorem foldl_sigcont_stopped (procs : Procs) (pids : List Int) (pid : Int) :
    (pids.foldl sigcont procs).stopped pid = true ↔ procs.stopped pid = true ∧ pid ∉ pids := by
  induction pids generalizing procs with
  | nil => simp
  | cons first rest ih =>
    rw [foldl_cons, ih, mem_cons]
    by_cases same : pid = first
    · simp [sigcont, same]
    · simp [sigcont, same]

def Recorded (procs : Procs) : Prop :=
  ∀ pid, procs.stopped pid = true → pid ∈ procs.pausedProcs

variable {procs : Procs}

theorem Recorded.resumeAll (recorded : procs.Recorded) (pid : Int) :
    procs.resumeAllPausedProcs.stopped pid = false := by
  rw [Bool.eq_false_iff, ne_eq, resumeAllPausedProcs, takePausedProcs, foldl_sigcont_stopped]
  rintro ⟨stopped, notListed⟩
  exact notListed (Std.ExtTreeSet.mem_toList.mpr (recorded pid stopped))

theorem Agrees.resumeAll (agrees : procs.Agrees) : procs.resumeAllPausedProcs.pausedProcs = ∅ ∧
      ∀ pid, procs.resumeAllPausedProcs.stopped pid = false :=
  ⟨Run.view_foldl pausedProcs (by intros; rfl) _ _,
    Recorded.resumeAll fun pid => (agrees pid).mp⟩

theorem Agrees.pause (agrees : procs.Agrees) (pid : Int) :
    ((procs.sigstop pid).rememberPausedProc pid).Agrees := by
  intro other
  by_cases same : other = pid
  · simp [sigstop, rememberPausedProc, same]
  · simpa [sigstop, rememberPausedProc, same, Ne.symm same] using agrees other

theorem resume_of_notMem {pid : Int} (notPaused : pid ∉ procs.pausedProcs) :
    procs.resume pid = procs := by
  rw [resume, forgetPausedProc, if_neg notPaused]

theorem resume_of_mem {pid : Int} (paused : pid ∈ procs.pausedProcs) :
    procs.resume pid =
      { pausedProcs := procs.pausedProcs.erase pid
        stopped := Function.update procs.stopped pid false } := by
  rw [resume, forgetPausedProc, if_pos paused]
  rfl

theorem Agrees.resume (agrees : procs.Agrees) (pid : Int) : (procs.resume pid).Agrees := by
  by_cases paused : pid ∈ procs.pausedProcs
  · intro other
    rw [resume_of_mem paused]
    by_cases same : other = pid
    · simp [same]
    · simpa [same, Ne.symm same] using agrees other
  · rwa [resume_of_notMem paused]

end Procs

/-- A request, and until when it asks for the pause: `none` is until the next clear. The number is
not in the program. -/
structure Pause where
  number : Nat
  pid : Int
  deadline : Option Nat
  deriving DecidableEq, Repr

/-- The timer that ends a pause. -/
structure ResumeTimer where
  pause : Pause
  due : Nat
  deriving DecidableEq, Repr

/-- The processes, the timers, and the pauses since the last clear, oldest first. -/
structure PauseState where
  now : Nat
  procs : Procs
  timers : List ResumeTimer
  since : List Pause
  requests : Nat

def PauseState.init : PauseState where
  now := 0
  procs := { pausedProcs := ∅, stopped := fun _ => false }
  timers := []
  since := []
  requests := 0

def durationNS (durationMS : Int) : Int :=
  (durationMS * 1000000).bmod (2 ^ 64)

inductive PauseAction where
  | pause (node : String) (durationMS : Int)
  | clear
  | fire (position : Nat)
  | advance (ns : Nat)
  deriving DecidableEq, Repr

namespace PauseState

def firing (s : PauseState) (position : Nat) : Option ResumeTimer :=
  s.timers[position]?.filter fun timer =>
    timer.due ≤ s.now && s.timers.all fun other => timer.due ≤ other.due

def afterFunc (s : PauseState) (pause : Pause) (durationMS : Int) : List ResumeTimer :=
  if 0 < durationMS then [{ pause, due := s.now + (durationNS durationMS).toNat }] else []

section

variable (lookupNodePID : String → Int)

def handlePauseNode (s : PauseState) (node : String) (durationMS : Int) : PauseState :=
  if node = "" then s
  else
    let pid := lookupNodePID node
    if pid ≤ 0 then s
    else
      let deadline :=
        if 0 < durationMS then some (s.now + (durationMS * 1000000).toNat) else none
      let pause := { number := s.requests, pid, deadline }
      { s with
        procs := (s.procs.sigstop pid).rememberPausedProc pid
        timers := s.timers ++ s.afterFunc pause durationMS
        since := s.since ++ [pause]
        requests := s.requests + 1 }

/-- A pause, the end of all pauses, or a timer that fires. -/
def step (s : PauseState) : PauseAction → PauseState
  | .pause node durationMS => handlePauseNode lookupNodePID s node durationMS
  | .clear => { s with procs := s.procs.resumeAllPausedProcs, since := [] }
  | .fire position =>
    match s.firing position with
    | none => s
    | some timer =>
      { s with
        procs := s.procs.resume timer.pause.pid
        timers := s.timers.eraseIdx position }
  | .advance ns => { s with now := s.now + ns }

def run (actions : List PauseAction) : PauseState :=
  actions.foldl (step lookupNodePID) init

end

def InForce (s : PauseState) (pause : Pause) : Prop :=
  ∀ deadline ∈ pause.deadline, s.now < deadline

instance (s : PauseState) (pause : Pause) : Decidable (s.InForce pause) :=
  inferInstanceAs (Decidable (∀ deadline ∈ pause.deadline, s.now < deadline))

/-- Every pause since the last clear keeps its process stopped for its time. -/
def KeepsPaused (s : PauseState) : Prop :=
  ∀ pause ∈ s.since, s.InForce pause → s.procs.stopped pause.pid = true

instance (s : PauseState) : Decidable s.KeepsPaused :=
  inferInstanceAs (Decidable (∀ pause ∈ s.since, _ → _))

def pausesOf (s : PauseState) (pid : Int) : List Pause :=
  s.since.filter (·.pid = pid)

def Resumes (s : PauseState) (action : PauseAction) (timer : ResumeTimer) : Prop :=
  ∃ position, action = .fire position ∧ s.firing position = some timer ∧
    timer.pause.pid ∈ s.procs.pausedProcs

def IsLatest (s : PauseState) (pause : Pause) : Prop :=
  (s.pausesOf pause.pid).getLast? = some pause

/-- An action respects the pauses in force and those later than that of a timer, and a clear
continues all processes. -/
structure Respects (s : PauseState) (action : PauseAction) (after : PauseState) : Prop where
  keeps : after.KeepsPaused
  latest (timer : ResumeTimer) : s.Resumes action timer → s.IsLatest timer.pause
  cleared : action = .clear → ∀ pid, after.procs.stopped pid = false

/-- A timer that continues a process belongs to its last pause, and no pause of the
process is in force. -/
def Timely (s : PauseState) (action : PauseAction) : Prop :=
  ∀ timer, s.Resumes action timer →
    s.IsLatest timer.pause ∧ ∀ pause ∈ s.pausesOf timer.pause.pid, ¬ s.InForce pause

section

variable {lookupNodePID : String → Int} {s : PauseState}

variable (lookupNodePID) in
theorem handlePauseNode_cases (s : PauseState) (node : String) (durationMS : Int) :
    handlePauseNode lookupNodePID s node durationMS = s ∨
      ∃ pause, (handlePauseNode lookupNodePID s node durationMS).since = s.since ++ [pause] ∧
        (handlePauseNode lookupNodePID s node durationMS).now = s.now ∧
        (handlePauseNode lookupNodePID s node durationMS).procs =
          (s.procs.sigstop pause.pid).rememberPausedProc pause.pid := by
  by_cases unnamed : node = ""
  · exact .inl (if_pos unnamed)
  · by_cases missing : lookupNodePID node ≤ 0
    · left
      simp only [handlePauseNode, unnamed, missing, if_true, if_false]
    · right
      simp only [handlePauseNode, unnamed, missing, if_false]
      exact ⟨_, rfl, trivial, rfl⟩

theorem step_agrees (agrees : s.procs.Agrees) (action : PauseAction) :
    (step lookupNodePID s action).procs.Agrees := by
  cases action with
  | pause node durationMS =>
    rcases handlePauseNode_cases lookupNodePID s node durationMS with
      same | ⟨pause, _, _, procs⟩
    · rw [step, same]
      exact agrees
    · rw [step, procs]
      exact agrees.pause pause.pid
  | clear =>
    intro pid
    have resumed := agrees.resumeAll
    rw [step, resumed.1, resumed.2 pid]
    simp
  | fire position =>
    rw [step]
    cases s.firing position with
    | none => exact agrees
    | some timer => exact agrees.resume timer.pause.pid
  | advance ns => exact agrees

theorem run_agrees (actions : List PauseAction) : (run lookupNodePID actions).procs.Agrees :=
  foldlRecOn (motive := fun s : PauseState => s.procs.Agrees) actions _
    (fun pid => by simp [init]) fun _ agrees action _ => step_agrees agrees action

theorem respects_of_not_fire (agrees : s.procs.Agrees) (keeps : s.KeepsPaused)
    {action : PauseAction} (notFire : ∀ position, action ≠ .fire position) :
    s.Respects action (step lookupNodePID s action) where
  keeps := by
    cases action with
    | pause node durationMS =>
      rcases handlePauseNode_cases lookupNodePID s node durationMS with
        same | ⟨pause, since, now, procs⟩
      · rw [step, same]
        exact keeps
      · intro other listed inForce
        rw [step, since, mem_append, mem_singleton] at listed
        rw [step, procs]
        by_cases same : other.pid = pause.pid
        · simp [Procs.sigstop, Procs.rememberPausedProc, same]
        · have before : other ∈ s.since := listed.resolve_right fun equal => same (equal ▸ rfl)
          rw [InForce, step, now] at inForce
          simpa [Procs.sigstop, Procs.rememberPausedProc, same] using keeps other before inForce
    | clear =>
      intro pause listed
      cases listed
    | fire position => exact absurd rfl (notFire position)
    | advance ns =>
      intro pause listed inForce
      exact keeps pause listed fun deadline isDeadline =>
        (Nat.le_add_right _ _).trans_lt (inForce deadline isDeadline)
  latest timer resumes := by
    obtain ⟨position, isFire, _⟩ := resumes
    exact absurd isFire (notFire position)
  cleared isClear pid := by
    subst isClear
    exact agrees.resumeAll.2 pid

theorem step_fire {position : Nat} {timer : ResumeTimer} (fires : s.firing position = some timer) :
    step lookupNodePID s (.fire position) =
      { s with
        procs := s.procs.resume timer.pause.pid
        timers := s.timers.eraseIdx position } := by
  rw [step, fires]

theorem respects_fire_iff (keeps : s.KeepsPaused) (position : Nat) :
    s.Respects (.fire position) (step lookupNodePID s (.fire position)) ↔
      s.Timely (.fire position) := by
  constructor
  · intro respects timer resumes
    refine ⟨respects.latest timer resumes, fun pause listed inForce => ?_⟩
    obtain ⟨_, isFire, fires, paused⟩ := resumes
    cases isFire
    obtain ⟨listed, samePid⟩ := mem_filter.mp listed
    have keepsAfter := respects.keeps
    rw [step_fire fires, Procs.resume_of_mem paused] at keepsAfter
    have stopped := keepsAfter pause listed inForce
    simp [of_decide_eq_true samePid] at stopped
  · intro timely
    refine ⟨?_, fun timer resumes => (timely timer resumes).1, nofun⟩
    cases fires : s.firing position with
    | none =>
      rw [step, fires]
      exact keeps
    | some timer =>
      rw [step_fire fires]
      by_cases paused : timer.pause.pid ∈ s.procs.pausedProcs
      · rw [Procs.resume_of_mem paused]
        intro pause listed inForce
        have ended := (timely timer ⟨position, rfl, fires, paused⟩).2
        have other : pause.pid ≠ timer.pause.pid := fun same =>
          ended pause (mem_filter.mpr ⟨listed, decide_eq_true same⟩) inForce
        simpa [other] using keeps pause listed inForce
      · rw [Procs.resume_of_notMem paused]
        exact keeps

theorem respects_iff_timely (agrees : s.procs.Agrees) (keeps : s.KeepsPaused)
    (action : PauseAction) : s.Respects action (step lookupNodePID s action) ↔ s.Timely action := by
  by_cases fires : ∃ position, action = .fire position
  · obtain ⟨position, rfl⟩ := fires
    exact respects_fire_iff keeps position
  · refine iff_of_true (respects_of_not_fire agrees keeps fun position isFire =>
      fires ⟨position, isFire⟩) fun timer resumes => ?_
    obtain ⟨position, isFire, _⟩ := resumes
    exact absurd ⟨position, isFire⟩ fires

theorem run_keepsPaused {actions : List PauseAction}
    (timely : ∀ before action, before ++ [action] <+: actions →
      (run lookupNodePID before).Timely action) : (run lookupNodePID actions).KeepsPaused := by
  refine Run.holds_of_conditions
    (motive := fun actions => (run lookupNodePID actions).KeepsPaused) ?_
    (fun before action keeps now => ?_) timely
  · intro pause listed
    cases listed
  · rw [run, foldl_concat]
    exact ((respects_iff_timely (run_agrees before) keeps action).mpr now).keeps

end

end PauseState

open PauseState

/-- Every pause keeps its process stopped for its time, no timer ends a later pause and a clear
leaves no process stopped, exactly if every timer that continues a process belongs to its last pause
and fires when no pause of the process is in force. -/
theorem pauses_respected_iff_timely (lookupNodePID : String → Int) (actions : List PauseAction) :
    (∀ before action, before ++ [action] <+: actions →
        (run lookupNodePID before).Respects action (run lookupNodePID (before ++ [action]))) ↔
      ∀ before action, before ++ [action] <+: actions →
        (run lookupNodePID before).Timely action := by
  refine Run.forall_actions_iff fun before action _ timely => ?_
  simp only [run, foldl_concat]
  exact respects_iff_timely (run_agrees before) (run_keepsPaused timely) action

/-- The timer of a pause of 100 ms ends one of 1000 ms, and a timer from before a clear ends a pause
that has no end of its own. -/
theorem earlier_timer_ends_later_pause :
    ¬ (run (fun _ => 7) [.pause "n1" 100, .pause "n1" 1000, .advance 100000000,
        .fire 0]).KeepsPaused ∧
      ¬ (run (fun _ => 7) [.pause "n1" 1000, .clear, .pause "n1" 0, .advance 1000000000,
        .fire 0]).KeepsPaused := by
  decide +kernel

end OpenThesis.Guest
