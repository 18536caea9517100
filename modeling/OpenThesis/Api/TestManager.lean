import Mathlib.Data.Finset.Insert
import Mathlib.Data.Finset.Erase
import Mathlib.Logic.Function.Basic
import OpenThesis.Run.Core

/-!
# The test manager

Concurrent calls (`internal/api/testmanager.go`). A step is what happens under the lock, an access
to the store, which may fail, or a look at the context of a run.
-/

namespace OpenThesis.Api

open Function

inductive RunStatus
  | pending
  | running
  | completed
  | failed
  | cancelled
  deriving DecidableEq, Repr

def RunStatus.terminal : RunStatus → Bool
  | pending | running => false
  | completed | failed | cancelled => true

/-- A stored run. -/
structure Run where
  status : RunStatus
  startedAt : Option Nat := none
  deriving DecidableEq, Repr

/-- How far the execution of a run is. -/
inductive Execution
  | notLaunched
  | launched
  | loaded (run : Run)
  | executing
  | executed (failed : Bool)
  | reloaded (run : Run) (failed : Bool)
  | decided (run : Run)
  | leaving
  | returned
  deriving DecidableEq, Repr

def Execution.active : Execution → Bool
  | notLaunched | leaving | returned => false
  | _ => true

/-- How far a call that cancels is. -/
inductive Cancelling
  | notCalled
  | signalled (key rid : String)
  | loaded (rid : String) (run : Run)
  | refused
  | succeeded (rid : String)
  deriving DecidableEq, Repr

def jobKey (pid tid : String) : String :=
  pid ++ ":" ++ tid

/-- The entry of a test. Its function does something only if a schedule made the entry. -/
structure TestJob where
  schedule : Bool
  runCancels : Finset String := ∅
  deriving DecidableEq

/-- The manager, the stored runs, the goroutines and the calls; then the tests started and not
stopped since, and whether the process is gone. -/
structure TestManager where
  active : String → Option TestJob := fun _ => none
  stored : String → Option Run := fun _ => none
  testOf : String → String := fun _ => ""
  contextDone : String → Bool := fun _ => false
  execution : String → Execution := fun _ => .notLaunched
  starting : Nat → Option String := fun _ => none
  cancelling : Nat → Cancelling := fun _ => .notCalled
  scheduled : String → Bool := fun _ => false
  panicked : Bool := false

/-- The steps. The flags say whether the access to the store succeeds. -/
inductive Action where
  | startTest (call : Nat) (pid tid : String)
  | saveTest (call : Nat) (ok : Bool)
  | stopTest (pid tid : String)
  | createRun (pid tid rid : String)
  | launchRun (rid : String)
  | loadRun (rid : String) (ok : Bool)
  | saveRunning (rid : String) (ok : Bool) (now : Nat)
  | execute (rid : String) (failed : Bool)
  | reloadRun (rid : String) (ok : Bool)
  | decideStatus (rid : String)
  | saveFinal (rid : String) (ok : Bool)
  | leave (rid : String)
  | signalCancel (call : Nat) (pid tid rid : String)
  | loadCancel (call : Nat) (ok : Bool)
  | saveCancel (call : Nat) (ok : Bool)

namespace TestManager

variable (m : TestManager)

def setExecution (rid : String) (execution : Execution) : TestManager :=
  { m with execution := update m.execution rid execution }

def setCancelling (call : Nat) (cancelling : Cancelling) : TestManager :=
  { m with cancelling := update m.cancelling call cancelling }

def saveRun (rid : String) (run : Run) (ok : Bool) : TestManager :=
  if ok then { m with stored := update m.stored rid (some run) } else m

def forgetCancel (key rid : String) : TestManager :=
  { m with
    active := update m.active key
      ((m.active key).map fun job => { job with runCancels := job.runCancels.erase rid }) }

def startTest (call : Nat) (key : String) : Except String TestManager :=
  if (m.active key).isSome then .error "test is already running"
  else .ok
    { m with
      active := update m.active key (some { schedule := true })
      starting := update m.starting call (some key) }

def saveTest (call : Nat) (ok : Bool) : TestManager :=
  match m.starting call with
  | none => m
  | some key =>
    let m := { m with starting := update m.starting call none }
    if ok then { m with scheduled := update m.scheduled key true }
    else { m with active := update m.active key none }

def stopTest (key : String) : TestManager :=
  { m with
    active := update m.active key none
    scheduled := update m.scheduled key false }

def createRun (key rid : String) : TestManager :=
  if (m.stored rid).isSome then m
  else
    { m with
      stored := update m.stored rid (some { status := .pending })
      testOf := update m.testOf rid key }

def launchRun (rid : String) : TestManager :=
  if (m.stored rid).isSome ∧ m.execution rid = .notLaunched then
    let key := m.testOf rid
    let job := (m.active key).getD { schedule := false }
    { m with
      active := update m.active key
        (some { job with runCancels := insert rid job.runCancels })
      execution := update m.execution rid .launched }
  else m

def loadRun (rid : String) (ok : Bool) : TestManager :=
  match m.execution rid with
  | .launched =>
    match (if ok then m.stored rid else none) with
    | none => m.setExecution rid .leaving
    | some run => m.setExecution rid (.loaded run)
  | _ => m

def saveRunning (rid : String) (ok : Bool) (now : Nat) : TestManager :=
  match m.execution rid with
  | .loaded run =>
    (m.saveRun rid { run with status := .running, startedAt := some now } ok).setExecution rid
      .executing
  | _ => m

def execute (rid : String) (failed : Bool) : TestManager :=
  match m.execution rid with
  | .executing => m.setExecution rid (.executed failed)
  | _ => m

def reloadRun (rid : String) (ok : Bool) : TestManager :=
  match m.execution rid with
  | .executed failed =>
    match (if ok then m.stored rid else none) with
    | none => m.setExecution rid .leaving
    | some run => m.setExecution rid (.reloaded run failed)
  | _ => m

def finalStatus (contextDone failed : Bool) : RunStatus :=
  if contextDone then .cancelled else if failed then .failed else .completed

def decideStatus (rid : String) : TestManager :=
  match m.execution rid with
  | .reloaded run failed =>
    match run.startedAt with
    | none => { m with panicked := true }
    | some _ =>
      m.setExecution rid
        (.decided { run with status := finalStatus (m.contextDone rid) failed })
  | _ => m

def saveFinal (rid : String) (ok : Bool) : TestManager :=
  match m.execution rid with
  | .decided run => (m.saveRun rid run ok).setExecution rid .leaving
  | _ => m

def leave (rid : String) : TestManager :=
  match m.execution rid with
  | .leaving => (m.forgetCancel (m.testOf rid) rid).setExecution rid .returned
  | _ => m

def signalCancel (call : Nat) (key rid : String) : TestManager :=
  match m.cancelling call with
  | .notCalled =>
    let known := (m.active key).any fun job => rid ∈ job.runCancels
    let m := m.setCancelling call (.signalled key rid)
    if known then
      { m with contextDone := update m.contextDone rid true }.forgetCancel key rid
    else m
  | _ => m

def loadCancel (call : Nat) (ok : Bool) : TestManager :=
  match m.cancelling call with
  | .signalled key rid =>
    match (if ok ∧ m.testOf rid = key then m.stored rid else none) with
    | none => m.setCancelling call .refused
    | some run =>
      if run.status.terminal then m.setCancelling call .refused
      else m.setCancelling call (.loaded rid run)
  | _ => m

def saveCancel (call : Nat) (ok : Bool) : TestManager :=
  match m.cancelling call with
  | .loaded rid run =>
    (m.saveRun rid { run with status := .cancelled } ok).setCancelling call
      (if ok then .succeeded rid else .refused)
  | _ => m

/-- One step of a call or of an execution. -/
def step : Action → TestManager
  | .startTest call pid tid =>
    if (m.starting call).isSome then m
    else
      match m.startTest call (jobKey pid tid) with
      | .error _ => m
      | .ok next => next
  | .saveTest call ok => m.saveTest call ok
  | .stopTest pid tid => m.stopTest (jobKey pid tid)
  | .createRun pid tid rid => m.createRun (jobKey pid tid) rid
  | .launchRun rid => m.launchRun rid
  | .loadRun rid ok => m.loadRun rid ok
  | .saveRunning rid ok now => m.saveRunning rid ok now
  | .execute rid failed => m.execute rid failed
  | .reloadRun rid ok => m.reloadRun rid ok
  | .decideStatus rid => m.decideStatus rid
  | .saveFinal rid ok => m.saveFinal rid ok
  | .leave rid => m.leave rid
  | .signalCancel call pid tid rid => m.signalCancel call (jobKey pid tid) rid
  | .loadCancel call ok => m.loadCancel call ok
  | .saveCancel call ok => m.saveCancel call ok

def act (action : Action) : TestManager :=
  if m.panicked then m else m.step action

def run (actions : List Action) : TestManager :=
  actions.foldl act m

theorem step_startTest (call : Nat) (pid tid : String) :
    m.step (.startTest call pid tid) = m ∨
      m.starting call = none ∧ m.active (jobKey pid tid) = none ∧
        m.step (.startTest call pid tid) =
          { m with
            active := update m.active (jobKey pid tid) (some { schedule := true })
            starting := update m.starting call (some (jobKey pid tid)) } := by
  by_cases busy : (m.starting call).isSome = true
  · exact Or.inl (if_pos busy)
  · by_cases present : (m.active (jobKey pid tid)).isSome = true
    · left
      simp [step, startTest, busy, present]
    · right
      refine ⟨Option.not_isSome_iff_eq_none.mp busy, Option.not_isSome_iff_eq_none.mp present, ?_⟩
      simp [step, startTest, busy, present]

variable {m}

theorem act_of_not_panicked (alive : m.panicked = false) (action : Action) :
    m.act action = m.step action := by
  rw [act, alive, if_neg Bool.false_ne_true]

theorem act_of_panicked (gone : m.panicked = true) (action : Action) : m.act action = m := by
  rw [act, gone, if_pos rfl]

end TestManager

end OpenThesis.Api
