import OpenThesis.Fault.Replay
import OpenThesis.SnapshotTree.Path

/-!
# The worker pool

Workers explore in parallel (`internal/orchestrator/pool.go`), each with its own tree. Not in the
program: `applied`, the faults of the burst under way, and `trail`, those up to a snapshot.
-/

namespace OpenThesis.Orchestrator

open Fault SnapshotTree

universe u

/-- A worker with its own tree. -/
structure PoolWorker where
  tree : Tree := newTree
  frontier : List ID := []
  rootID : Option ID := none
  fe : Option ID := none
  bursting : Bool := false
  stepHint : Nat := 0
  currentTimeNS : UInt64 := 0
  currentFaultMask : UInt16 := 0
  pendingFaults : List ScheduleEntry := []
  snapshotFaults : Std.ExtTreeMap ID (List ScheduleEntry) := ∅
  applied : List ScheduleEntry := []
  trail : Std.ExtTreeMap ID (List (List ScheduleEntry)) := ∅

/-- What a worker does. Coverage hashes, random states and the identifiers
that the hypervisor assigns are arbitrary. -/
inductive WorkerAction where
  | setupRootSnapshot (hypID : ID) (coverage rngState : UInt64)
  | takeStep
  | restoreVM (snapshotID : ID) (restored : Bool)
  | hit (kind : Kind) (target targetB : String) (params : Params)
  | runForInstructions (virtualNS : UInt64)
  | childSnapshot (childHypID : ID) (coverage rngState : UInt64)
  | runGC (frontierIDs : List ID)

namespace PoolWorker

def setupRootSnapshot (w : PoolWorker) (hypID : ID) (coverage rngState : UInt64) : PoolWorker :=
  match w.rootID with
  | some _ => w
  | none =>
    match w.tree.create SnapshotTree.rootID hypID w.currentTimeNS coverage rngState 0 0 with
    | .error _ => w
    | .ok (rootID, tree) =>
      { w with
        tree
        rootID := some rootID
        frontier := w.frontier ++ [rootID]
        trail := w.trail.insert rootID [] }

/-- Restore a snapshot that was on the frontier, and reset the mask and the pending faults. The
hypervisor may fail. -/
def restoreVM (w : PoolWorker) (snapshotID : ID) (restored : Bool) : PoolWorker :=
  if snapshotID ∈ w.frontier then
    match w.tree.get snapshotID with
    | .error _ => { w with fe := some snapshotID, bursting := false }
    | .ok snap =>
      if restored then
        { w with
          fe := some snapshotID
          bursting := true
          currentTimeNS := snap.timeNS
          currentFaultMask := 0
          pendingFaults := []
          applied := [] }
      else { w with fe := some snapshotID, bursting := false }
  else w

def entry (w : PoolWorker) (kind : Kind) (target targetB : String) (params : Params) :
    ScheduleEntry :=
  { step := w.stepHint, faultKind := kind, target, targetB, params,
    virtualTimeNS := w.currentTimeNS }

def hit (w : PoolWorker) (kind : Kind) (e : ScheduleEntry) : PoolWorker :=
  { w with
    currentFaultMask := w.currentFaultMask ||| kindToMask kind
    pendingFaults := w.pendingFaults ++ [e]
    applied := w.applied ++ [e] }

def maybeChildSnapshot (w : PoolWorker) (maxDepth : UInt32) (childHypID : ID)
    (coverage rngState : UInt64) : PoolWorker :=
  match w.fe with
  | none => w
  | some snapshotID =>
    match w.tree.get snapshotID with
    | .error _ => w
    | .ok parent =>
      if parent.depth ≥ maxDepth then w
      else
        match w.tree.create snapshotID childHypID w.currentTimeNS coverage rngState 0 0 with
        | .error _ => w
        | .ok (childID, tree) =>
          { w with
            tree
            frontier := w.frontier ++ [childID]
            snapshotFaults :=
              if w.pendingFaults.isEmpty then w.snapshotFaults
              else w.snapshotFaults.insert childID w.pendingFaults
            trail :=
              w.trail.insert childID ((w.trail[snapshotID]?).getD [] ++ [w.applied]) }

def runGC (w : PoolWorker) (frontierIDs : List ID) : PoolWorker :=
  let frontierIDs := frontierIDs ++ w.fe.toList
  if frontierIDs.isEmpty then w else { w with tree := (w.tree.prune frontierIDs).2 }

end PoolWorker

/-- Workers that share a step counter and a schedule. -/
structure VMPool (W : Type u) where
  states : Nat := 0
  faultSchedule : Schedule := newSchedule
  workers : W → PoolWorker := fun _ => {}

namespace VMPool

variable {W : Type u} [DecidableEq W]

def setWorker (p : VMPool W) (w : W) (worker : PoolWorker) : VMPool W :=
  { p with workers := Function.update p.workers w worker }

/-- A step of worker `w`; the counter of states is shared. -/
def act (maxDepth : UInt32) (p : VMPool W) (w : W) : WorkerAction → VMPool W
  | .setupRootSnapshot hypID coverage rngState =>
    p.setWorker w ((p.workers w).setupRootSnapshot hypID coverage rngState)
  | .takeStep =>
    let p := { p with states := p.states + 1 }
    p.setWorker w { p.workers w with stepHint := p.states }
  | .restoreVM snapshotID restored =>
    p.setWorker w ((p.workers w).restoreVM snapshotID restored)
  | .hit kind target targetB params =>
    if (p.workers w).bursting then
      let e := (p.workers w).entry kind target targetB params
      let p := p.setWorker w ((p.workers w).hit kind e)
      { p with faultSchedule := p.faultSchedule.record e }
    else p
  | .runForInstructions virtualNS =>
    p.setWorker w
      { p.workers w with currentTimeNS := (p.workers w).currentTimeNS + virtualNS }
  | .childSnapshot childHypID coverage rngState =>
    if (p.workers w).bursting then
      p.setWorker w
        ((p.workers w).maybeChildSnapshot maxDepth childHypID coverage rngState)
    else p
  | .runGC frontierIDs => p.setWorker w ((p.workers w).runGC frontierIDs)

def run (maxDepth : UInt32) (p : VMPool W) (actions : List (W × WorkerAction)) : VMPool W :=
  actions.foldl (fun p (w, action) => p.act maxDepth w action) p

@[simp]
theorem run_nil (maxDepth : UInt32) (p : VMPool W) : p.run maxDepth [] = p :=
  rfl

@[simp]
theorem run_cons (maxDepth : UInt32) (p : VMPool W) (w : W) (action : WorkerAction)
    (actions : List (W × WorkerAction)) :
    p.run maxDepth ((w, action) :: actions) = (p.act maxDepth w action).run maxDepth actions :=
  rfl

end VMPool

end OpenThesis.Orchestrator
