import OpenThesis.Orchestrator.Pool
import OpenThesis.SnapshotTree.Prune

/-!
# Trails of bursts

The fault lists along the path to a snapshot are the trail of the bursts that led to it.
-/

namespace OpenThesis.Orchestrator

open Fault SnapshotTree Forest Keyed

namespace PoolWorker

def faultsOf (w : PoolWorker) (id : ID) : List ScheduleEntry :=
  (w.snapshotFaults[id]?).getD []

/-- The bursts up to a snapshot: none for the root snapshot, and one more than for its parent for
any other. -/
def LedTo (w : PoolWorker) (id parentID : ID) : Prop :=
  (parentID = SnapshotTree.rootID ∧ w.trail[id]? = some [] ∧ w.faultsOf id = []) ∨
    ∃ before, w.trail[parentID]? = some before ∧
      w.trail[id]? = some (before ++ [w.faultsOf id])

/-- Each live node knows the faults that led to it. -/
structure Tracked (w : PoolWorker) : Prop where
  sound : Sound w.tree
  rooted : Rooted w.tree
  untrailed : w.trail[SnapshotTree.rootID]? = none
  fresh : ∀ ⦃id : ID⦄, w.tree.nextID ≤ id → w.snapshotFaults[id]? = none
  led : ∀ ⦃id : ID⦄ ⦃snap : Snapshot⦄, w.tree.snapshots[id]? = some snap →
    id ≠ SnapshotTree.rootID → w.LedTo id snap.parentID
  pushed : ∀ id ∈ w.frontier, id ≠ SnapshotTree.rootID
  exploring : w.bursting = true → ∃ id ∈ w.fe, id ∈ w.tree.snapshots ∧
    id ≠ SnapshotTree.rootID
  pending : w.pendingFaults = w.applied

theorem tracked_initial : Tracked {} where
  sound := sound_newTree
  rooted := rooted_newTree
  untrailed := Std.ExtTreeMap.getElem?_empty
  fresh := fun _ _ => Std.ExtTreeMap.getElem?_empty
  led := by
    intro id snap live notRoot
    rw [newTree_lookup, if_neg notRoot] at live
    contradiction
  pushed := by simp
  exploring := by simp
  pending := rfl

section

variable {w : PoolWorker}

theorem Tracked.notRoot_of_trail (tracked : w.Tracked) {id : ID}
    {bursts : List (List ScheduleEntry)} (led : w.trail[id]? = some bursts) :
    id ≠ SnapshotTree.rootID := by
  rintro rfl
  rw [tracked.untrailed] at led
  contradiction

theorem Tracked.frame (tracked : w.Tracked) {after : PoolWorker} (tree : after.tree = w.tree)
    (trail : after.trail = w.trail) (faults : after.snapshotFaults = w.snapshotFaults)
    (frontier : after.frontier = w.frontier)
    (exploring : after.bursting = true → ∃ id ∈ after.fe, id ∈ w.tree.snapshots ∧
      id ≠ SnapshotTree.rootID)
    (pending : after.pendingFaults = after.applied) : after.Tracked where
  sound := tree ▸ tracked.sound
  rooted := tree ▸ tracked.rooted
  untrailed := trail ▸ tracked.untrailed
  fresh := by
    rw [tree, faults]
    exact tracked.fresh
  led := by
    simp only [LedTo, faultsOf, tree, trail, faults]
    exact tracked.led
  pushed := frontier ▸ tracked.pushed
  exploring := by
    rw [tree]
    exact exploring
  pending := pending

theorem Tracked.led_of_live (tracked : w.Tracked) {id : ID} {snap : Snapshot}
    (live : w.tree.snapshots[id]? = some snap) (notRoot : id ≠ SnapshotTree.rootID) :
    ∃ bursts, w.trail[id]? = some bursts := by
  rcases tracked.led live notRoot with ⟨-, led, -⟩ | ⟨before, -, led⟩
  · exact ⟨[], led⟩
  · exact ⟨_, led⟩

theorem Tracked.grow (tracked : w.Tracked) {next : Tree} {parent snap : Snapshot}
    (grows : Grows w.tree next parent snap) {after : PoolWorker}
    {bursts : List (List ScheduleEntry)}
    (tree : after.tree = next) (trail : after.trail = w.trail.insert snap.id bursts)
    (faults : ∀ id, id ≠ snap.id → after.snapshotFaults[id]? = w.snapshotFaults[id]?)
    (frontier : after.frontier = w.frontier ++ [snap.id]) (fe : after.fe = w.fe)
    (bursting : after.bursting = w.bursting) (pending : after.pendingFaults = after.applied)
    (led : after.LedTo snap.id snap.parentID) : after.Tracked := by
  have logged := tracked.sound.logged
  have notRoot := grows.id_ne_rootID logged
  constructor
  case sound =>
    rw [tree]
    exact grows.sound tracked.sound
  case rooted =>
    rw [tree]
    exact grows.rooted logged tracked.rooted
  case untrailed =>
    rw [trail, lookup_insert, if_neg notRoot.symm]
    exact tracked.untrailed
  case fresh =>
    intro id bound
    rw [tree, grows.nextID] at bound
    rw [faults id]
    · exact tracked.fresh (Nat.le_of_succ_le bound)
    · rw [grows.id]
      exact Nat.ne_of_gt bound
  case led =>
    intro id found live idNotRoot
    rw [tree] at live
    rcases grows.lookup_cases live with ⟨rfl, rfl⟩ | ⟨before, old, notNew, rfl⟩
    · exact led
    · have parentOld := grows.parentID_ne_id logged old idNotRoot
      simp only [LedTo, faultsOf, trail, lookup_insert, if_neg notNew, if_neg parentOld,
        faults id notNew]
      exact tracked.led old idNotRoot
  case pushed =>
    intro id member
    rw [frontier] at member
    rcases List.mem_append.mp member with older | new
    · exact tracked.pushed id older
    · rw [List.mem_singleton.mp new]
      exact notRoot
  case exploring =>
    intro burst
    rw [bursting] at burst
    rcases tracked.exploring burst with ⟨id, explored, live, idNotRoot⟩
    rw [fe, tree]
    exact ⟨id, explored, grows.mem_of_live logged live, idNotRoot⟩
  case pending => exact pending

theorem kept_self {faults : Std.ExtTreeMap ID (List ScheduleEntry)}
    (pending : List ScheduleEntry) {childID : ID} (unused : faults[childID]? = none) :
    ((if pending.isEmpty then faults else faults.insert childID pending)[childID]?).getD [] =
      pending := by
  split
  · rename_i faultless
    rw [unused, List.isEmpty_iff.mp faultless]
    rfl
  · rw [lookup_insert, if_pos rfl, Option.getD_some]

section

variable (tracked : w.Tracked)

include tracked

theorem Tracked.setupRootSnapshot (hypID : ID)
    (coverage rngState : UInt64) : (w.setupRootSnapshot hypID coverage rngState).Tracked := by
  unfold PoolWorker.setupRootSnapshot
  cases w.rootID with
  | some => exact tracked
  | none =>
    rcases mem_iff_lookup.mp tracked.sound.logged.rootLive with ⟨root, live⟩
    rcases create_of_live live hypID w.currentTimeNS coverage rngState 0 0 with
      ⟨next, snap, created, grows, parentEq, -⟩
    simp only [created]
    refine tracked.grow grows rfl rfl (fun _ _ => rfl) rfl rfl rfl tracked.pending ?_
    left
    refine ⟨parentEq, ?_, ?_⟩
    · rw [lookup_insert, if_pos rfl]
    · have unused := tracked.fresh (Nat.le_of_eq grows.id.symm)
      simp only [faultsOf, unused, Option.getD_none]

theorem Tracked.restoreVM (snapshotID : ID) (restored : Bool) :
    (w.restoreVM snapshotID restored).Tracked := by
  unfold PoolWorker.restoreVM
  by_cases pushed : snapshotID ∈ w.frontier
  · rw [if_pos pushed]
    cases live : w.tree.snapshots[snapshotID]? with
    | none =>
      simp only [SnapshotTree.Tree.get, live]
      exact tracked.frame rfl rfl rfl rfl (by simp) tracked.pending
    | some snap =>
      simp only [SnapshotTree.Tree.get, live]
      cases restored with
      | false => exact tracked.frame rfl rfl rfl rfl (by simp) tracked.pending
      | true =>
        refine tracked.frame rfl rfl rfl rfl (fun _ => ⟨snapshotID, rfl, ?_, ?_⟩) rfl
        · exact mem_iff_lookup.mpr ⟨snap, live⟩
        · exact tracked.pushed snapshotID pushed
  · rw [if_neg pushed]
    exact tracked

theorem Tracked.hit (kind : Kind) (e : ScheduleEntry) : (w.hit kind e).Tracked := by
  refine tracked.frame rfl rfl rfl rfl tracked.exploring ?_
  simp only [PoolWorker.hit, tracked.pending]

theorem Tracked.maybeChildSnapshot (bursting : w.bursting = true)
    (maxDepth : UInt32) (childHypID : ID) (coverage rngState : UInt64) :
    (w.maybeChildSnapshot maxDepth childHypID coverage rngState).Tracked := by
  rcases tracked.exploring bursting with ⟨snapshotID, explored, member, notRoot⟩
  rcases mem_iff_lookup.mp member with ⟨parent, live⟩
  rcases tracked.led_of_live live notRoot with ⟨before, led⟩
  rcases create_of_live live childHypID w.currentTimeNS coverage rngState 0 0 with
    ⟨next, snap, created, grows, parentEq, -⟩
  have found : w.fe = some snapshotID := explored
  simp only [PoolWorker.maybeChildSnapshot, found, SnapshotTree.Tree.get, live, created]
  by_cases deep : parent.depth ≥ maxDepth
  · rw [if_pos deep]
    exact tracked
  · rw [if_neg deep]
    refine tracked.grow grows rfl rfl ?_ rfl found.symm rfl tracked.pending ?_
    · intro id notNew
      dsimp only
      split
      · rfl
      · rw [lookup_insert, if_neg notNew]
    · right
      have parentOld : snap.parentID ≠ snap.id := grows.parentID_ne tracked.sound.logged
      refine ⟨before, ?_, ?_⟩
      · rw [lookup_insert, if_neg parentOld, parentEq]
        exact led
      · have unused := tracked.fresh (Nat.le_of_eq grows.id.symm)
        rw [lookup_insert, if_pos rfl, led, Option.getD_some, faultsOf, kept_self _ unused,
          tracked.pending]

theorem Tracked.runGC (frontierIDs : List ID) : (w.runGC frontierIDs).Tracked := by
  unfold PoolWorker.runGC
  by_cases empty : (frontierIDs ++ w.fe.toList).isEmpty
  · simp only [empty, if_true]
    exact tracked
  · simp only [empty, Bool.false_eq_true, if_false]
    have pruned := pruneExact_of_listed tracked.sound.listed tracked.sound.currentLive
      (frontierIDs ++ w.fe.toList)
    constructor
    case sound => exact (change_apply w.tree (.prune _)).sound tracked.sound
    case rooted => exact rooted_prune tracked.sound.listed tracked.rooted _
    case untrailed => exact tracked.untrailed
    case fresh =>
      intro id bound
      exact tracked.fresh (pruned.nextID ▸ bound)
    case led =>
      intro id snap live notRoot
      rcases pruned.fields live with ⟨before, old, rfl⟩
      have led := tracked.led old notRoot
      exact led
    case pushed => exact tracked.pushed
    case exploring =>
      intro bursting
      rcases tracked.exploring bursting with ⟨id, explored, live, notRoot⟩
      have asked : id ∈ frontierIDs ++ w.fe.toList :=
        List.mem_append_right _ (Option.mem_toList.mpr explored)
      refine ⟨id, explored, (pruned.kept id).mpr ⟨live, Or.inr ⟨id, asked, live, ?_⟩⟩, notRoot⟩
      exact AncestorOrSelf.refl _ id
    case pending => exact tracked.pending

end

end

end PoolWorker

namespace VMPool

universe u

variable {W : Type u} [DecidableEq W]

theorem forall_setWorker {motive : PoolWorker → Prop} {p : VMPool W}
    (before : ∀ v, motive (p.workers v)) (w : W) {worker : PoolWorker} (after : motive worker) :
    ∀ v, motive ((p.setWorker w worker).workers v) := by
  intro v
  by_cases same : v = w
  · subst same
    simp only [setWorker, Function.update_self]
    exact after
  · simp only [setWorker, Function.update_of_ne same]
    exact before v

theorem tracked_act {p : VMPool W} (tracked : ∀ v, (p.workers v).Tracked) (maxDepth : UInt32)
    (w : W) (action : WorkerAction) : ∀ v, ((p.act maxDepth w action).workers v).Tracked := by
  cases action with
  | setupRootSnapshot hypID coverage rngState =>
    exact forall_setWorker tracked w ((tracked w).setupRootSnapshot hypID coverage rngState)
  | takeStep =>
    exact forall_setWorker tracked w
      ((tracked w).frame rfl rfl rfl rfl (tracked w).exploring (tracked w).pending)
  | restoreVM snapshotID restored =>
    exact forall_setWorker tracked w ((tracked w).restoreVM snapshotID restored)
  | hit kind target targetB params =>
    by_cases bursting : (p.workers w).bursting = true
    · simp only [act, bursting, if_true]
      exact forall_setWorker tracked w ((tracked w).hit kind _)
    · simp only [act, bursting, Bool.false_eq_true, if_false]
      exact tracked
  | runForInstructions virtualNS =>
    exact forall_setWorker tracked w
      ((tracked w).frame rfl rfl rfl rfl (tracked w).exploring (tracked w).pending)
  | childSnapshot childHypID coverage rngState =>
    by_cases bursting : (p.workers w).bursting = true
    · simp only [act, bursting, if_true]
      exact forall_setWorker tracked w
        ((tracked w).maybeChildSnapshot bursting maxDepth childHypID coverage rngState)
    · simp only [act, bursting, Bool.false_eq_true, if_false]
      exact tracked
  | runGC frontierIDs =>
    exact forall_setWorker tracked w ((tracked w).runGC frontierIDs)

theorem tracked_run (maxDepth : UInt32) (actions : List (W × WorkerAction)) (w : W) :
    ((run maxDepth ({} : VMPool W) actions).workers w).Tracked := by
  have initially : ∀ v, (({} : VMPool W).workers v).Tracked := fun _ => PoolWorker.tracked_initial
  exact List.foldlRecOn (motive := fun p : VMPool W => ∀ v, (p.workers v).Tracked) actions _
    initially (fun _ tracked step _ => tracked_act tracked maxDepth step.1 step.2) w

end VMPool

end OpenThesis.Orchestrator
