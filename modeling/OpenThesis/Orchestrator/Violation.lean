import OpenThesis.Orchestrator.Trail

/-!
# Schedules of violations

`buildViolationSchedule` numbers a schedule along the path in the tree, two ahead of replay.
-/

namespace OpenThesis.Orchestrator

open Fault SnapshotTree Forest Loop Keyed List

def restep (step : Nat) (faults : List ScheduleEntry) : List ScheduleEntry :=
  faults.map fun e => { e with step }

namespace PoolWorker

def recordKept (w : PoolWorker) (sched : Schedule) (position : ID × Nat) : Schedule :=
  (restep position.2 (w.faultsOf position.1)).foldl Schedule.record sched

def pathSchedule (w : PoolWorker) (path : List ID) : Schedule :=
  let sched := (path.tail.zipIdx 1).foldl w.recordKept newSchedule
  (restep path.length w.pendingFaults).foldl Schedule.record sched

def buildViolationSchedule (w : PoolWorker) (snapID : ID) (fuel : Nat) : Option Schedule :=
  (w.tree.pathToRoot snapID fuel).map w.pathSchedule

end PoolWorker

def stepped : Nat → List (List ScheduleEntry) → List ScheduleEntry
  | _, [] => []
  | first, faults :: bursts => restep first faults ++ stepped (first + 1) bursts

variable (first : Nat) {faults : List ScheduleEntry} {bursts : List (List ScheduleEntry)}

theorem stepped_append (bursts later : List (List ScheduleEntry)) :
    stepped first (bursts ++ later) =
      stepped first bursts ++ stepped (first + bursts.length) later := by
  induction bursts generalizing first with
  | nil => rfl
  | cons faults bursts ih =>
    rw [cons_append, stepped, ih, stepped, append_assoc, length_cons,
      Nat.add_right_comm, Nat.add_assoc]

theorem step_of_mem_restep {step : Nat} {e : ScheduleEntry} (member : e ∈ restep step faults) :
    e.step = step := by
  rcases mem_map.mp member with ⟨original, -, rfl⟩
  rfl

theorem le_of_mem_stepped {first : Nat} {e : ScheduleEntry} (member : e ∈ stepped first bursts) :
    first ≤ e.step := by
  induction bursts generalizing first with
  | nil => simp [stepped] at member
  | cons faults bursts ih =>
    rcases mem_append.mp member with here | later
    · rw [step_of_mem_restep here]
    · exact Nat.le_of_succ_le (ih later)

theorem stepSorted_stepped (bursts : List (List ScheduleEntry)) :
    StepSorted (stepped first bursts) := by
  induction bursts generalizing first with
  | nil => exact Pairwise.nil
  | cons faults bursts ih =>
    apply pairwise_append.mpr
    refine ⟨?_, ih (first + 1), ?_⟩
    · apply pairwise_of_forall_mem_list
      intro e member other otherMember
      rw [step_of_mem_restep member, step_of_mem_restep otherMember]
    · intro e member other otherMember
      rw [step_of_mem_restep member]
      exact Nat.le_of_succ_le (le_of_mem_stepped otherMember)

theorem atStep_stepped_of_lt {first step : Nat} (early : step < first)
    (bursts : List (List ScheduleEntry)) : atStep step (stepped first bursts) = [] := by
  apply atStep_eq_nil
  intro e member
  exact Nat.ne_of_gt (Nat.lt_of_lt_of_le early (le_of_mem_stepped member))

theorem atStep_stepped (first k : Nat) (bursts : List (List ScheduleEntry)) :
    atStep (first + k) (stepped first bursts) = restep (first + k) ((bursts[k]?).getD []) := by
  induction bursts generalizing first k with
  | nil => rfl
  | cons faults bursts ih =>
    rw [stepped, atStep_append]
    cases k with
    | zero =>
      have all : atStep first (restep first faults) = restep first faults :=
        atStep_eq_self fun e member => step_of_mem_restep member
      rw [Nat.add_zero, all, atStep_stepped_of_lt (Nat.lt_succ_self first), append_nil]
      rfl
    | succ k =>
      have none : atStep (first + (k + 1)) (restep first faults) = [] := by
        apply atStep_eq_nil
        intro e member
        rw [step_of_mem_restep member]
        omega
      have shifted : first + (k + 1) = first + 1 + k := by omega
      rw [none, nil_append, shifted, ih, List.getElem?_cons_succ]

theorem map_reload_stepped (bursts : List (List ScheduleEntry)) :
    (stepped first bursts).map (·.reload) =
      stepped first (bursts.map fun faults => faults.map (·.reload)) := by
  induction bursts generalizing first with
  | nil => rfl
  | cons faults bursts ih =>
    rw [stepped, map_append, ih, map_cons, stepped]
    congr 1
    simp only [restep, map_map]
    rfl

namespace PoolWorker

variable {w : PoolWorker}

theorem Tracked.faults_of_path (tracked : w.Tracked) {id : ID} {path : List ID}
    (ancestry : Ancestry w.tree.parent? id path) (live : id ∈ w.tree.snapshots)
    (notRoot : id ≠ SnapshotTree.rootID) {bursts : List (List ScheduleEntry)}
    (led : w.trail[id]? = some bursts) : path.tail.map w.faultsOf = [] :: bursts := by
  induction ancestry generalizing bursts with
  | root top =>
    rcases mem_iff_lookup.mp live with ⟨snap, found⟩
    rw [parent?_of_live found notRoot] at top
    contradiction
  | @child id above path up rest ih =>
    rcases parent?_eq_some_iff.mp up with ⟨-, snap, found, rfl⟩
    rw [tail_append_of_ne_nil rest.ne_nil, map_append]
    rcases tracked.led found notRoot with
      ⟨parentRoot, first, faultless⟩ | ⟨before, parentLed, here⟩
    · have top : Ancestry w.tree.parent? snap.parentID [SnapshotTree.rootID] := by
        rw [parentRoot]
        exact .root (parent?_rootID _)
      obtain rfl := rest.unique top
      cases led.symm.trans first
      rw [map_singleton, faultless]
      rfl
    · have parentNotRoot := tracked.notRoot_of_trail parentLed
      have parentLive := tracked.rooted found notRoot
      cases led.symm.trans here
      rw [ih parentLive parentNotRoot parentLed]
      rfl

theorem foldl_recordKept (w : PoolWorker) (ids : List ID) (first : Nat) {sched : Schedule}
    (recording : sched.replay = false) :
    (ids.zipIdx first).foldl w.recordKept sched =
      { sched with entries := sched.entries ++ stepped first (ids.map w.faultsOf) } := by
  induction ids generalizing first sched with
  | nil =>
    rw [zipIdx_nil, foldl_nil, map_nil, stepped, append_nil]
  | cons id ids ih =>
    let burst := restep first (w.faultsOf id)
    have rest := @ih (first + 1) { sched with entries := sched.entries ++ burst } recording
    have here : w.recordKept sched (id, first) =
        { sched with entries := sched.entries ++ burst } :=
      Schedule.foldl_record recording burst
    rw [zipIdx_cons, foldl_cons, here, rest, append_assoc, map_cons, stepped]

theorem pathSchedule_eq (w : PoolWorker) {path : List ID} (nonempty : path ≠ []) :
    w.pathSchedule path =
      { entries := stepped 1 (path.tail.map w.faultsOf ++ [w.pendingFaults]) } := by
  have length : path.length = 1 + (path.tail.map w.faultsOf).length := by
    have positive := length_pos_of_ne_nil nonempty
    rw [length_map, length_tail]
    omega
  have kept := @foldl_recordKept w path.tail 1 newSchedule rfl
  have last : stepped path.length [w.pendingFaults] = restep path.length w.pendingFaults :=
    append_nil _
  simp only [pathSchedule]
  rw [kept, Schedule.foldl_record rfl, stepped_append, ← length, last]
  rfl

theorem Tracked.buildViolationSchedule (tracked : w.Tracked) {snapID : ID}
    (live : snapID ∈ w.tree.snapshots) (notRoot : snapID ≠ SnapshotTree.rootID)
    {before : List (List ScheduleEntry)} (led : w.trail[snapID]? = some before) :
    Yields (w.buildViolationSchedule snapID)
      { entries := stepped 2 (before ++ [w.applied]) } := by
  rcases tracked.sound.logged.exists_ancestry snapID with ⟨path, ancestry⟩
  have kept := tracked.faults_of_path ancestry live notRoot led
  have built : w.pathSchedule path = { entries := stepped 2 (before ++ [w.applied]) } := by
    rw [pathSchedule_eq w ancestry.ne_nil, kept, tracked.pending]
    rfl
  rw [← built]
  exact (yields_pathToRoot tracked.sound.logged ancestry).map w.pathSchedule

end PoolWorker

def unstepped (e : ScheduleEntry) : ScheduleEntry :=
  { e with step := 0 }

/-- Each call returns the faults of one burst, in order and with nothing else,
as they come out of the file. -/
def ReplaysBursts (bursts answers : List (List ScheduleEntry)) : Prop :=
  answers.map (·.map unstepped) = bursts.map (·.map fun e => unstepped e.reload)

def lateAnswers (bursts : List (List ScheduleEntry)) : List (List ScheduleEntry) :=
  (range bursts.length).map fun step =>
    atStep step (stepped 2 (bursts.map (·.map (·.reload))))

theorem replayed_late {last : Nat} (calls : last + 1 = bursts.length) :
    Schedule.replayed { entries := stepped 2 bursts } last = .ok (lateAnswers bursts) := by
  rw [Schedule.replayed_eq, map_reload_stepped, range_eq_range',
    answersFrom_of_sorted (stepSorted_stepped _ _), lateAnswers, ← calls, range_eq_range']
  exact fun e _ => Nat.zero_le e.step

theorem ReplaysBursts.length_eq (replays : ReplaysBursts bursts (lateAnswers bursts)) {k : Nat}
    (burst : bursts[k]? = some faults) :
    faults.length = (atStep k (stepped 2 (bursts.map (·.map (·.reload))))).length := by
  have inside : k < bursts.length := (List.getElem?_eq_some_iff.mp burst).1
  have called := congrArg (·[k]?) replays
  simp only [lateAnswers, map_map, List.getElem?_map, List.getElem?_range inside, burst,
    Option.map_some, Option.some.injEq, Function.comp_apply] at called
  have lengths := congrArg List.length called
  rw [length_map, length_map] at lengths
  exact lengths.symm

theorem length_atStep_late (bursts : List (List ScheduleEntry)) (k : Nat) :
    (atStep (2 + k) (stepped 2 (bursts.map (·.map (·.reload))))).length =
      ((bursts[k]?).getD []).length := by
  rw [atStep_stepped, restep, length_map, List.getElem?_map]
  cases bursts[k]? with
  | none => rfl
  | some faults => exact length_map _

theorem ReplaysBursts.faultless (replays : ReplaysBursts bursts (lateAnswers bursts)) (k : Nat)
    (burst : bursts[k]? = some faults) : faults = [] := by
  induction k using Nat.twoStepInduction generalizing faults with
  | zero =>
    have count := replays.length_eq burst
    rw [atStep_stepped_of_lt Nat.zero_lt_two] at count
    exact length_eq_zero_iff.mp count
  | one =>
    have count := replays.length_eq burst
    rw [atStep_stepped_of_lt Nat.one_lt_two] at count
    exact length_eq_zero_iff.mp count
  | more k ih =>
    have count := replays.length_eq burst
    have inside : k < bursts.length := by
      have bound := (List.getElem?_eq_some_iff.mp burst).1
      omega
    have earlier : bursts[k]? = some bursts[k] := List.getElem?_eq_getElem inside
    rw [Nat.add_comm k 2, length_atStep_late, earlier, Option.getD_some, ih earlier] at count
    exact length_eq_zero_iff.mp count

theorem stepped_of_faultless (faultless : ∀ faults ∈ bursts, faults = []) :
    stepped first bursts = [] := by
  induction bursts generalizing first with
  | nil => rfl
  | cons faults bursts ih =>
    rcases forall_mem_cons.mp faultless with ⟨rfl, rest⟩
    rw [stepped, ih (first + 1) rest]
    rfl

theorem replaysBursts_late_iff (bursts : List (List ScheduleEntry)) :
    ReplaysBursts bursts (lateAnswers bursts) ↔ ∀ faults ∈ bursts, faults = [] := by
  constructor
  · intro replays faults member
    rcases List.getElem?_of_mem member with ⟨k, burst⟩
    exact replays.faultless k burst
  · intro faultless
    have reloaded : ∀ faults ∈ bursts.map (·.map (·.reload)), faults = [] := by
      intro faults member
      rcases mem_map.mp member with ⟨original, inside, rfl⟩
      rw [faultless original inside]
      rfl
    have answered : (lateAnswers bursts).map (·.map unstepped) = bursts.map fun _ => [] := by
      simp only [lateAnswers, stepped_of_faultless 2 reloaded, atStep, filter_nil,
        map_const', length_range, map_replicate, map_nil]
    rw [ReplaysBursts, answered]
    apply map_congr_left
    intro faults member
    rw [faultless faults member]
    rfl

namespace VMPool

universe u

variable {W : Type u} [DecidableEq W]

/-- The schedule of a violation exists, and replay returns the faults of the bursts that led to the
violation exactly when there were none. -/
theorem violation_replays_iff_faultless (maxDepth : UInt32) (actions : List (W × WorkerAction))
    (w : W) {snapID : ID}
    (bursting : ((run maxDepth ({} : VMPool W) actions).workers w).bursting = true)
    (restored : ((run maxDepth ({} : VMPool W) actions).workers w).fe = some snapID) :
    ∃ schedule before,
      Yields (((run maxDepth ({} : VMPool W) actions).workers w).buildViolationSchedule snapID)
        schedule ∧
      ((run maxDepth ({} : VMPool W) actions).workers w).trail[snapID]? = some before ∧
      ((∃ answers, schedule.replayed before.length = .ok answers ∧
        ReplaysBursts (before ++ [((run maxDepth ({} : VMPool W) actions).workers w).applied])
          answers) ↔
        ∀ faults ∈ before ++ [((run maxDepth ({} : VMPool W) actions).workers w).applied],
          faults = []) := by
  have tracked := tracked_run maxDepth actions w
  rcases tracked.exploring bursting with ⟨id, explored, member, notRoot⟩
  obtain rfl : id = snapID := Option.some.inj (explored.symm.trans restored)
  rcases mem_iff_lookup.mp member with ⟨snap, live⟩
  rcases tracked.led_of_live live notRoot with ⟨before, led⟩
  refine ⟨_, before, tracked.buildViolationSchedule member notRoot led, led, ?_⟩
  have calls : before.length + 1 =
      (before ++ [((run maxDepth ({} : VMPool W) actions).workers w).applied]).length := by
    rw [length_append, length_singleton]
  rw [← replaysBursts_late_iff]
  exact Schedule.exists_replayed_iff (replayed_late calls) _

def oneFault : List (Unit × WorkerAction) :=
  [((), .setupRootSnapshot 10 0 0), ((), .takeStep), ((), .restoreVM 1 true),
   ((), .hit .hang "db" "" [])]

/-- The fault of the first burst is not replayed in the first burst: it is
scheduled for step 2. -/
theorem violation_replays_two_steps_late :
    let worker := (run 5 ({} : VMPool Unit) oneFault).workers ()
    worker.bursting = true ∧ worker.fe = some 1 ∧ worker.trail[1]? = some [] ∧
      worker.applied.map (·.faultKind) = [.hang] ∧
      ∃ schedule, worker.buildViolationSchedule 1 3 = some schedule ∧
        schedule.entries.map (·.step) = [2] ∧
        ¬ ∃ answers, schedule.replayed 0 = .ok answers ∧
          ReplaysBursts [worker.applied] answers := by
  intro worker
  refine ⟨by decide, by decide, by rfl, by decide, ⟨_, rfl, by rfl, ?_⟩⟩
  rintro ⟨answers, replayed, replays⟩
  have empty : answers = [[]] := by
    rw [Schedule.replayed_eq, Except.ok.injEq] at replayed
    rw [← replayed]
    rfl
  rw [empty] at replays
  have lengths : [0] = [1] := congrArg (fun answers => answers.map List.length) replays
  exact absurd lengths (by decide)

theorem violation_replays_faultless_burst :
    let worker := (run 5 ({} : VMPool Unit) (oneFault.take 3)).workers ()
    ∃ schedule before, Yields (worker.buildViolationSchedule 1) schedule ∧
      worker.trail[1]? = some before ∧
      ((∃ answers, schedule.replayed before.length = .ok answers ∧
        ReplaysBursts (before ++ [worker.applied]) answers) ↔
        ∀ faults ∈ before ++ [worker.applied], faults = []) :=
  violation_replays_iff_faultless 5 (oneFault.take 3) () (by decide) (by decide)

end VMPool

end OpenThesis.Orchestrator
