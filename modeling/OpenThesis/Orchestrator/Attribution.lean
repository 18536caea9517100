import OpenThesis.Fault.Mask
import OpenThesis.Orchestrator.Fidelity
import OpenThesis.Orchestrator.Step

/-!
# Attribution of violations

In serial mode a violation takes its fault kinds from the restored snapshot, not from the burst that
found it.
-/

namespace OpenThesis.Orchestrator

open Fault SnapshotTree Explorer Keyed List

universe u

def countedAlong {α : Type u} (apply : FaultState → α → FaultState) (kind : α → Kind) :
    List α → FaultState → List Kind
  | [], _ => []
  | item :: items, s =>
    let after := apply s item
    let rest := countedAlong apply kind items after
    if after.currentFaultCount = s.currentFaultCount then rest else kind item :: rest

namespace OrchestratorState

variable {R : Type u} (c : Config) (env : Environment) (inj : Injectors R) (input : StepInput)
  (o : OrchestratorState R)

def injectedKinds : List Kind :=
  if o.faultSchedule.replay then
    let (entries, faultSchedule) := o.faultSchedule.faultsAt input.step
    countedAlong (replayFault c env) (·.faultKind) entries
      { o.beginStep.toFaultState with faultSchedule }
  else
    countedAlong (fun s d => d.inject c env input.step s)
      (fun d => (d.entry c input.step).faultKind) (o.decisions c inj input)
      (o.cleared c env inj input)

end OrchestratorState

namespace BurstInput

def printed (input : BurstInput) : Nat :=
  (input.outputs.map (·.violations.length)).sum

def reported (input : BurstInput) (forked : Bool) : Nat :=
  if forked then input.waited.length + input.printed
  else if input.burstErr.isSome then 0 else input.printed

end BurstInput

namespace Serial

variable {R : Type u} (cfg : SerialConfig) (env : Environment) (inj : Injectors R)

def snapshotMask (tree : SnapshotTree.Tree) (id : ID) : UInt16 :=
  if id ≠ 0 then
    match tree.get id with
    | .ok snap => snap.faultKindMask
    | .error _ => 0
  else 0

theorem mask_reportViolation (tree : SnapshotTree.Tree) {v : Violation}
    (unmasked : v.faultKindMask = 0) :
    (reportViolation tree v).faultKindMask = snapshotMask tree v.snapshotID := by
  unfold reportViolation snapshotMask
  by_cases notRoot : v.snapshotID ≠ 0
  · rw [if_pos notRoot, if_pos notRoot]
    dsimp only
    cases tree.get v.snapshotID with
    | ok snap => rfl
    | error => exact unmasked
  · rw [if_neg notRoot, if_neg notRoot]
    exact unmasked

theorem snapshotMask_of_grows {t next : SnapshotTree.Tree} {parent snap : Snapshot}
    (grows : Grows t next parent snap) {id : ID} (older : id ≠ snap.id) :
    snapshotMask next id = snapshotMask t id := by
  unfold snapshotMask SnapshotTree.Tree.get
  rw [grows.lookup, if_neg older]
  by_cases isParent : id = snap.parentID
  · rw [if_pos isParent, isParent, grows.parentLive]
  · rw [if_neg isParent]

/-- The current snapshot is the restored one, and it has the given mask. -/
structure Observes (entry : ID) (mask : UInt16) (o : Serial R) : Prop where
  sound : Sound o.tree
  current : o.tree.current = entry
  masked : snapshotMask o.tree entry = mask

/-- From `o` to `after` a number of violations was recorded, all with the mask of
the restored snapshot. -/
structure Records (entry : ID) (mask : UInt16) (n : Nat) (o after : Serial R) : Prop where
  observes : Observes entry mask after
  faults : after.faults = o.faults
  found : ∃ found, after.violations = o.violations ++ found ∧ found.length = n ∧
    ∀ v ∈ found, v.faultKindMask = mask

section

variable {entry : ID} {mask : UInt16} {o between after : Serial R} {n m : Nat}

omit cfg env inj in
theorem Records.trans (first : Records entry mask n o between)
    (second : Records entry mask m between after) : Records entry mask (n + m) o after := by
  rcases first.found with ⟨found, violations, length, masks⟩
  rcases second.found with ⟨more, moreViolations, moreLength, moreMasks⟩
  refine ⟨second.observes, second.faults.trans first.faults, found ++ more, ?_, ?_, ?_⟩
  · rw [moreViolations, violations, append_assoc]
  · rw [length_append, length, moreLength]
  · exact forall_mem_append.mpr ⟨masks, moreMasks⟩

omit cfg env inj in
theorem Observes.records (observes : Observes entry mask after)
    (faults : after.faults = o.faults) (violations : after.violations = o.violations) :
    Records entry mask 0 o after := by
  refine ⟨observes, faults, [], ?_, rfl, by simp⟩
  rw [violations, append_nil]

theorem records_processViolation (observes : Observes entry mask o) (burstInsns : UInt64)
    (parsed : String × String) :
    Records entry mask 1 o (o.processViolation cfg burstInsns parsed) := by
  refine ⟨⟨observes.sound, observes.current, observes.masked⟩, rfl, [_], rfl, rfl, ?_⟩
  intro v member
  rw [mem_singleton.mp member, mask_reportViolation o.tree rfl, observes.current]
  exact observes.masked

omit cfg env inj in
theorem takeSnapshotPaused_cases (o : Serial R) (parentID : ID) (snapshot : Option Paused) :
    o.takeSnapshotPaused parentID snapshot = o ∨
      ∃ next parent snap, o.takeSnapshotPaused parentID snapshot = { o with tree := next } ∧
        Grows o.tree next parent snap := by
  cases snapshot with
  | none => exact Or.inl rfl
  | some paused =>
    cases live : o.tree.snapshots[parentID]? with
    | none =>
      simp only [takeSnapshotPaused, create_of_missing live]
      exact Or.inl trivial
    | some parent =>
      rcases create_of_live live paused.hypID o.currentTimeNS paused.covHash paused.rngState
        o.faults.currentFaultCount o.faults.currentFaultKindMask with
        ⟨next, snap, created, grows, -⟩
      simp only [takeSnapshotPaused, created]
      exact Or.inr ⟨next, parent, snap, rfl, grows⟩

omit cfg env inj in
theorem records_takeSnapshotPaused (observes : Observes entry mask o) (parentID : ID)
    (snapshot : Option Paused) :
    Records entry mask 0 o (o.takeSnapshotPaused parentID snapshot) := by
  rcases takeSnapshotPaused_cases o parentID snapshot with
    same | ⟨next, parent, snap, eq, grows⟩
  · rw [same]
    exact observes.records rfl rfl
  · rw [eq]
    have live : entry ∈ o.tree.snapshots := observes.current ▸ observes.sound.currentLive
    rcases mem_iff_lookup.mp live with ⟨found, lookup⟩
    have older : entry ≠ snap.id := by
      rw [grows.id]
      exact Nat.ne_of_lt (observes.sound.logged.lt_nextID lookup)
    have observed : Observes entry mask { o with tree := next } :=
      { sound := grows.sound observes.sound
        current := grows.current.trans observes.current
        masked := (snapshotMask_of_grows grows older).trans observes.masked }
    exact observed.records rfl rfl

omit cfg env inj in
theorem records_processLifecycle (observes : Observes entry mask o) (snapshot : Option Paused)
    (eventType : String) : Records entry mask 0 o (o.processLifecycle snapshot eventType) := by
  unfold processLifecycle
  split
  · have forked : Observes entry mask { o with preforkMode := true } :=
      ⟨observes.sound, observes.current, observes.masked⟩
    have switched : Records entry mask 0 o { o with preforkMode := true } :=
      forked.records rfl rfl
    exact switched.trans (records_takeSnapshotPaused forked _ snapshot)
  · exact observes.records rfl rfl

omit cfg env inj in
theorem records_foldl {α : Type} {process : Serial R → α → Serial R} {count : α → Nat}
    (each : ∀ o item, Observes entry mask o → Records entry mask (count item) o (process o item))
    (items : List α) (observes : Observes entry mask o) :
    Records entry mask (items.map count).sum o (items.foldl process o) := by
  induction items generalizing o with
  | nil => exact observes.records rfl rfl
  | cons item items ih =>
    have first := each o item observes
    exact first.trans (ih first.observes)

section

variable (observes : Observes entry mask o)

include observes

theorem records_violations (burstInsns : UInt64) (parsed : List (String × String)) :
    Records entry mask parsed.length o (parsed.foldl (processViolation cfg burstInsns) o) := by
  have folded := records_foldl
    (fun o item observes => records_processViolation cfg observes burstInsns item) parsed observes
  rw [map_const', sum_replicate_nat, Nat.mul_one] at folded
  exact folded

theorem records_processChunk (snapshot : Option Paused) (out : Output) :
    Records entry mask out.violations.length o (o.processChunk cfg snapshot out) := by
  have reported := records_violations cfg observes o.currentBurstInsns out.violations
  have events := records_foldl
    (fun o event observes => records_processLifecycle observes snapshot event)
    out.lifecycleEvents reported.observes
  rw [map_const', sum_replicate_nat, Nat.mul_zero] at events
  exact reported.trans events

theorem records_observe (input : BurstInput) :
    Records entry mask input.printed o (o.observe cfg entry input) := by
  have processed : Records entry mask input.printed o
      (o.processOutput cfg input.preforkSnapshot input.outputs) :=
    records_foldl (fun o out observes => records_processChunk cfg observes _ out) _ observes
  unfold observe
  dsimp only
  split
  · exact processed
  · split
    · exact processed.trans (records_takeSnapshotPaused processed.observes entry _)
    · exact processed

theorem records_runBurst (input : BurstInput) :
    Records entry mask (input.reported (o.preforkMode && cfg.backend = .gvisor)) o
      (o.runBurst cfg entry input).1 := by
  unfold runBurst BurstInput.reported
  split
  · have waited := records_violations cfg observes 0 input.waited
    let later := input.waited.foldl (processViolation cfg 0) o
    have advanced : Records entry mask 0 later
        { later with currentTimeNS := later.currentTimeNS + input.burstInsns * 128 } :=
      Observes.records ⟨waited.observes.sound, waited.observes.current, waited.observes.masked⟩
        rfl rfl
    exact (waited.trans advanced).trans (records_observe cfg advanced.observes input)
  · cases input.burstErr with
    | some err => exact observes.records rfl rfl
    | none =>
      dsimp only
      have advanced : Records entry mask 0 o
          { o with
            currentTimeNS :=
              o.currentTimeNS + input.burstInsns * 128 + input.drainInsns * 128 } :=
        Observes.records ⟨observes.sound, observes.current, observes.masked⟩ rfl rfl
      have observed := advanced.trans (records_observe cfg advanced.observes input)
      rw [Nat.zero_add] at observed
      exact observed

end

end

def reportedIn (o : Serial R) (entry : ID) (input : BurstInput) : Nat :=
  if o.tree.snapshots[entry]? = none ∨ o.restoreError cfg entry input ≠ none then 0
  else input.reported ((o.suspendPrefork cfg entry).preforkMode && cfg.backend = .gvisor)

def entered (o : Serial R) (entry : ID) : Serial R :=
  (({ o with states := o.states + 1 } : Serial R).suspendPrefork cfg entry).enter entry

def injectedIn (o : Serial R) (entry : ID) (input : BurstInput) : List Kind :=
  let entered := (o.startBurst input).entered cfg entry
  entered.faults.injectedKinds cfg.toConfig env inj (entered.stepInput input)

variable {o : Serial R} {entry : ID} {snap : Snapshot}

omit cfg env inj in
theorem enter_of_live (live : o.tree.snapshots[entry]? = some snap) :
    o.enter entry =
      { o with tree := { o.tree with current := entry }, currentTimeNS := snap.timeNS } := by
  have member : entry ∈ o.tree.snapshots := mem_iff_lookup.mpr ⟨snap, live⟩
  simp only [enter, SnapshotTree.Tree.get, live, SnapshotTree.Tree.setCurrent, if_pos member]

omit cfg env inj in
theorem observes_enter (sound : Sound o.tree) (live : o.tree.snapshots[entry]? = some snap)
    (faults : OrchestratorState R) :
    Observes entry (snapshotMask o.tree entry) { o.enter entry with faults } := by
  rw [enter_of_live live]
  have member : entry ∈ o.tree.snapshots := mem_iff_lookup.mpr ⟨snap, live⟩
  exact ⟨(Change.move member).sound sound, rfl, rfl⟩

omit cfg env inj in
theorem enter_frame (o : Serial R) (entry : ID) :
    (o.enter entry).preforkMode = o.preforkMode ∧ (o.enter entry).violations = o.violations := by
  unfold enter
  dsimp only
  split <;> split <;> exact ⟨rfl, rfl⟩

def injected (o : Serial R) (entry : ID) (input : BurstInput) : Serial R :=
  let o := o.entered cfg entry
  { o with faults := o.faults.injectFaults cfg.toConfig env inj (o.stepInput input) }

theorem step_cases (o : Serial R) (entry : ID) (input : BurstInput) :
    ((o.step cfg env inj entry input).1.tree = o.tree ∧
      (o.step cfg env inj entry input).1.violations = o.violations ∧
      o.reportedIn cfg entry input = 0) ∨
    ∃ snap, o.tree.snapshots[entry]? = some snap ∧ o.step cfg env inj entry input =
        (o.injected cfg env inj entry input).runBurst cfg entry input ∧
      o.reportedIn cfg entry input =
        input.reported ((o.suspendPrefork cfg entry).preforkMode && cfg.backend = .gvisor) := by
  cases live : o.tree.snapshots[entry]? with
  | none =>
    left
    simp only [step, reportedIn, SnapshotTree.Tree.hypervisorID, live, true_or, if_true, and_self]
  | some snap =>
    cases failed : o.restoreError cfg entry input with
    | some err =>
      left
      have again : ({ o with states := o.states + 1 } : Serial R).restoreError cfg entry input =
          some err := failed
      simp only [step, reportedIn, SnapshotTree.Tree.hypervisorID, live, failed, again,
        ne_eq, reduceCtorEq, not_false_eq_true, or_true, if_true, and_true]
      exact ⟨rfl, rfl⟩
    | none =>
      right
      have again : ({ o with states := o.states + 1 } : Serial R).restoreError cfg entry input =
          none := failed
      refine ⟨snap, rfl, ?_, ?_⟩
      · simp only [step, SnapshotTree.Tree.hypervisorID, live, again, injected, entered]
      · simp only [reportedIn, live, failed, ne_eq, reduceCtorEq, not_true_eq_false, or_false,
          if_false]

theorem records_step (sound : Sound o.tree) (live : o.tree.snapshots[entry]? = some snap)
    (input : BurstInput) : Records entry (snapshotMask o.tree entry)
      (input.reported ((o.suspendPrefork cfg entry).preforkMode && cfg.backend = .gvisor))
      (o.injected cfg env inj entry input)
      ((o.injected cfg env inj entry input).runBurst cfg entry input).1 := by
  let before := ({ o with states := o.states + 1 } : Serial R).suspendPrefork cfg entry
  have observes : Observes entry (snapshotMask o.tree entry)
      (o.injected cfg env inj entry input) := @observes_enter _ before entry snap sound live _
  have records := records_runBurst cfg observes input
  have mode : (o.injected cfg env inj entry input).preforkMode =
      (o.suspendPrefork cfg entry).preforkMode := (enter_frame before entry).1
  rw [mode] at records
  exact records

theorem found_step (sound : Sound o.tree) (entry : ID) (input : BurstInput) :
    Sound (o.step cfg env inj entry input).1.tree ∧
      ∃ found, (o.step cfg env inj entry input).1.violations = o.violations ++ found ∧
        found.length = o.reportedIn cfg entry input ∧
        ∀ v ∈ found, v.faultKindMask = snapshotMask o.tree entry := by
  rcases step_cases cfg env inj o entry input with
    ⟨tree, violations, none⟩ | ⟨snap, live, burst, reported⟩
  · rw [tree, violations, none]
    exact ⟨sound, [], (append_nil _).symm, rfl, by simp⟩
  · have records := records_step cfg env inj sound live input
    rw [burst, reported]
    rcases records.found with ⟨found, violations, length, masks⟩
    refine ⟨records.observes.sound, found, ?_, length, masks⟩
    rw [violations]
    exact congrArg (· ++ found) (enter_frame _ entry).2

theorem sound_act (sound : Sound o.tree) (action : SerialAction) :
    Sound (o.act cfg env inj action).tree := by
  cases action with
  | rootSnapshot snapshot =>
    rcases takeSnapshotPaused_cases o SnapshotTree.rootID snapshot with
      same | ⟨next, parent, snap, eq, grows⟩
    · exact (congrArg (fun o : Serial R => Sound o.tree) same).mpr sound
    · exact (congrArg (fun o : Serial R => Sound o.tree) eq).mpr (grows.sound sound)
  | step entry input =>
    exact (@found_step _ cfg env inj (o.startBurst input) sound entry input).1
  | pruneSnapshots frontierIDs => exact (change_apply o.tree (.prune frontierIDs)).sound sound

theorem sound_run (faults : OrchestratorState R) (actions : List SerialAction) :
    Sound (run cfg env inj { faults } actions).tree :=
  foldlRecOn (motive := fun o : Serial R => Sound o.tree) actions (act cfg env inj)
    sound_newTree fun _ sound action _ => sound_act cfg env inj sound action

/-- In every run, a step attributes its violations to the kinds that it injected exactly when it
reports none, or the restored snapshot has the mask of these kinds. -/
theorem step_attributes_injected_kinds_iff (faults : OrchestratorState R)
    (actions : List SerialAction) (entry : ID) (input : BurstInput) :
    let o := run cfg env inj { faults } actions
    let after := o.act cfg env inj (.step entry input)
    let injected := o.injectedIn cfg env inj entry input
    (∀ v ∈ after.violations.drop o.violations.length,
        v.faultKindMask = kindsMask injected) ↔
      (o.reportedIn cfg entry input = 0 ∨ snapshotMask o.tree entry = kindsMask injected) := by
  intro o after injected
  have sound : Sound (o.startBurst input).tree := sound_run cfg env inj faults actions
  rcases (found_step cfg env inj sound entry input).2 with ⟨found, violations, length, masks⟩
  have dropped : after.violations.drop o.violations.length = found := by
    rw [show after.violations = o.violations ++ found from violations, drop_left]
  have count : found.length = o.reportedIn cfg entry input := length
  rw [dropped, ← count]
  constructor
  · intro attributed
    cases found with
    | nil => exact Or.inl rfl
    | cons v found =>
      have recorded := masks v mem_cons_self
      exact Or.inr (recorded.symm.trans (attributed v mem_cons_self))
  · rintro (none | same) v member
    · rw [length_eq_zero_iff.mp none] at member
      exact absurd member not_mem_nil
    · exact (masks v member).trans same

/-- The root snapshot was taken without faults, so a violation in the first burst is recorded
without its termination. -/
theorem first_burst_loses_termination :
    let cfg : SerialConfig := { oneNode with seed := 7, maxDepth := 10 }
    let inj : Injectors Unit :=
      { faultNode := some { noNodeFaults with shouldTerminate := fun _ rng => (true, rng) } }
    let o := run cfg accepting inj { faults := { faultRng := () } }
      [.rootSnapshot (some { hypID := 1 })]
    let input : BurstInput :=
      { stepCount := 0, outputs := [{ violations := [("safe", "safe")] }] }
    let after := o.act cfg accepting inj (.step 1 input)
    o.injectedIn cfg accepting inj 1 input = [.terminate] ∧
      after.violations.map (·.faultKindMask) = [0] ∧ kindsMask [.terminate] ≠ 0 := by
  decide

end Serial

end OpenThesis.Orchestrator
