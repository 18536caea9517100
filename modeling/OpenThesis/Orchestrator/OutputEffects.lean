import OpenThesis.Orchestrator.SdkOutput

/-!
# Effects of output

When the two loops over the output of a burst do the same, and when boosts are those of a single
evaluation (`internal/orchestrator/explore.go`).
-/

namespace OpenThesis.Orchestrator

open SnapshotTree Explorer List

universe u v

namespace Serial

variable {R : Type v}

theorem violations_foldl_processViolation (cfg : SerialConfig) (burstInsns : UInt64)
    (parsed : List (String × String)) (o : Serial R) :
    (parsed.foldl (processViolation cfg burstInsns) o).violations =
      o.violations ++ parsed.map fun item =>
        reportViolation o.tree
          { property := item.1, message := item.2, snapshotID := o.tree.current, seed := cfg.seed,
            step := o.currentStep, burstInsns } := by
  induction parsed generalizing o with
  | nil => simp
  | cons item parsed ih =>
    rw [foldl_cons, ih, map_cons, append_cons]
    rfl

theorem takeSnapshotPaused_view (o : Serial R) (parentID : ID) (snapshot : Option Paused) :
    (o.takeSnapshotPaused parentID snapshot).violations = o.violations ∧
      (o.takeSnapshotPaused parentID snapshot).preforkMode = o.preforkMode := by
  unfold takeSnapshotPaused
  split
  · exact ⟨rfl, rfl⟩
  · split <;> exact ⟨rfl, rfl⟩

variable (snapshot : Option Paused)

theorem violations_processLifecycle (o : Serial R) (eventType : String) :
    (o.processLifecycle snapshot eventType).violations = o.violations := by
  unfold processLifecycle
  split
  · exact (takeSnapshotPaused_view _ _ _).1
  · rfl

theorem preforkMode_processLifecycle (o : Serial R) (eventType : String) :
    (o.processLifecycle snapshot eventType).preforkMode =
      (o.preforkMode || eventType == "openthesis_prefork") := by
  unfold processLifecycle
  split
  · next first =>
    rw [(takeSnapshotPaused_view _ _ _).2, first.1]
    simp
  · next other =>
    by_cases prefork : eventType = "openthesis_prefork"
    · have already : o.preforkMode = true := by
        simpa [prefork] using other
      simp [already]
    · simp [prefork]

theorem preforkMode_foldl_processLifecycle (events : List String) (o : Serial R) :
    (events.foldl (processLifecycle snapshot) o).preforkMode =
      (o.preforkMode || events.contains "openthesis_prefork") := by
  induction events generalizing o with
  | nil => simp
  | cons event events ih =>
    rw [foldl_cons, ih, preforkMode_processLifecycle, contains_cons, Bool.or_assoc, Bool.beq_comm]

end Serial

theorem burstInsns_reportViolation (tree : SnapshotTree.Tree) (v : Violation) :
    (reportViolation tree v).burstInsns = v.burstInsns := by
  unfold reportViolation
  split
  · dsimp only
    split <;> rfl
  · rfl

namespace SdkState

variable {n : Nat} {S : Type u} {R : Type v}

/-- The same coverage, the same evaluations for the next push, the same choices and
violations, and the same flags. -/
structure SameEffect (a b : SdkState n S R) : Prop where
  coverage : a.explorer.coverage = b.explorer.coverage
  stepSometimesEvals : a.explorer.stepSometimesEvals = b.explorer.stepSometimesEvals
  stepSometimesAllEvals : a.explorer.stepSometimesAllEvals = b.explorer.stepSometimesAllEvals
  stepReachableEvals : a.explorer.stepReachableEvals = b.explorer.stepReachableEvals
  stepChoiceEvents : a.stepChoiceEvents = b.stepChoiceEvents
  violations : a.explorer.violations = b.explorer.violations
  faultQuietUntil : a.faultQuietUntil = b.faultQuietUntil
  preforkMode : a.preforkMode = b.preforkMode

/-- No sub-goals, no random choices, no violations of a burst with a length, no first prefork event,
and no longer quiet period. -/
structure Plain (o : SdkState n S R) (chunk : SdkChunk) : Prop where
  subGoals : chunk.subGoalEvals = []
  choices : chunk.randomChoices = []
  violations : chunk.violations = [] ∨ o.currentBurstInsns = 0
  prefork : o.preforkMode = true ∨
    ∀ evt ∈ chunk.lifecycleEvents, evt.eventType ≠ "openthesis_prefork"
  quiet : ∀ evt ∈ chunk.lifecycleEvents, evt.eventType = "openthesis_stop_faults" →
    0 < evt.durationSeconds → evt.deadline ≤ o.faultQuietUntil

theorem quietAfter_eq_self_iff {quietUntil : Int} {evt : ParsedLifecycle} :
    quietAfter quietUntil evt = quietUntil ↔ (evt.eventType = "openthesis_stop_faults" →
      0 < evt.durationSeconds → evt.deadline ≤ quietUntil) := by
  unfold quietAfter
  split_ifs with longer
  · obtain ⟨stop, positive, later⟩ := longer
    constructor
    · intro same _ _
      exact Int.le_of_eq same
    · intro bounded
      exact absurd (bounded stop positive) (Int.not_le.mpr later)
  · refine iff_of_true rfl fun stop positive => ?_
    by_contra later
    exact longer ⟨stop, positive, Int.not_le.mp later⟩

theorem le_quietAfter (quietUntil : Int) (evt : ParsedLifecycle) :
    quietUntil ≤ quietAfter quietUntil evt := by
  unfold quietAfter
  split_ifs with longer
  · exact Int.le_of_lt longer.2.2
  · exact Int.le_refl _

theorem le_foldl_quietAfter (events : List ParsedLifecycle) (quietUntil : Int) :
    quietUntil ≤ events.foldl quietAfter quietUntil := by
  induction events generalizing quietUntil with
  | nil => exact Int.le_refl _
  | cons evt events ih => exact Int.le_trans (le_quietAfter quietUntil evt) (ih _)

theorem foldl_quietAfter_eq_self_iff {events : List ParsedLifecycle} {quietUntil : Int} :
    events.foldl quietAfter quietUntil = quietUntil ↔
      ∀ evt ∈ events, quietAfter quietUntil evt = quietUntil := by
  induction events generalizing quietUntil with
  | nil => simp
  | cons evt events ih =>
    rw [foldl_cons, forall_mem_cons]
    constructor
    · intro same
      have first : quietAfter quietUntil evt = quietUntil := by
        have later := le_foldl_quietAfter events (quietAfter quietUntil evt)
        rw [same] at later
        exact Int.le_antisymm later (le_quietAfter quietUntil evt)
      rw [first] at same
      exact ⟨first, ih.mp same⟩
    · rintro ⟨first, rest⟩
      rw [first]
      exact ih.mpr rest

variable (cfg : SerialConfig) {o : SdkState n S R}

theorem waitForBurstDone_single (o : SdkState n S R) (chunk : SdkChunk) :
    (waitForBurstDone cfg [[chunk]] o).1 = o.awaitChunk cfg chunk := by
  unfold waitForBurstDone
  dsimp only [foldl_cons, foldl_nil]
  split <;> rfl

variable (snapshot : Option Paused)

theorem violations_eq_iff (o : SdkState n S R) (chunk : SdkChunk) :
    (o.awaitChunk cfg chunk).serial.violations =
        (o.processChunk cfg snapshot chunk).serial.violations ↔
      chunk.violations = [] ∨ o.currentBurstInsns = 0 := by
  rw [serial_awaitChunk, serial_processChunk, Serial.processChunk,
    Run.view_foldl Serial.violations (Serial.violations_processLifecycle snapshot),
    Serial.violations_foldl_processViolation, Serial.violations_foldl_processViolation,
    append_cancel_left_eq]
  have same : o.serial.currentBurstInsns = o.currentBurstInsns := rfl
  rw [same, SdkChunk.output]
  cases chunk.violations with
  | nil => simp
  | cons message messages =>
    constructor
    · intro equal
      have first := congrArg Violation.burstInsns (cons.inj equal).1
      rw [burstInsns_reportViolation, burstInsns_reportViolation] at first
      exact Or.inr first.symm
    · rintro (none | zero)
      · contradiction
      · rw [zero]

theorem preforkMode_foldl_processViolation (burstInsns : UInt64) (o : SdkState n S R)
    (chunk : SdkChunk) : (chunk.output.violations.foldl (Serial.processViolation cfg burstInsns)
      o.serial).preforkMode = o.preforkMode :=
  Run.view_foldl Serial.preforkMode (by intros; rfl) _ _

theorem preforkMode_awaitChunk (o : SdkState n S R) (chunk : SdkChunk) :
    (o.awaitChunk cfg chunk).serial.preforkMode = o.preforkMode := by
  rw [serial_awaitChunk, preforkMode_foldl_processViolation]

theorem preforkMode_eq_iff (o : SdkState n S R) (chunk : SdkChunk) :
    (o.awaitChunk cfg chunk).serial.preforkMode =
        (o.processChunk cfg snapshot chunk).serial.preforkMode ↔ o.preforkMode = true ∨
        ∀ evt ∈ chunk.lifecycleEvents, evt.eventType ≠ "openthesis_prefork" := by
  rw [preforkMode_awaitChunk, serial_processChunk, Serial.processChunk,
    Serial.preforkMode_foldl_processLifecycle, preforkMode_foldl_processViolation,
    SdkChunk.output]
  cases o.preforkMode with
  | true => simp
  | false => simp [eq_comm]

theorem processLifecycle_of_plain {evt : ParsedLifecycle}
    (prefork : o.preforkMode = true ∨ evt.eventType ≠ "openthesis_prefork")
    (quiet : quietAfter o.faultQuietUntil evt = o.faultQuietUntil) :
    o.processLifecycle snapshot evt = o := by
  have stays : o.enterPrefork snapshot evt = o := by
    unfold enterPrefork
    rw [if_neg]
    rintro ⟨first, off⟩
    rcases prefork with on | other
    · rw [on] at off
      contradiction
    · exact other first
  unfold processLifecycle
  rw [stays, quiet]

theorem processChunk_of_plain {chunk : SdkChunk} (plain : o.Plain chunk) :
    o.processChunk cfg snapshot chunk = o.awaitChunk cfg chunk := by
  have assertions : chunk.assertions.foldl processAssertion o =
      chunk.assertions.foldl recordEval o := by
    apply foldl_ext
    intro o a mem
    have none := filterMap_eq_nil_iff.mp plain.subGoals a mem
    unfold processAssertion
    rw [none]
  have violations : ∀ o' : SdkState n S R,
      chunk.violations.foldl (processViolation cfg o.currentBurstInsns) o' =
        chunk.violations.foldl (processViolation cfg 0) o' := by
    intro o'
    rcases plain.violations with none | zero
    · rw [none]
      rfl
    · rw [zero]
  have before : o.processChunk cfg snapshot chunk =
      chunk.lifecycleEvents.foldl (processLifecycle snapshot) (o.awaitChunk cfg chunk) := by
    unfold processChunk awaitChunk
    dsimp only
    rw [assertions, violations, plain.choices]
    rfl
  rw [before]
  refine foldlRecOn (motive := (· = o.awaitChunk cfg chunk)) _ _ rfl ?_
  rintro _ rfl evt mem
  have mode : (o.awaitChunk cfg chunk).preforkMode = o.preforkMode :=
    preforkMode_awaitChunk cfg o chunk
  have quiet : (o.awaitChunk cfg chunk).faultQuietUntil = o.faultQuietUntil :=
    congrArg Ledger.quietUntil (ledger_awaitChunk o cfg chunk)
  apply processLifecycle_of_plain
  · rw [mode]
    exact plain.prefork.imp_right fun others => others evt mem
  · rw [quiet]
    exact quietAfter_eq_self_iff.mpr (plain.quiet evt mem)

/-- The two loops have the same effect on the chunk exactly if it is plain. -/
theorem sameEffect_iff (cfg : SerialConfig) (snapshot : Option Paused) (o : SdkState n S R)
    (chunk : SdkChunk) :
    SameEffect (waitForBurstDone cfg [[chunk]] o).1 (o.processOutput cfg snapshot [chunk]) ↔
      o.Plain chunk := by
  have processed : o.processOutput cfg snapshot [chunk] = o.processChunk cfg snapshot chunk := rfl
  rw [waitForBurstDone_single, processed]
  constructor
  · intro same
    have waited := ledger_awaitChunk o cfg chunk
    have ledger := ledger_processChunk snapshot cfg o chunk
    constructor
    case subGoals =>
      have evals : (o.awaitChunk cfg chunk).ledger.subGoals =
          (o.processChunk cfg snapshot chunk).ledger.subGoals := same.stepSometimesAllEvals
      rw [waited, ledger] at evals
      exact self_eq_append_right.mp evals
    case choices =>
      have events : (o.awaitChunk cfg chunk).ledger.choices =
          (o.processChunk cfg snapshot chunk).ledger.choices := same.stepChoiceEvents
      rw [waited, ledger] at events
      exact map_eq_nil_iff.mp (self_eq_append_right.mp events)
    case violations => exact (violations_eq_iff cfg snapshot o chunk).mp same.violations
    case prefork => exact (preforkMode_eq_iff cfg snapshot o chunk).mp same.preforkMode
    case quiet =>
      have quiet : (o.awaitChunk cfg chunk).ledger.quietUntil =
          (o.processChunk cfg snapshot chunk).ledger.quietUntil := same.faultQuietUntil
      rw [waited, ledger] at quiet
      intro evt mem
      exact quietAfter_eq_self_iff.mp (foldl_quietAfter_eq_self_iff.mp quiet.symm evt mem)
  · intro plain
    rw [processChunk_of_plain cfg snapshot plain]
    exact ⟨rfl, rfl, rfl, rfl, rfl, rfl, rfl, rfl⟩

def bareConfig : SerialConfig :=
  { nodes := [], backend := .gvisor, seed := 7, maxDepth := 10 }

def started (burstInsns : UInt64) : SdkState (mapSize 4) Nat Unit where
  explorer := newExplorer Nat 4 false
  faults := { faultRng := () }
  currentBurstInsns := burstInsns

/-- A random choice alone is lost for the input of the burst. -/
theorem sameEffect_fails :
    let chunk : SdkChunk := { randomChoices := [{ chosenIndex := 1, totalChoices := 2 }] }
    ((waitForBurstDone bareConfig [[chunk]] (started 1000)).1).stepChoiceEvents = [] ∧
      ((started 1000).processOutput bareConfig none [chunk]).stepChoiceEvents =
        [{ chosenIndex := 1, totalChoices := 2 }] ∧
      ¬ SameEffect (waitForBurstDone bareConfig [[chunk]] (started 1000)).1
        ((started 1000).processOutput bareConfig none [chunk]) := by
  intro chunk
  have waited : ((waitForBurstDone bareConfig [[chunk]] (started 1000)).1).stepChoiceEvents =
      [] := rfl
  have processed : ((started 1000).processOutput bareConfig none [chunk]).stepChoiceEvents =
      [{ chosenIndex := 1, totalChoices := 2 }] := rfl
  refine ⟨waited, processed, fun same => ?_⟩
  have equal := same.stepChoiceEvents
  rw [waited, processed] at equal
  contradiction

theorem ledger_processOutput (chunks : List SdkChunk) (o : SdkState n S R) :
    (o.processOutput cfg snapshot chunks).ledger.subGoals =
        o.ledger.subGoals ++ chunks.flatMap (·.subGoalEvals) ∧
      (o.processOutput cfg snapshot chunks).ledger.tracker =
        (o.ledger.tracker.recordAll (chunks.flatMap (·.subGoalEvals))).2 ∧
      (o.processOutput cfg snapshot chunks).ledger.deterministicCoverage =
        o.ledger.deterministicCoverage := by
  induction chunks generalizing o with
  | nil => exact ⟨(append_nil _).symm, rfl, rfl⟩
  | cons chunk chunks ih =>
    obtain ⟨subGoals, tracker, mode⟩ := ih (o.processChunk cfg snapshot chunk)
    rw [ledger_processChunk] at subGoals tracker mode
    rw [flatMap_cons, SometimesAllTracker.recordAll_append_snd, ← append_assoc]
    exact ⟨subGoals, tracker, mode⟩

theorem subGoalBoosts_processOutput (chunks : List SdkChunk)
    (fresh : o.explorer.stepSometimesAllEvals = []) :
    (o.processOutput cfg snapshot chunks).explorer.subGoalBoosts =
      ((chunks.flatMap (·.subGoalEvals)).map (·.progressBoost),
        (o.explorer.sometimesAllTracker.recordAll (chunks.flatMap (·.subGoalEvals))).2) := by
  obtain ⟨subGoals, tracker, _⟩ := ledger_processOutput cfg snapshot chunks o
  have pending : (o.processOutput cfg snapshot chunks).explorer.stepSometimesAllEvals =
      chunks.flatMap (·.subGoalEvals) := by
    rw [← nil_append (chunks.flatMap _), ← fresh]
    exact subGoals
  have recorded : (o.processOutput cfg snapshot chunks).explorer.sometimesAllTracker =
      (o.explorer.sometimesAllTracker.recordAll (chunks.flatMap (·.subGoalEvals))).2 := tracker
  unfold ExplorerState.subGoalBoosts
  rw [pending, recorded, SometimesAllTracker.recordAll_again]

variable [BEq S] [LT S] [DecidableLT S]

/-- Each evaluation of sub-goals adds to the boost of the next push, and does to the tracker, what
recording it once does. -/
structure CountsOnce (cfg : SerialConfig) (snapshot : Option Paused) (chunks : List SdkChunk)
    (o : SdkState n S R) (id : ID) (rating : Rating S) : Prop where
  boosts : (o.processOutput cfg snapshot chunks).explorer.addedBoosts =
    (o.explorer.sometimesAllTracker.recordAll (chunks.flatMap (·.subGoalEvals))).1
  tracker : ((o.processOutput cfg snapshot chunks).explorer.pushFrontier id
      rating).sometimesAllTracker =
    (o.explorer.sometimesAllTracker.recordAll (chunks.flatMap (·.subGoalEvals))).2

/-- The evaluations bring nothing new to the states they meet. -/
def Stale (tracker : SometimesAllTracker) (evals : List SometimesAllEval) : Prop :=
  ∀ before eval after, evals = before ++ eval :: after →
    ((tracker.recordAll before).2.stateFor eval).Absorbs eval

theorem tracker_pushFrontier (chunks : List SdkChunk)
    (fresh : o.explorer.stepSometimesAllEvals = []) {id : ID} {snap : Snapshot}
    (found : (o.processOutput cfg snapshot chunks).explorer.tree.get id = .ok snap)
    (rating : Rating S) : ((o.processOutput cfg snapshot chunks).explorer.pushFrontier id
        rating).sometimesAllTracker =
      (o.explorer.sometimesAllTracker.recordAll (chunks.flatMap (·.subGoalEvals))).2 := by
  unfold ExplorerState.pushFrontier
  rw [found, subGoalBoosts_processOutput cfg snapshot chunks fresh]

/-- Each evaluation counts once exactly if it brings nothing new. With deterministic coverage no
boost is added, so the boosts have to be zero. -/
theorem countsOnce_iff (cfg : SerialConfig) (snapshot : Option Paused) (chunks : List SdkChunk)
    {o : SdkState n S R} (fresh : o.explorer.stepSometimesAllEvals = []) {id : ID}
    {snap : Snapshot}
    (found : (o.processOutput cfg snapshot chunks).explorer.tree.get id = .ok snap)
    (rating : Rating S) :
    CountsOnce cfg snapshot chunks o id rating ↔
      if o.explorer.deterministicCoverage then
        ∀ boost ∈ (o.explorer.sometimesAllTracker.recordAll
          (chunks.flatMap (·.subGoalEvals))).1, boost = 0
      else Stale o.explorer.sometimesAllTracker (chunks.flatMap (·.subGoalEvals)) := by
  have counted : CountsOnce cfg snapshot chunks o id rating ↔
      (o.processOutput cfg snapshot chunks).explorer.addedBoosts =
        (o.explorer.sometimesAllTracker.recordAll (chunks.flatMap (·.subGoalEvals))).1 :=
    ⟨fun once => once.boosts,
      fun boosts => ⟨boosts, tracker_pushFrontier cfg snapshot chunks fresh found rating⟩⟩
  have mode : (o.processOutput cfg snapshot chunks).explorer.deterministicCoverage =
      o.explorer.deterministicCoverage := (ledger_processOutput cfg snapshot chunks o).2.2
  rw [counted, ExplorerState.addedBoosts, mode,
    subGoalBoosts_processOutput cfg snapshot chunks fresh]
  cases o.explorer.deterministicCoverage with
  | true =>
    simp only [if_true]
    rw [map_const', length_map, eq_comm, eq_replicate_iff, SometimesAllTracker.length_recordAll]
    exact and_iff_right rfl
  | false =>
    simp only [Bool.false_eq_true, if_false]
    rw [eq_comm]
    exact SometimesAllTracker.boosts_eq_iff _

def progressOf (satisfiedCount totalCount : Int) : SdkChunk where
  assertions :=
    [{ assertType := "sometimes_all", condition := false, message := "quorum",
       subGoals := some ∅, satisfiedCount, totalCount }]

theorem countsOnce_without_progress :
    CountsOnce bareConfig none [progressOf 0 2] (started 1000) rootID
      { score := 0, energy := 1 } := by
  have found : ((started 1000).processOutput bareConfig none [progressOf 0 2]).explorer.tree.get
      rootID = .ok { id := rootID, parentID := rootID, depth := 0 } := by rfl
  refine (countsOnce_iff _ none [progressOf 0 2] rfl found _).mpr ?_
  exact (SometimesAllTracker.boosts_eq_iff _).mp (by decide +kernel)

/-- One of two sub-goals holds for the first time: recorded once it is worth 5500, and
the entry gets 2500. -/
theorem countsOnce_fails :
    ((started 1000).explorer.sometimesAllTracker.recordAll
        ([progressOf 1 2].flatMap (·.subGoalEvals))).1 = [5500] ∧
      ((started 1000).processOutput bareConfig none
        [progressOf 1 2]).explorer.addedBoosts = [2500] ∧
      ¬ CountsOnce bareConfig none [progressOf 1 2] (started 1000) rootID
        { score := 0, energy := 1 } := by
  have single : ((started 1000).explorer.sometimesAllTracker.recordAll
      ([progressOf 1 2].flatMap (·.subGoalEvals))).1 = [5500] := by decide +kernel
  have added : ((started 1000).processOutput bareConfig none
      [progressOf 1 2]).explorer.addedBoosts = [2500] := by decide +kernel
  refine ⟨single, added, fun once => ?_⟩
  have equal := once.boosts
  rw [single, added] at equal
  norm_num at equal

end SdkState

end OpenThesis.Orchestrator
