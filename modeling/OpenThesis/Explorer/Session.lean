import OpenThesis.Explorer.Coverage
import OpenThesis.Explorer.Frontier
import OpenThesis.Explorer.Record
import OpenThesis.Explorer.Saturation
import OpenThesis.Explorer.SubGoal

/-!
# The state of the explorer

What the explorer makes of its records at a push (`internal/explorer/explorer.go`). Scores and
energies are inputs; boosts are rational.
-/

namespace OpenThesis.Explorer

open Keyed SnapshotTree Std

universe u

structure AssertionEval where
  step : Nat := 0
  vTimeNS : UInt64 := 0
  snapshotID : ID := 0
  property : String := ""
  message : String
  assertType : String
  condition : Bool
  deriving DecidableEq, Repr

structure PropertyCount where
  assertType : String
  message : String
  total : Nat := 0
  passed : Nat := 0
  failed : Nat := 0
  deriving DecidableEq, Repr

/-- How a snapshot is rated. -/
structure Rating (S : Type u) where
  score : S
  energy : Int

structure Priority (S : Type u) extends Rating S where
  depth : UInt32
  newEdges : UInt64
  noveltyScore : Nat
  rarityScore : Float
  sometimesBoost : ℚ
  reachableBoost : Nat
  createdAtStep : Nat
  pathHash : UInt64
  faultKindMask : UInt16
  recentNewEdges : UInt64

section

variable {S : Type u}

instance [BEq S] : BEq (Priority S) where
  beq a b := a.score == b.score

instance [LT S] : LT (Priority S) where
  lt a b := a.score < b.score

instance [LT S] [DecidableLT S] : DecidableLT (Priority S) :=
  fun a b => inferInstanceAs (Decidable (a.score < b.score))

end

/-- The explorer, with scores of type `S`. -/
structure ExplorerState (n : Nat) (S : Type u) where
  tree : Tree := newTree
  coverage : CoverageTracker n
  frontier : Frontier (Priority S) := newFrontier
  violations : List Violation := []
  assertions : AssertionCounts := {}
  assertionEvals : List AssertionEval := []
  propertyCounts : ExtTreeMap String PropertyCount := ∅
  states : Nat := 0
  sometimesSatisfied : ExtTreeSet String := ∅
  stepSometimesEvals : ExtTreeMap String Bool := ∅
  pathFrequency : ExtTreeMap UInt64 Nat := ∅
  saturation : SaturationTracker := ∅
  sometimesAllTracker : SometimesAllTracker := ∅
  stepSometimesAllEvals : List SometimesAllEval := []
  reachableSeen : ExtTreeSet String := ∅
  stepReachableEvals : ExtTreeMap String Bool := ∅
  deterministicCoverage : Bool := false

def newExplorer (S : Type u) (coverageMapSize : Int64) (deterministicCoverage : Bool) :
    ExplorerState (mapSize coverageMapSize) S where
  coverage := newCoverageTracker coverageMapSize
  deterministicCoverage

namespace ExplorerState

variable {n : Nat} {S : Type u}

def countProperty (e : ExplorerState n S) (eval : AssertionEval) : PropertyCount :=
  let pc := (e.propertyCounts[eval.assertType ++ "\x00" ++ eval.message]?).getD
    { assertType := eval.assertType, message := eval.message }
  if eval.condition then { pc with total := pc.total + 1, passed := pc.passed + 1 }
  else { pc with total := pc.total + 1, failed := pc.failed + 1 }

def evalSometimes (e : ExplorerState n S) (message : String) (condition : Bool) :
    ExplorerState n S :=
  if condition then
    { e with
      sometimesSatisfied := e.sometimesSatisfied.insert message
      stepSometimesEvals := e.stepSometimesEvals.insert message true }
  else if (e.stepSometimesEvals[message]?).getD false then e
  else { e with stepSometimesEvals := e.stepSometimesEvals.insert message false }

def evalReachable (e : ExplorerState n S) (message : String) (condition : Bool) :
    ExplorerState n S :=
  if message ∈ e.reachableSeen then e
  else if condition then
    { e with
      reachableSeen := e.reachableSeen.insert message
      stepReachableEvals := e.stepReachableEvals.insert message true }
  else if message ∈ e.stepReachableEvals then e
  else { e with stepReachableEvals := e.stepReachableEvals.insert message false }

def evalByType (e : ExplorerState n S) (eval : AssertionEval) : ExplorerState n S :=
  match eval.assertType with
  | "sometimes" => e.evalSometimes eval.message eval.condition
  | "sometimes_all" => e.evalSometimes eval.message eval.condition
  | "reachable" => e.evalReachable eval.message eval.condition
  | _ => e

def recordAssertionEval (e : ExplorerState n S) (eval : AssertionEval) : ExplorerState n S :=
  let pc := e.countProperty eval
  let e :=
    { e with
      propertyCounts := e.propertyCounts.insert (eval.assertType ++ "\x00" ++ eval.message) pc }
  let e := e.evalByType eval
  if eval.condition ∧ pc.total > 5 ∧ e.states % 10 ≠ 0 then e
  else { e with assertionEvals := e.assertionEvals ++ [eval] }

def recordAssertion (e : ExplorerState n S) (assertType : String) (condition : Bool) :
    ExplorerState n S :=
  { e with assertions := e.assertions.recordAssertion assertType condition }

def reportViolation (e : ExplorerState n S) (v : Violation) : ExplorerState n S :=
  { e with violations := e.violations ++ [Explorer.reportViolation e.tree v] }

def recordSometimesAllEval (e : ExplorerState n S) (eval : SometimesAllEval) : ExplorerState n S :=
  { e with stepSometimesAllEvals := e.stepSometimesAllEvals ++ [eval] }

def clearStepAssertionEvals (e : ExplorerState n S) : ExplorerState n S :=
  { e with
    stepSometimesEvals := ∅
    stepSometimesAllEvals := []
    stepReachableEvals := ∅
    coverage := e.coverage.clearStepAssertionNovelty }

structure Keeps (e next : ExplorerState n S) : Prop where
  tree : next.tree = e.tree
  coverage : next.coverage = e.coverage
  frontier : next.frontier = e.frontier
  violations : next.violations = e.violations
  states : next.states = e.states
  saturation : next.saturation = e.saturation
  sometimesAllTracker : next.sometimesAllTracker = e.sometimesAllTracker
  stepSometimesAllEvals : next.stepSometimesAllEvals = e.stepSometimesAllEvals
  deterministicCoverage : next.deterministicCoverage = e.deterministicCoverage

variable (e : ExplorerState n S)

theorem Keeps.refl : Keeps e e :=
  ⟨rfl, rfl, rfl, rfl, rfl, rfl, rfl, rfl, rfl⟩

theorem keeps_evalSometimes (message : String) (condition : Bool) :
    Keeps e (e.evalSometimes message condition) := by
  unfold evalSometimes
  split_ifs <;> exact ⟨rfl, rfl, rfl, rfl, rfl, rfl, rfl, rfl, rfl⟩

theorem keeps_evalReachable (message : String) (condition : Bool) :
    Keeps e (e.evalReachable message condition) := by
  unfold evalReachable
  split_ifs <;> exact ⟨rfl, rfl, rfl, rfl, rfl, rfl, rfl, rfl, rfl⟩

theorem keeps_evalByType (eval : AssertionEval) : Keeps e (e.evalByType eval) := by
  unfold evalByType
  split
  case h_1 | h_2 => exact keeps_evalSometimes e _ _
  case h_3 => exact keeps_evalReachable e _ _
  case h_4 => exact .refl e

theorem keeps_recordAssertionEval (eval : AssertionEval) :
    Keeps e (e.recordAssertionEval eval) := by
  have kept := keeps_evalByType
    { e with
      propertyCounts := e.propertyCounts.insert (eval.assertType ++ "\x00" ++ eval.message)
        (e.countProperty eval) } eval
  unfold recordAssertionEval
  dsimp only
  split_ifs
  · exact ⟨kept.tree, kept.coverage, kept.frontier, kept.violations, kept.states, kept.saturation,
      kept.sometimesAllTracker, kept.stepSometimesAllEvals, kept.deterministicCoverage⟩
  · exact ⟨kept.tree, kept.coverage, kept.frontier, kept.violations, kept.states, kept.saturation,
      kept.sometimesAllTracker, kept.stepSometimesAllEvals, kept.deterministicCoverage⟩

def grantSometimes (granted : List (String × Nat) × ExtTreeSet String)
    (entry : String × Bool) : List (String × Nat) × ExtTreeSet String :=
  if entry.2 = true ∧ entry.1 ∉ granted.2 then
    (granted.1 ++ [(entry.1, 5000)], granted.2.insert entry.1)
  else if entry.2 = false ∧ entry.1 ∉ granted.2 then
    (granted.1 ++ [(entry.1, 2000)], granted.2)
  else granted

def grants (e : ExplorerState n S) : List (String × Nat) × ExtTreeSet String :=
  e.stepSometimesEvals.toList.foldl grantSometimes ([], e.sometimesSatisfied)

def subGoalBoosts (e : ExplorerState n S) : List ℚ × SometimesAllTracker :=
  e.sometimesAllTracker.recordAll e.stepSometimesAllEvals

def addedBoosts (e : ExplorerState n S) : List ℚ :=
  if e.deterministicCoverage then e.subGoalBoosts.1.map fun _ => 0 else e.subGoalBoosts.1

def subGoalCoverage (e : ExplorerState n S) : CoverageTracker n :=
  e.stepSometimesAllEvals.foldl
    (fun c eval => (c.recordAssertionNovelty (sometimesAllCoverageKey eval.name eval.subGoals)).1)
    e.coverage

def reachableBonus (e : ExplorerState n S) (entry : String × Bool) : Nat :=
  if entry.2 then 4000 else if entry.1 ∉ e.reachableSeen then 1500 else 0

def noveltyScore (e : ExplorerState n S) : Nat :=
  e.coverage.stepNewAsserts * 3000 + e.coverage.stepNewMax * 1000 + e.coverage.stepNewExplore * 300

def entryFor (e : ExplorerState n S) (id : ID) (snap : Snapshot) (rating : Rating S) :
    FrontierEntry (Priority S) where
  snapshotID := id
  score :=
    { score := rating.score
      energy := if e.deterministicCoverage then 1 else rating.energy
      depth := snap.depth
      newEdges := if e.deterministicCoverage then 0 else e.subGoalCoverage.newEdges
      noveltyScore := if e.deterministicCoverage then 0 else e.noveltyScore
      rarityScore := e.coverage.stepEdgeRarity
      sometimesBoost :=
        (if e.deterministicCoverage then 0 else (e.grants.1.map (·.2)).sum : Nat) +
          e.addedBoosts.sum
      reachableBoost :=
        if e.deterministicCoverage then 0
        else (e.stepReachableEvals.toList.map e.reachableBonus).sum
      createdAtStep := e.states
      pathHash := e.subGoalCoverage.hash
      faultKindMask := snap.faultKindMask
      recentNewEdges := e.subGoalCoverage.newEdges }

variable [BEq S] [LT S] [DecidableLT S]

/-- Queues a snapshot; one that the tree has lost is passed over. -/
def pushFrontier (e : ExplorerState n S) (id : ID) (rating : Rating S) : ExplorerState n S :=
  match e.tree.get id with
  | .error _ => e
  | .ok snap =>
    { e with
      frontier := e.frontier.push (e.entryFor id snap rating)
      sometimesSatisfied := e.grants.2
      sometimesAllTracker := e.subGoalBoosts.2
      pathFrequency := bump e.pathFrequency e.subGoalCoverage.hash
      saturation :=
        e.saturation.recordDiscovery (subtreeRoot e.tree id) e.subGoalCoverage.newEdges
      coverage := e.subGoalCoverage.resetStepNovelty
      stepSometimesEvals := ∅
      stepSometimesAllEvals := []
      stepReachableEvals := ∅ }

end ExplorerState

inductive ExplorerOp (S : Type u) where
  | cover (op : CoverageOp)
  | grow (op : Op)
  | recordAssertion (assertType : String) (condition : Bool)
  | recordAssertionEval (eval : AssertionEval)
  | recordSometimesAllEval (eval : SometimesAllEval)
  | clearStepAssertionEvals
  | pushFrontier (id : ID) (rating : Rating S)

namespace ExplorerState

variable {n : Nat} {S : Type u} [BEq S] [LT S] [DecidableLT S]

/-- One call on the explorer. -/
def apply (e : ExplorerState n S) : ExplorerOp S → ExplorerState n S
  | .cover op => { e with coverage := e.coverage.apply op }
  | .grow op => { e with tree := e.tree.apply op }
  | .recordAssertion assertType condition => e.recordAssertion assertType condition
  | .recordAssertionEval eval => e.recordAssertionEval eval
  | .recordSometimesAllEval eval => e.recordSometimesAllEval eval
  | .clearStepAssertionEvals => e.clearStepAssertionEvals
  | .pushFrontier id rating => e.pushFrontier id rating

def run (e : ExplorerState n S) (ops : List (ExplorerOp S)) : ExplorerState n S :=
  ops.foldl apply e

def pushedEdges (e : ExplorerState n S) : UInt64 :=
  (e.frontier.toList.map (·.score.recentNewEdges)).sum

variable {e : ExplorerState n S} {id : ID} {snap : Snapshot}

theorem pushFrontier_of_error {err : String} (missing : e.tree.get id = .error err)
    (rating : Rating S) : e.pushFrontier id rating = e := by
  unfold pushFrontier
  rw [missing]

theorem tree_pushFrontier (e : ExplorerState n S) (id : ID) (rating : Rating S) :
    (e.pushFrontier id rating).tree = e.tree := by
  unfold pushFrontier
  split <;> rfl

section

variable (found : e.tree.get id = .ok snap) (rating : Rating S)

include found rating

theorem pushFrontier_of_get :
    (e.pushFrontier id rating).frontier = e.frontier.push (e.entryFor id snap rating) ∧
      (e.pushFrontier id rating).saturation =
        e.saturation.recordDiscovery (subtreeRoot e.tree id) e.subGoalCoverage.newEdges ∧
      (e.pushFrontier id rating).coverage = e.subGoalCoverage.resetStepNovelty := by
  unfold pushFrontier
  rw [found]
  exact ⟨rfl, rfl, rfl⟩

theorem pushedEdges_pushFrontier :
    (e.pushFrontier id rating).pushedEdges = e.pushedEdges + e.subGoalCoverage.newEdges := by
  have pushed : (e.frontier.push (e.entryFor id snap rating)).toList.Perm
      (e.entryFor id snap rating :: e.frontier.toList) := Heap.push_perm _ _
  unfold pushedEdges
  rw [(pushFrontier_of_get found rating).1, (pushed.map _).sum_eq, List.map_cons, List.sum_cons,
    UInt64.add_comm]
  rfl

theorem discovered_pushFrontier :
    (e.pushFrontier id rating).saturation.discovered =
      e.saturation.discovered + e.subGoalCoverage.newEdges := by
  rw [(pushFrontier_of_get found rating).2.1, SaturationTracker.discovered_recordDiscovery]

theorem newEdges_pushFrontier :
    (e.pushFrontier id rating).coverage.newEdges = e.subGoalCoverage.newEdges := by
  rw [(pushFrontier_of_get found rating).2.2]
  rfl

end

theorem discovered_apply (same : e.saturation.discovered = e.pushedEdges) (op : ExplorerOp S) :
    (e.apply op).saturation.discovered = (e.apply op).pushedEdges := by
  cases op with
  | pushFrontier id rating =>
    cases found : e.tree.get id with
    | error err =>
      rw [apply, pushFrontier_of_error found]
      exact same
    | ok snap => rw [apply, discovered_pushFrontier found, pushedEdges_pushFrontier found, same]
  | recordAssertionEval eval =>
    have kept := keeps_recordAssertionEval e eval
    rw [apply, pushedEdges, kept.frontier, kept.saturation]
    exact same
  | _ => exact same

theorem discovered_run (coverageMapSize : Int64) (deterministicCoverage : Bool)
    (ops : List (ExplorerOp S)) :
    ((newExplorer S coverageMapSize deterministicCoverage).run ops).saturation.discovered =
      ((newExplorer S coverageMapSize deterministicCoverage).run ops).pushedEdges :=
  List.foldlRecOn
    (motive := fun e : ExplorerState (mapSize coverageMapSize) S =>
      e.saturation.discovered = e.pushedEdges)
    ops apply rfl fun _ same op _ => discovered_apply same op

/-- After a push the subtrees together have discovered as many edges as the tracker counts exactly
if the counts stored by earlier pushes sum to zero. -/
theorem discovered_eq_newEdges_iff (coverageMapSize : Int64) (deterministicCoverage : Bool)
    (ops : List (ExplorerOp S)) {id : ID} {snap : Snapshot} (rating : Rating S)
    (found : ((newExplorer S coverageMapSize deterministicCoverage).run ops).tree.get id =
      .ok snap) :
    (((newExplorer S coverageMapSize deterministicCoverage).run ops).pushFrontier id
        rating).saturation.discovered =
      (((newExplorer S coverageMapSize deterministicCoverage).run ops).pushFrontier id
        rating).coverage.newEdges ↔
      ((newExplorer S coverageMapSize deterministicCoverage).run ops).pushedEdges = 0 := by
  rw [discovered_pushFrontier found, newEdges_pushFrontier found, discovered_run]
  exact add_eq_right

theorem discovered_first_push :
    let e := (newExplorer Nat 4 false).run [.cover (.update [1])]
    (e.pushFrontier rootID { score := 0, energy := 1 }).saturation.discovered =
      (e.pushFrontier rootID { score := 0, energy := 1 }).coverage.newEdges := by
  have root : ((newExplorer Nat 4 false).run [.cover (.update [1])]).tree.get rootID =
      .ok { id := rootID, parentID := rootID, depth := 0 } := by rfl
  exact (discovered_eq_newEdges_iff 4 false [.cover (.update [1])] _ root).mpr (by decide +kernel)

/-- Two pushes after a single discovery: the subtree of the root has two edges, the
coverage tracker one. -/
theorem discovered_twice :
    let e := (newExplorer Nat 4 false).run
      [.cover (.update [1]), .pushFrontier rootID { score := 0, energy := 1 },
        .pushFrontier rootID { score := 0, energy := 1 }]
    e.saturation.discovered = 2 ∧ e.coverage.newEdges = 1 := by
  decide +kernel

end ExplorerState

end OpenThesis.Explorer
