import OpenThesis.Explorer.Session
import OpenThesis.Report.Progress

/-!
# The property view

The explorer counts evaluations under a key that joins type and message with a zero byte; the report
shows a status (`buildPropertyGroups` in `internal/report/properties.go`).
-/

namespace OpenThesis.Explorer

universe u

/-- What the report is made of. -/
structure Result where
  violations : List Violation := []
  assertions : AssertionCounts := {}
  assertionEvals : List AssertionEval := []
  totalStates : Nat := 0
  totalEdges : UInt64 := 0
  newEdges : UInt64 := 0
  propertyCounts : List PropertyCount := []
  sometimesAllStates : SometimesAllTracker := ∅

namespace ExplorerState

variable {n : Nat} {S : Type u}

def buildResult (e : ExplorerState n S) : Result where
  violations := e.violations
  assertions := e.assertions
  assertionEvals := e.assertionEvals
  totalStates := e.states
  totalEdges := e.coverage.totalEdges
  newEdges := e.coverage.newEdges
  propertyCounts := e.propertyCounts.toList.map (·.2)
  sometimesAllStates := Report.sometimesAllStates e.sometimesAllTracker

end ExplorerState

def propertyKey (assertType message : String) : String :=
  assertType ++ "\x00" ++ message

def AssertionEval.key (eval : AssertionEval) : String :=
  propertyKey eval.assertType eval.message

def AssertionEval.IsOf (eval : AssertionEval) (assertType message : String) : Prop :=
  eval.assertType = assertType ∧ eval.message = message

instance (eval : AssertionEval) (assertType message : String) :
    Decidable (eval.IsOf assertType message) :=
  inferInstanceAs (Decidable (_ ∧ _))

def PropertyCount.add (old : Option PropertyCount) (eval : AssertionEval) : PropertyCount :=
  let pc := old.getD { assertType := eval.assertType, message := eval.message }
  if eval.condition then { pc with total := pc.total + 1, passed := pc.passed + 1 }
  else { pc with total := pc.total + 1, failed := pc.failed + 1 }

open PropertyCount

def summarize (evals : List AssertionEval) : Option PropertyCount :=
  evals.head?.map fun first =>
    { assertType := first.assertType
      message := first.message
      total := evals.length
      passed := evals.countP (·.condition)
      failed := evals.countP (!·.condition) }

theorem named_of_summarize {evals : List AssertionEval} {key : String} {pc : PropertyCount}
    (found : summarize (evals.filter (·.key = key)) = some pc) :
    propertyKey pc.assertType pc.message = key ∧
      ∃ first ∈ evals, first.key = key ∧ first.message = pc.message := by
  obtain ⟨first, isFirst, rfl⟩ := Option.map_eq_some_iff.mp found
  have inside := List.mem_filter.mp (List.mem_of_mem_head? isFirst)
  have isKey : first.key = key := of_decide_eq_true inside.2
  exact ⟨isKey, first, inside.1, isKey, rfl⟩

theorem foldl_add (evals : List AssertionEval) :
    evals.foldl (fun old eval => some (add old eval)) none = summarize evals := by
  induction evals using List.reverseRecOn with
  | nil => rfl
  | append_singleton evals eval ih =>
    rw [List.foldl_concat, ih]
    cases evals with
    | nil => cases condition : eval.condition <;> simp [summarize, add, condition]
    | cons first evals =>
      have counted (p : AssertionEval → Bool) : (first :: (evals ++ [eval])).countP p =
          (first :: evals).countP p + [eval].countP p := by
        rw [← List.cons_append, List.countP_append]
      cases condition : eval.condition <;>
        simp [summarize, add, condition, counted]

namespace ExplorerState

open Keyed

variable {n : Nat} {S : Type u}

variable (e : ExplorerState n S)

theorem propertyCounts_evalByType (eval : AssertionEval) :
    (e.evalByType eval).propertyCounts = e.propertyCounts := by
  unfold evalByType evalSometimes evalReachable
  split
  case h_4 => rfl
  all_goals split_ifs <;> rfl

theorem propertyCounts_recordAssertionEval (eval : AssertionEval) :
    (e.recordAssertionEval eval).propertyCounts =
      e.propertyCounts.insert eval.key (add e.propertyCounts[eval.key]? eval) := by
  unfold recordAssertionEval
  dsimp only
  split_ifs
  · rw [propertyCounts_evalByType]
    rfl
  · rw [propertyCounts_evalByType]
    rfl

variable [BEq S] [LT S] [DecidableLT S]

def evalsIn (ops : List (ExplorerOp S)) : List AssertionEval :=
  ops.filterMap fun
    | .recordAssertionEval eval => some eval
    | _ => none

theorem propertyCounts_run (ops : List (ExplorerOp S)) : (e.run ops).propertyCounts =
      accumulate AssertionEval.key add e.propertyCounts (evalsIn ops) := by
  induction ops generalizing e with
  | nil => rfl
  | cons op ops ih =>
    rw [run, List.foldl_cons, ← run, ih]
    cases op with
    | recordAssertionEval eval =>
      rw [apply, propertyCounts_recordAssertionEval]
      rfl
    | pushFrontier id rating =>
      have same : (e.pushFrontier id rating).propertyCounts = e.propertyCounts := by
        rw [pushFrontier]
        split <;> rfl
      rw [apply, same]
      rfl
    | _ => rfl

theorem lookup_propertyCounts_run (coverageMapSize : Int64) (deterministicCoverage : Bool)
    (ops : List (ExplorerOp S)) (key : String) :
    ((newExplorer S coverageMapSize deterministicCoverage).run ops).propertyCounts[key]? =
      summarize ((evalsIn ops).filter (·.key = key)) := by
  rw [propertyCounts_run, lookup_accumulate, ← foldl_add]
  rfl

end ExplorerState

end OpenThesis.Explorer

namespace OpenThesis.Report

open Explorer Keyed

universe u v

inductive Status
  | passed
  | failed
  deriving DecidableEq, Repr

structure PropertyReport where
  message : String
  assertType : String
  status : Status
  passed : Nat
  failed : Nat
  total : Nat
  evals : List AssertionEval
  deriving DecidableEq, Repr

structure PropertyGroup where
  name : String
  description : String
  status : Status
  passed : Nat
  failed : Nat
  total : Nat
  properties : List PropertyReport
  deriving DecidableEq, Repr

def groupMeta (assertType : String) : String × String :=
  match assertType with
  | "always" =>
    ("Always assertions",
      "Properties that must hold in every reachable state. A failure indicates a bug.")
  | "always_or_unreachable" =>
    ("AlwaysOrUnreachable assertions",
      "Properties that must hold whenever the code path is reached.")
  | "sometimes" =>
    ("Sometimes assertions",
      "Properties expected to be true in at least some states. Failure means the explorer " ++
        "never observed the condition; exploration may be insufficient.")
  | "reachable" =>
    ("Reachability assertions",
      "Code paths that should be exercised during testing. Failure means the path was never " ++
        "reached.")
  | "unreachable" =>
    ("Unreachability assertions",
      "Code paths that should never be reached. A failure means supposedly unreachable code " ++
        "was executed.")
  | "sometimes_all" =>
    ("SometimesAll assertions",
      "Sets of sub-goals where all must be satisfied simultaneously in at least one state. " ++
        "Failure means the full combination was never observed.")
  | "sometimes_all_subgoal" =>
    ("SometimesAll sub-goals",
      "Individual sub-goal satisfaction events emitted as part of a SometimesAll assertion.")
  | assertType => (assertType ++ " assertions", "")

def propertyReport (evals : List AssertionEval) (pc : PropertyCount) : PropertyReport where
  message := pc.message
  assertType := pc.assertType
  status := if 0 < pc.failed then .failed else .passed
  passed := pc.passed
  failed := pc.failed
  total := pc.total
  evals := evals.filter (·.IsOf pc.assertType pc.message)

def notAfter {α : Type v} (status : α → Status) (name : α → String) (a b : α) : Bool :=
  if status a = status b then name a ≤ name b else status a = .failed

def propertyGroup (assertType : String) (props : List PropertyReport) : PropertyGroup where
  name := (groupMeta assertType).1
  description := (groupMeta assertType).2
  status := if props.any (0 < ·.failed) then .failed else .passed
  passed := props.countP (¬ 0 < ·.failed)
  failed := props.countP (0 < ·.failed)
  total := props.length
  properties := props.mergeSort (notAfter PropertyReport.status PropertyReport.message)

/-- Groups with the same status and name, which the program leaves in any order, stay in the order
of their types. -/
def buildPropertyGroups (result : Result) : List PropertyGroup :=
  let reports := result.propertyCounts.map (propertyReport result.assertionEvals)
  let groupedProps := collect PropertyReport.assertType reports
  (groupedProps.toList.map fun (assertType, props) => propertyGroup assertType props).mergeSort
    (notAfter PropertyGroup.status PropertyGroup.name)

theorem exists_group_iff (result : Result) (p : PropertyReport) :
    (∃ group ∈ buildPropertyGroups result, p ∈ group.properties) ↔
      ∃ pc ∈ result.propertyCounts, propertyReport result.assertionEvals pc = p := by
  rw [← List.mem_map, ← exists_collect_iff PropertyReport.assertType, buildPropertyGroups]
  simp [propertyGroup]

theorem status_group {result : Result} {group : PropertyGroup}
    (mem : group ∈ buildPropertyGroups result) :
    group.status = .failed ↔ ∃ p ∈ group.properties, p.status = .failed := by
  rw [buildPropertyGroups, List.mem_mergeSort] at mem
  obtain ⟨⟨assertType, props⟩, grouped, rfl⟩ := List.mem_map.mp mem
  have failed : ∀ p ∈ props, p.status = .failed ↔ 0 < p.failed := by
    intro p inGroup
    have reported := (exists_collect_iff PropertyReport.assertType _ p).mp ⟨_, grouped, inGroup⟩
    obtain ⟨pc, -, rfl⟩ := List.mem_map.mp reported
    simp [propertyReport]
  simp only [propertyGroup, List.mem_mergeSort, ite_eq_left_iff, reduceCtorEq, imp_false,
    not_not, List.any_eq_true, decide_eq_true_eq]
  exact exists_congr fun p => and_congr_right fun inGroup => (failed p inGroup).symm

inductive Requirement
  | always
  | never
  | once
  deriving DecidableEq, Repr

def requirement? (assertType : String) : Option Requirement :=
  match assertType with
  | "always" | "always_or_unreachable" | "ever_since" => some .always
  | "unreachable" => some .never
  | "sometimes" | "reachable" | "sometimes_all" => some .once
  | _ => none

def ownEvals (evals : List AssertionEval) (assertType message : String) : List AssertionEval :=
  evals.filter (·.IsOf assertType message)

def Requirement.Fails (own : List AssertionEval) : Requirement → Prop
  | always => ∃ eval ∈ own, eval.condition = false
  | never => own ≠ []
  | once => ¬ ∃ eval ∈ own, eval.condition = true

def ShownFailed (groups : List PropertyGroup) (assertType message : String) : Prop :=
  ∃ group ∈ groups, ∃ p ∈ group.properties,
    p.assertType = assertType ∧ p.message = message ∧ p.status = .failed

/-- The evaluated properties have the status that their type asks for, and so have the groups. -/
structure Faithful (evals : List AssertionEval) (groups : List PropertyGroup) : Prop where
  properties : ∀ assertType message requirement, requirement? assertType = some requirement →
    ownEvals evals assertType message ≠ [] →
    (ShownFailed groups assertType message ↔
      requirement.Fails (ownEvals evals assertType message))
  groups : ∀ group ∈ groups,
    group.status = .failed ↔ ∃ p ∈ group.properties, p.status = .failed

def evalsUnderKey (evals : List AssertionEval) (assertType message : String) :
    List AssertionEval :=
  evals.filter (·.key = propertyKey assertType message)

/-- The entry under the key of a property is its own: it was named by an evaluation of it. -/
def OwnEntry (evals : List AssertionEval) (assertType message : String) : Prop :=
  ∃ first ∈ (evalsUnderKey evals assertType message).head?, first.IsOf assertType message

/-- The entry of a property is its own and has counted a failure. -/
def Flagged (evals : List AssertionEval) (assertType message : String) : Prop :=
  OwnEntry evals assertType message ∧
    ∃ eval ∈ evalsUnderKey evals assertType message, eval.condition = false

theorem shownFailed_buildPropertyGroups (result : Result) (assertType message : String) :
    ShownFailed (buildPropertyGroups result) assertType message ↔
      ∃ pc ∈ result.propertyCounts,
        pc.assertType = assertType ∧ pc.message = message ∧ 0 < pc.failed := by
  constructor
  · rintro ⟨group, mem, p, inGroup, rfl, rfl, failed⟩
    obtain ⟨pc, counted, rfl⟩ := (exists_group_iff result p).mp ⟨group, mem, inGroup⟩
    refine ⟨pc, counted, rfl, rfl, ?_⟩
    by_contra none
    rw [propertyReport, if_neg none] at failed
    cases failed
  · rintro ⟨pc, counted, rfl, rfl, failed⟩
    obtain ⟨group, mem, inGroup⟩ := (exists_group_iff result _).mpr ⟨pc, counted, rfl⟩
    exact ⟨group, mem, _, inGroup, rfl, rfl, if_pos failed⟩

theorem summarize_failed_iff (evals : List AssertionEval) (assertType message : String) :
    (∃ pc ∈ summarize evals, pc.assertType = assertType ∧ pc.message = message ∧ 0 < pc.failed) ↔
      (∃ first ∈ evals.head?, first.IsOf assertType message) ∧
        ∃ eval ∈ evals, eval.condition = false := by
  cases evals with
  | nil => simp [summarize]
  | cons first evals =>
    simp [summarize, AssertionEval.IsOf, List.countP_pos_iff, and_assoc]

section

variable {S : Type u} [BEq S] [LT S] [DecidableLT S] (coverageMapSize : Int64)
  (deterministicCoverage : Bool) (ops : List (ExplorerOp S))

def viewAfter : List PropertyGroup :=
  buildPropertyGroups ((newExplorer S coverageMapSize deterministicCoverage).run ops).buildResult

theorem shownFailed_viewAfter (assertType message : String) :
    ShownFailed (viewAfter coverageMapSize deterministicCoverage ops) assertType message ↔
      Flagged (ExplorerState.evalsIn ops) assertType message := by
  rw [viewAfter, shownFailed_buildPropertyGroups, Flagged, OwnEntry, evalsUnderKey,
    ← summarize_failed_iff]
  simp only [ExplorerState.buildResult, List.mem_map, Prod.exists,
    Std.ExtTreeMap.mem_toList_iff_getElem?_eq_some, ExplorerState.lookup_propertyCounts_run]
  constructor
  · rintro ⟨_, ⟨key, pc, found, rfl⟩, rfl, rfl, failed⟩
    -- the entry was named by an evaluation under this key, which is the key of the property
    rw [(named_of_summarize found).1]
    exact ⟨pc, found, rfl, rfl, failed⟩
  · rintro ⟨pc, found, sameType, sameMessage, failed⟩
    exact ⟨pc, ⟨_, pc, found, rfl⟩, sameType, sameMessage, failed⟩

end

/-- The evaluations of a property and those under its key are such that the status comes out as
its type asks for. -/
def Meets (evals : List AssertionEval) (assertType message : String) : Requirement → Prop
  | .always =>
    if ∃ eval ∈ ownEvals evals assertType message, eval.condition = false then
      OwnEntry evals assertType message
    else ¬ Flagged evals assertType message
  | .never => Flagged evals assertType message
  | .once =>
    if ∃ eval ∈ ownEvals evals assertType message, eval.condition = true then
      ¬ Flagged evals assertType message
    else OwnEntry evals assertType message

theorem ownEvals_subset {evals : List AssertionEval} {assertType message : String}
    {eval : AssertionEval} (mem : eval ∈ ownEvals evals assertType message) :
    eval ∈ evalsUnderKey evals assertType message := by
  obtain ⟨inside, isOf⟩ := List.mem_filter.mp mem
  refine List.mem_filter.mpr ⟨inside, decide_eq_true ?_⟩
  rw [AssertionEval.key, (of_decide_eq_true isOf).1, (of_decide_eq_true isOf).2]

theorem flagged_iff_fails {evals : List AssertionEval} {assertType message : String}
    (evaluated : ownEvals evals assertType message ≠ []) (requirement : Requirement) :
    (Flagged evals assertType message ↔ requirement.Fails (ownEvals evals assertType message)) ↔
      Meets evals assertType message requirement := by
  have flagged : (∃ eval ∈ ownEvals evals assertType message, eval.condition = false) →
      (Flagged evals assertType message ↔ OwnEntry evals assertType message) := by
    rintro ⟨eval, own, failed⟩
    exact ⟨fun flagged => flagged.1, fun entry => ⟨entry, eval, ownEvals_subset own, failed⟩⟩
  cases requirement with
  | always =>
    rw [Requirement.Fails, Meets]
    split
    case isTrue failed => rw [iff_true_right failed, flagged failed]
    case isFalse passed => rw [iff_false_right passed]
  | never => rw [Requirement.Fails, Meets, iff_true_right evaluated]
  | once =>
    rw [Requirement.Fails, Meets]
    split
    case isTrue satisfied => rw [iff_false_right (not_not.mpr satisfied)]
    case isFalse never =>
      have failed : ∃ eval ∈ ownEvals evals assertType message, eval.condition = false := by
        obtain ⟨eval, own⟩ := List.exists_mem_of_ne_nil _ evaluated
        refine ⟨eval, own, ?_⟩
        rw [← Bool.not_eq_true]
        exact fun satisfied => never ⟨eval, own, satisfied⟩
      rw [iff_true_right never, flagged failed]

/-- The property view is right about every evaluated property and every group exactly if every
property meets the condition of its type. -/
theorem property_view_faithful_iff {S : Type u} [BEq S] [LT S] [DecidableLT S]
    (coverageMapSize : Int64) (deterministicCoverage : Bool) (ops : List (ExplorerOp S)) :
    Faithful (ExplorerState.evalsIn ops) (viewAfter coverageMapSize deterministicCoverage ops) ↔
      ∀ assertType message requirement, requirement? assertType = some requirement →
        ownEvals (ExplorerState.evalsIn ops) assertType message ≠ [] →
        Meets (ExplorerState.evalsIn ops) assertType message requirement := by
  have right (assertType message : String) (requirement : Requirement)
      (evaluated : ownEvals (ExplorerState.evalsIn ops) assertType message ≠ []) :=
    flagged_iff_fails evaluated requirement
  constructor
  · intro faithful assertType message requirement asked evaluated
    rw [← right _ _ _ evaluated, ← shownFailed_viewAfter coverageMapSize deterministicCoverage]
    exact faithful.properties assertType message requirement asked evaluated
  · intro meets
    refine ⟨?_, fun group mem => status_group mem⟩
    intro assertType message requirement asked evaluated
    rw [shownFailed_viewAfter, right _ _ _ evaluated]
    exact meets assertType message requirement asked evaluated

/-- A property that failed once before it held is shown as failed. -/
theorem sometimes_shown_failed :
    let evals := [{ message := "elected", assertType := "sometimes", condition := false },
      { message := "elected", assertType := "sometimes", condition := true }]
    let groups := viewAfter (S := Nat) 4 false (evals.map .recordAssertionEval)
    ShownFailed groups "sometimes" "elected" ∧
      ¬ Requirement.once.Fails (ownEvals evals "sometimes" "elected") := by
  refine ⟨(shownFailed_viewAfter _ _ _ _ _).mpr ?_, ?_⟩
  · exact ⟨⟨_, rfl, rfl, rfl⟩, _, List.mem_cons_self, rfl⟩
  · exact fun never => never ⟨_, List.mem_cons_of_mem _ List.mem_cons_self, rfl⟩

theorem propertyKey_inj {assertType assertType' message message' : String}
    (plain : '\x00' ∉ assertType.toList) (plain' : '\x00' ∉ assertType'.toList)
    (same : propertyKey assertType message = propertyKey assertType' message') :
    assertType = assertType' ∧ message = message' := by
  have lists := congrArg String.toList same
  have zero : "\x00".toList = ['\x00'] := rfl
  simp only [propertyKey, String.toList_append, zero, List.append_assoc, List.singleton_append]
    at lists
  have untilZero {before after : List Char} (none : '\x00' ∉ before) :
      (before ++ '\x00' :: after).takeWhile (· ≠ '\x00') = before := by
    rw [List.takeWhile_append_of_pos, List.takeWhile_cons_of_neg (by simp), List.append_nil]
    intro c mem
    exact decide_eq_true fun zero => none (zero ▸ mem)
  have sameType : assertType.toList = assertType'.toList := by
    rw [← untilZero plain, lists, untilZero plain']
  rw [sameType, List.append_cancel_left_eq, List.cons.injEq] at lists
  exact ⟨String.toList_inj.mp sameType, String.toList_inj.mp lists.2⟩

section

variable {evals : List AssertionEval} {assertType message : String}
  (plain : ∀ eval ∈ evals, '\x00' ∉ eval.assertType.toList)
  (evaluated : ownEvals evals assertType message ≠ [])

include plain evaluated

theorem evalsUnderKey_of_plain :
    evalsUnderKey evals assertType message = ownEvals evals assertType message := by
  obtain ⟨own, mem⟩ := List.exists_mem_of_ne_nil _ evaluated
  obtain ⟨inside, isOf⟩ := List.mem_filter.mp mem
  have plainType : '\x00' ∉ assertType.toList := (of_decide_eq_true isOf).1 ▸ plain own inside
  refine List.filter_congr fun eval inside => decide_eq_decide.mpr ?_
  constructor
  · exact propertyKey_inj (plain eval inside) plainType
  · rintro ⟨rfl, rfl⟩
    rfl

theorem ownEntry_of_plain : OwnEntry evals assertType message := by
  obtain ⟨first, rest, own⟩ := List.exists_cons_of_ne_nil evaluated
  have mem : first ∈ ownEvals evals assertType message := own ▸ List.mem_cons_self
  refine ⟨first, ?_, of_decide_eq_true (List.mem_filter.mp mem).2⟩
  rw [evalsUnderKey_of_plain plain evaluated, own]
  rfl

/-- Without zero bytes in types a status is right for what must always hold, for an unreachable
property if an evaluation was false, and for one that must hold once if its evaluations agree. -/
theorem meets_iff_of_plain (requirement : Requirement) :
    Meets evals assertType message requirement ↔
      match requirement with
      | .always => True
      | .never => ∃ eval ∈ ownEvals evals assertType message, eval.condition = false
      | .once => ¬ ((∃ eval ∈ ownEvals evals assertType message, eval.condition = true) ∧
          ∃ eval ∈ ownEvals evals assertType message, eval.condition = false) := by
  have entry := ownEntry_of_plain plain evaluated
  have flagged : Flagged evals assertType message ↔
      ∃ eval ∈ ownEvals evals assertType message, eval.condition = false := by
    rw [Flagged, evalsUnderKey_of_plain plain evaluated, and_iff_right entry]
  cases requirement with
  | always =>
    rw [Meets, flagged, iff_true]
    split
    · exact entry
    · assumption
  | never => rw [Meets, flagged]
  | once =>
    rw [Meets, flagged]
    split
    case isTrue satisfied => simp only [satisfied, true_and]
    case isFalse never => simp only [entry, never, false_and, not_false_eq_true]

end

end OpenThesis.Report
