import Mathlib.Data.Rat.Defs
import Mathlib.Algebra.Order.Field.Rat
import Mathlib.Tactic.NormNum
import OpenThesis.Keyed.Core

/-!
# Sub-goals

Assertions whose sub-goals must all hold at once (`internal/explorer/subgoal.go`). Boosts are
rational.
-/

namespace OpenThesis.Explorer

open Keyed

abbrev SubGoals := Std.ExtTreeMap String Bool

structure SometimesAllState where
  name : String
  bestSubGoals : SubGoals := ∅
  bestCount : Int := 0
  totalSubGoals : Int
  satisfied : Bool := false

structure SometimesAllEval where
  name : String
  subGoals : SubGoals := ∅
  satisfiedCount : Int
  totalCount : Int

abbrev SometimesAllTracker := Std.ExtTreeMap String SometimesAllState

namespace SometimesAllEval

def Complete (eval : SometimesAllEval) : Prop :=
  eval.satisfiedCount = eval.totalCount ∧ 0 < eval.totalCount

instance (eval : SometimesAllEval) : Decidable eval.Complete :=
  inferInstanceAs (Decidable (_ ∧ _))

def progressBoost (eval : SometimesAllEval) : ℚ :=
  if 0 < eval.totalCount then eval.satisfiedCount / eval.totalCount * 5000 else 0

def newState (eval : SometimesAllEval) : SometimesAllState where
  name := eval.name
  totalSubGoals := eval.totalCount

end SometimesAllEval

namespace SometimesAllState

def Improves (state : SometimesAllState) (eval : SometimesAllEval) : Prop :=
  state.bestCount < eval.satisfiedCount

instance (state : SometimesAllState) (eval : SometimesAllEval) : Decidable (state.Improves eval) :=
  inferInstanceAs (Decidable (_ < _))

def Completes (state : SometimesAllState) (eval : SometimesAllEval) : Prop :=
  eval.Complete ∧ state.satisfied = false

instance (state : SometimesAllState) (eval : SometimesAllEval) : Decidable (state.Completes eval) :=
  inferInstanceAs (Decidable (_ ∧ _))

def boost (state : SometimesAllState) (eval : SometimesAllEval) : ℚ :=
  eval.progressBoost + (if state.Improves eval then 3000 else 0) +
    (if state.Completes eval then 10000 else 0)

def record (state : SometimesAllState) (eval : SometimesAllEval) : SometimesAllState where
  name := state.name
  bestSubGoals := if state.Improves eval then eval.subGoals else state.bestSubGoals
  bestCount := if state.Improves eval then eval.satisfiedCount else state.bestCount
  totalSubGoals := state.totalSubGoals
  satisfied := state.satisfied || eval.Complete

end SometimesAllState

namespace SometimesAllTracker

def stateFor (tracker : SometimesAllTracker) (eval : SometimesAllEval) : SometimesAllState :=
  (tracker[eval.name]?).getD eval.newState

def recordSometimesAllEval (tracker : SometimesAllTracker) (eval : SometimesAllEval) :
    ℚ × SometimesAllTracker :=
  ((tracker.stateFor eval).boost eval,
    tracker.insert eval.name ((tracker.stateFor eval).record eval))

def recordAll (tracker : SometimesAllTracker) :
    List SometimesAllEval → List ℚ × SometimesAllTracker
  | [] => ([], tracker)
  | eval :: evals =>
    let (boost, tracker) := tracker.recordSometimesAllEval eval
    let (boosts, tracker) := recordAll tracker evals
    (boost :: boosts, tracker)

end SometimesAllTracker

def sometimesAllCoverageKey (name : String) (subGoals : SubGoals) : String :=
  let trueGoals := (subGoals.toList.filter (·.2)).map (·.1)
  "sometimesAll:" ++ name ++ ":" ++ ",".intercalate trueGoals

namespace SometimesAllState

variable {state : SometimesAllState} {eval other : SometimesAllEval}

def Absorbs (state : SometimesAllState) (eval : SometimesAllEval) : Prop :=
  ¬ state.Improves eval ∧ ¬ state.Completes eval

theorem boost_eq_progressBoost_iff :
    state.boost eval = eval.progressBoost ↔ state.Absorbs eval := by
  unfold boost Absorbs
  rw [add_assoc, add_eq_left]
  by_cases improves : state.Improves eval <;> by_cases completes : state.Completes eval <;>
    norm_num [improves, completes]

theorem record_of_absorbs (absorbs : state.Absorbs eval) : state.record eval = state := by
  unfold record
  rw [if_neg absorbs.1, if_neg absorbs.1]
  have satisfied : (state.satisfied || decide eval.Complete) = state.satisfied := by
    cases held : state.satisfied with
    | true => rfl
    | false =>
      have incomplete : ¬ eval.Complete := fun complete => absorbs.2 ⟨complete, held⟩
      simp [incomplete]
  rw [satisfied]

theorem bestCount_le_record : state.bestCount ≤ (state.record eval).bestCount := by
  unfold record
  dsimp only
  split
  case isTrue improves => exact Int.le_of_lt improves
  case isFalse => exact Int.le_refl _

theorem absorbs_record_self : (state.record eval).Absorbs eval := by
  constructor
  · unfold Improves record
    dsimp only
    split
    case isTrue => exact Int.lt_irrefl _
    case isFalse notBetter => exact notBetter
  · rintro ⟨complete, unsatisfied⟩
    rw [record, decide_eq_true complete, Bool.or_true] at unsatisfied
    cases unsatisfied

theorem absorbs_record (absorbs : state.Absorbs eval) : (state.record other).Absorbs eval := by
  constructor
  · intro improves
    exact absorbs.1 (Int.lt_of_le_of_lt bestCount_le_record improves)
  · rintro ⟨complete, unsatisfied⟩
    apply absorbs.2 ⟨complete, ?_⟩
    cases held : state.satisfied with
    | false => rfl
    | true =>
      rw [record, held, Bool.true_or] at unsatisfied
      cases unsatisfied

end SometimesAllState

namespace SometimesAllTracker

variable {tracker : SometimesAllTracker} {eval : SometimesAllEval}

def Absorbs (tracker : SometimesAllTracker) (eval : SometimesAllEval) : Prop :=
  ∃ state, tracker[eval.name]? = some state ∧ state.Absorbs eval

theorem recordSometimesAllEval_of_absorbs (absorbs : tracker.Absorbs eval) :
    tracker.recordSometimesAllEval eval = (eval.progressBoost, tracker) := by
  obtain ⟨state, found, absorbed⟩ := absorbs
  have stateEq : tracker.stateFor eval = state := by
    rw [stateFor, found]
    rfl
  unfold recordSometimesAllEval
  rw [stateEq, SometimesAllState.boost_eq_progressBoost_iff.mpr absorbed,
    SometimesAllState.record_of_absorbs absorbed]
  congr 1
  apply Std.ExtTreeMap.ext_getElem?
  intro name
  rw [lookup_insert]
  split
  case isTrue same => rw [same, found]
  case isFalse => rfl

theorem absorbs_recorded : (tracker.recordSometimesAllEval eval).2.Absorbs eval := by
  refine ⟨(tracker.stateFor eval).record eval, ?_, SometimesAllState.absorbs_record_self⟩
  rw [recordSometimesAllEval, lookup_insert, if_pos rfl]

theorem absorbs_recordSometimesAllEval (absorbs : tracker.Absorbs eval) (other : SometimesAllEval) :
    (tracker.recordSometimesAllEval other).2.Absorbs eval := by
  obtain ⟨state, found, absorbed⟩ := absorbs
  unfold Absorbs recordSometimesAllEval
  dsimp only
  rw [lookup_insert]
  split
  case isTrue same =>
    refine ⟨_, rfl, ?_⟩
    rw [stateFor, ← same, found]
    exact SometimesAllState.absorbs_record absorbed
  case isFalse => exact ⟨state, found, absorbed⟩

variable (evals : List SometimesAllEval)

theorem recordAll_cons : tracker.recordAll (eval :: evals) =
      ((tracker.recordSometimesAllEval eval).1 ::
          ((tracker.recordSometimesAllEval eval).2.recordAll evals).1,
        ((tracker.recordSometimesAllEval eval).2.recordAll evals).2) :=
  rfl

theorem length_recordAll : (tracker.recordAll evals).1.length = evals.length := by
  induction evals generalizing tracker with
  | nil => rfl
  | cons eval evals ih => rw [recordAll_cons, List.length_cons, ih, List.length_cons]

theorem recordAll_append_snd (evals later : List SometimesAllEval) :
    (tracker.recordAll (evals ++ later)).2 = ((tracker.recordAll evals).2.recordAll later).2 := by
  induction evals generalizing tracker with
  | nil => rfl
  | cons first evals ih => exact ih

theorem absorbs_recordAll (absorbs : tracker.Absorbs eval) (evals : List SometimesAllEval) :
    (tracker.recordAll evals).2.Absorbs eval := by
  induction evals generalizing tracker with
  | nil => exact absorbs
  | cons other evals ih => exact ih (absorbs_recordSometimesAllEval absorbs other)

theorem absorbs_recordAll_of_mem {evals : List SometimesAllEval} (mem : eval ∈ evals) :
    (tracker.recordAll evals).2.Absorbs eval := by
  induction evals generalizing tracker with
  | nil => cases mem
  | cons other evals ih =>
    rcases List.mem_cons.mp mem with rfl | mem
    · exact absorbs_recordAll absorbs_recorded evals
    · exact ih mem

theorem recordAll_of_absorbs {evals : List SometimesAllEval}
    (absorbs : ∀ eval ∈ evals, tracker.Absorbs eval) :
    tracker.recordAll evals = (evals.map (·.progressBoost), tracker) := by
  induction evals with
  | nil => rfl
  | cons eval evals ih =>
    rw [List.forall_mem_cons] at absorbs
    rw [recordAll_cons, recordSometimesAllEval_of_absorbs absorbs.1, ih absorbs.2]
    rfl

theorem recordAll_again : (tracker.recordAll evals).2.recordAll evals =
      (evals.map (·.progressBoost), (tracker.recordAll evals).2) :=
  recordAll_of_absorbs fun _ mem => absorbs_recordAll_of_mem mem

theorem boosts_eq_iff : (tracker.recordAll evals).1 = evals.map (·.progressBoost) ↔
      ∀ before eval after, evals = before ++ eval :: after →
        ((tracker.recordAll before).2.stateFor eval).Absorbs eval := by
  induction evals generalizing tracker with
  | nil => simp [recordAll]
  | cons eval evals ih =>
    rw [recordAll_cons, List.map_cons, List.cons.injEq, ih]
    constructor
    · rintro ⟨head, tail⟩ before other after split
      cases before with
      | nil =>
        cases split
        exact SometimesAllState.boost_eq_progressBoost_iff.mp head
      | cons first before =>
        obtain ⟨rfl, rest⟩ := List.cons.inj split
        exact tail before other after rest
    · intro absorbs
      constructor
      · exact SometimesAllState.boost_eq_progressBoost_iff.mpr (absorbs [] eval evals rfl)
      · intro before other after split
        exact absorbs (eval :: before) other after (congrArg (eval :: ·) split)

end SometimesAllTracker

end OpenThesis.Explorer
