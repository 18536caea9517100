import OpenThesis.Explorer.SubGoal

/-!
# Progress of sub-goals in the report

The sub-goal tracker in a result (`BuildResult` in `internal/explorer/explorer.go`) and in the
report (`buildSometimesAllProgress` in `internal/report/report.go`).
-/

namespace OpenThesis.Report

open Explorer Keyed List Std

structure SubGoalStatus where
  name : String
  satisfied : Bool
  deriving DecidableEq, Repr

structure SometimesAllProgress where
  message : String
  satisfied : Bool
  subGoals : List SubGoalStatus
  deriving DecidableEq, Repr

def copyState (st : SometimesAllState) : SometimesAllState where
  name := ""
  bestSubGoals := st.bestSubGoals
  bestCount := st.bestCount
  totalSubGoals := st.totalSubGoals

def sometimesAllStates (tracker : SometimesAllTracker) : SometimesAllTracker :=
  tracker.map fun _ st => copyState st

def listSubGoals (subGoals : SubGoals) : List SubGoalStatus :=
  subGoals.toList.map fun (name, satisfied) => { name, satisfied }

def buildSometimesAllProgress (states : SometimesAllTracker) : List SometimesAllProgress :=
  states.toList.map fun (name, st) =>
    { message := name, satisfied := st.satisfied, subGoals := listSubGoals st.bestSubGoals }

def progressAfter (evals : List SometimesAllEval) : List SometimesAllProgress :=
  buildSometimesAllProgress
    (sometimesAllStates (SometimesAllTracker.recordAll ∅ evals).2)

def FirstBest (evals : List SometimesAllEval) (eval : SometimesAllEval) : Prop :=
  ∃ before after, evals = before ++ eval :: after ∧
    (∀ other ∈ before, other.satisfiedCount < eval.satisfiedCount) ∧
    ∀ other ∈ after, other.satisfiedCount ≤ eval.satisfiedCount

def evalsOf (name : String) (evals : List SometimesAllEval) : List SometimesAllEval :=
  evals.filter (·.name = name)

/-- The report shows every assertion once, whether it was ever complete, and the
sub-goals of the first of its best evaluations. -/
structure Accurate (evals : List SometimesAllEval) (progress : List SometimesAllProgress) :
    Prop where
  once : (progress.map (·.message)).Nodup
  messages : ∀ name, name ∈ progress.map (·.message) ↔ ∃ eval ∈ evals, eval.name = name
  satisfied : ∀ p ∈ progress,
    p.satisfied = true ↔ ∃ eval ∈ evalsOf p.message evals, eval.Complete
  subGoals : ∀ p ∈ progress, ∀ eval, FirstBest (evalsOf p.message evals) eval →
    0 < eval.satisfiedCount → p.subGoals = listSubGoals eval.subGoals

structure Summary (evals : List SometimesAllEval) (state : SometimesAllState) : Prop where
  nonneg : 0 ≤ state.bestCount
  bounded : ∀ eval ∈ evals, eval.satisfiedCount ≤ state.bestCount
  attained : state.bestCount = 0 ∨ ∃ eval ∈ evals, eval.satisfiedCount = state.bestCount
  best : ∀ eval, FirstBest evals eval → 0 < eval.satisfiedCount →
    state.bestSubGoals = eval.subGoals

theorem summary_newState (eval : SometimesAllEval) : Summary [] eval.newState where
  nonneg := Int.le_refl 0
  bounded := by simp
  attained := Or.inl rfl
  best other first _ := by
    obtain ⟨before, after, split, _⟩ := first
    simp at split

variable {eval : SometimesAllEval} {evals : List SometimesAllEval} {last : SometimesAllEval}
  {state : SometimesAllState} {p : SometimesAllProgress}

theorem firstBest_concat (first : FirstBest (evals ++ [last]) eval) :
    (FirstBest evals eval ∧ last.satisfiedCount ≤ eval.satisfiedCount) ∨
      (eval = last ∧ ∀ other ∈ evals, other.satisfiedCount < last.satisfiedCount) := by
  obtain ⟨before, after, split, worse, notBetter⟩ := first
  cases after using reverseRecOn with
  | nil =>
    obtain ⟨rfl, same⟩ := append_inj' split rfl
    obtain rfl := singleton_injective same
    exact Or.inr ⟨rfl, worse⟩
  | append_singleton after last' =>
    rw [← cons_append, ← append_assoc] at split
    obtain ⟨rfl, same⟩ := append_inj' split rfl
    obtain rfl := singleton_injective same
    left
    refine ⟨⟨before, after, rfl, worse, fun other mem => ?_⟩, ?_⟩
    · exact notBetter other (mem_append_left _ mem)
    · exact notBetter last (mem_append_right _ mem_cons_self)

theorem mem_of_firstBest (first : FirstBest evals eval) : eval ∈ evals := by
  obtain ⟨before, after, rfl, _⟩ := first
  exact mem_append_right _ mem_cons_self

theorem Summary.record_of_improves (summary : Summary evals state)
    (improves : state.Improves last) : Summary (evals ++ [last]) (state.record last) := by
  have better : state.bestCount < last.satisfiedCount := improves
  unfold SometimesAllState.record
  simp only [improves, if_true]
  constructor
  case nonneg => exact Int.le_trans summary.nonneg (Int.le_of_lt better)
  case bounded =>
    intro eval mem
    rcases mem_append.mp mem with mem | mem
    · exact Int.le_trans (summary.bounded eval mem) (Int.le_of_lt better)
    · rw [mem_singleton.mp mem]
  case attained => exact Or.inr ⟨last, mem_append_right _ mem_cons_self, rfl⟩
  case best =>
    intro eval first _
    rcases firstBest_concat first with ⟨before, notBetter⟩ | ⟨rfl, _⟩
    · have bound := summary.bounded eval (mem_of_firstBest before)
      omega
    · rfl

theorem Summary.record_of_not_improves (summary : Summary evals state)
    (worse : ¬ state.Improves last) : Summary (evals ++ [last]) (state.record last) := by
  have notBetter : last.satisfiedCount ≤ state.bestCount := Int.not_lt.mp worse
  unfold SometimesAllState.record
  simp only [worse, if_false]
  constructor
  case nonneg => exact summary.nonneg
  case bounded =>
    intro eval mem
    rcases mem_append.mp mem with mem | mem
    · exact summary.bounded eval mem
    · rw [mem_singleton.mp mem]
      exact notBetter
  case attained =>
    rcases summary.attained with zero | ⟨eval, mem, count⟩
    · exact Or.inl zero
    · exact Or.inr ⟨eval, mem_append_left _ mem, count⟩
  case best =>
    intro eval first positive
    rcases firstBest_concat first with ⟨before, _⟩ | ⟨rfl, below⟩
    · exact summary.best eval before positive
    · dsimp only
      rcases summary.attained with zero | ⟨other, mem, count⟩
      · omega
      · have fewer := below other mem
        omega

theorem Summary.record (summary : Summary evals state) (last : SometimesAllEval) :
    Summary (evals ++ [last]) (state.record last) := by
  by_cases improves : state.Improves last
  · exact summary.record_of_improves improves
  · exact summary.record_of_not_improves improves

/-- The tracker knows the assertions that were evaluated, and sums up the
evaluations of each. -/
structure Summarizes (evals : List SometimesAllEval) (tracker : SometimesAllTracker) : Prop where
  known : ∀ name, tracker[name]? = none ↔ evalsOf name evals = []
  summary : ∀ name state, tracker[name]? = some state → Summary (evalsOf name evals) state

theorem summarizes_nil : Summarizes [] ∅ where
  known name := by simp [evalsOf]
  summary name state found := by simp at found

theorem evalsOf_concat (name : String) (evals : List SometimesAllEval) (last : SometimesAllEval) :
    evalsOf name (evals ++ [last]) =
      if last.name = name then evalsOf name evals ++ [last] else evalsOf name evals := by
  unfold evalsOf
  rw [filter_append]
  by_cases same : last.name = name <;> simp [same]

theorem Summarizes.record {tracker : SometimesAllTracker} (summarizes : Summarizes evals tracker)
    (last : SometimesAllEval) :
    Summarizes (evals ++ [last]) (tracker.recordSometimesAllEval last).2 where
  known name := by
    rw [evalsOf_concat, SometimesAllTracker.recordSometimesAllEval, lookup_insert]
    by_cases same : name = last.name
    · simp [same]
    · rw [if_neg same, if_neg (Ne.symm same)]
      exact summarizes.known name
  summary name state found := by
    rw [SometimesAllTracker.recordSometimesAllEval, lookup_insert] at found
    rw [evalsOf_concat]
    by_cases same : name = last.name
    · rw [if_pos same] at found
      rw [if_pos same.symm, ← Option.some.inj found, same]
      apply Summary.record
      unfold SometimesAllTracker.stateFor
      cases before : tracker[last.name]? with
      | none =>
        rw [(summarizes.known last.name).mp before]
        exact summary_newState last
      | some state => exact summarizes.summary last.name state before
    · rw [if_neg same] at found
      rw [if_neg (Ne.symm same)]
      exact summarizes.summary name state found

theorem summarizes_recordAll (evals : List SometimesAllEval) :
    Summarizes evals (SometimesAllTracker.recordAll ∅ evals).2 := by
  induction evals using reverseRecOn with
  | nil => exact summarizes_nil
  | append_singleton evals last ih =>
    rw [SometimesAllTracker.recordAll_append_snd]
    exact ih.record last

theorem mem_progressAfter_iff : p ∈ progressAfter evals ↔ ∃ state,
      (SometimesAllTracker.recordAll ∅ evals).2[p.message]? = some state ∧
        p.satisfied = false ∧ p.subGoals = listSubGoals state.bestSubGoals := by
  unfold progressAfter buildSometimesAllProgress sometimesAllStates
  rw [ExtTreeMap.toList_map, map_map, mem_map]
  constructor
  · rintro ⟨⟨name, state⟩, mem, rfl⟩
    exact ⟨state, ExtTreeMap.mem_toList_iff_getElem?_eq_some.mp mem, rfl, rfl⟩
  · rintro ⟨state, found, unsatisfied, goals⟩
    refine ⟨(p.message, state), ExtTreeMap.mem_toList_iff_getElem?_eq_some.mpr found, ?_⟩
    obtain ⟨message, satisfied, subGoals⟩ := p
    dsimp only at unsatisfied goals
    rw [unsatisfied, goals]
    rfl

theorem map_message_progressAfter (evals : List SometimesAllEval) :
    (progressAfter evals).map (·.message) = (SometimesAllTracker.recordAll ∅ evals).2.keys := by
  unfold progressAfter buildSometimesAllProgress sometimesAllStates
  rw [ExtTreeMap.toList_map, map_map, map_map, ← ExtTreeMap.map_fst_toList_eq_keys]
  rfl

theorem mem_evalsOf_iff {name : String} :
    eval ∈ evalsOf name evals ↔ eval ∈ evals ∧ eval.name = name := by
  simp [evalsOf]

theorem mem_messages_iff {name : String} :
    name ∈ (progressAfter evals).map (·.message) ↔ ∃ eval ∈ evals, eval.name = name := by
  have known := (summarizes_recordAll evals).known name
  rw [map_message_progressAfter, ExtTreeMap.mem_keys, mem_iff_lookup,
    ← Option.ne_none_iff_exists', Ne, known, eq_nil_iff_forall_not_mem, not_forall]
  simp only [mem_evalsOf_iff, not_not]

theorem nodup_messages (evals : List SometimesAllEval) :
    ((progressAfter evals).map (·.message)).Nodup := by
  rw [map_message_progressAfter]
  exact ExtTreeMap.nodup_keys

theorem subGoals_eq (mem : p ∈ progressAfter evals)
    (first : FirstBest (evalsOf p.message evals) eval) (positive : 0 < eval.satisfiedCount) :
    p.subGoals = listSubGoals eval.subGoals := by
  obtain ⟨state, found, _, goals⟩ := mem_progressAfter_iff.mp mem
  have summary := (summarizes_recordAll evals).summary p.message state found
  rw [goals, summary.best eval first positive]

theorem not_satisfied (mem : p ∈ progressAfter evals) : p.satisfied = false := by
  obtain ⟨_, _, unsatisfied, _⟩ := mem_progressAfter_iff.mp mem
  exact unsatisfied

/-- The report is accurate exactly if no evaluation was complete: the flag is the
only thing it gets wrong. -/
theorem accurate_progressAfter_iff (evals : List SometimesAllEval) :
    Accurate evals (progressAfter evals) ↔ ∀ eval ∈ evals, ¬ eval.Complete := by
  constructor
  · intro accurate eval mem complete
    obtain ⟨p, shown, message⟩ := mem_map.mp (mem_messages_iff.mpr ⟨eval, mem, rfl⟩)
    have flag := (accurate.satisfied p shown).mpr
      ⟨eval, mem_evalsOf_iff.mpr ⟨mem, message.symm⟩, complete⟩
    rw [not_satisfied shown] at flag
    contradiction
  · intro incomplete
    constructor
    case once => exact nodup_messages evals
    case messages => exact fun _ => mem_messages_iff
    case satisfied =>
      intro p shown
      rw [not_satisfied shown]
      constructor
      · intro impossible
        contradiction
      · rintro ⟨eval, mem, complete⟩
        exact absurd complete (incomplete eval (mem_evalsOf_iff.mp mem).1)
    case subGoals => exact fun p shown eval first positive => subGoals_eq shown first positive

/-- A single evaluation that reaches its only goal is shown as not satisfied. -/
theorem progressAfter_hides_completion :
    let eval : SometimesAllEval :=
      { name := "elected", subGoals := ExtTreeMap.ofList [("leader", true)], satisfiedCount := 1,
        totalCount := 1 }
    progressAfter [eval] =
        [{ message := "elected", satisfied := false,
           subGoals := [{ name := "leader", satisfied := true }] }] ∧
      ¬ Accurate [eval] (progressAfter [eval]) := by
  intro eval
  have shown : progressAfter [eval] =
      [{ message := "elected", satisfied := false,
         subGoals := [{ name := "leader", satisfied := true }] }] := by decide +kernel
  refine ⟨shown, fun accurate => ?_⟩
  rw [shown] at accurate
  have flag := (accurate.satisfied _ mem_cons_self).mpr
    ⟨eval, mem_evalsOf_iff.mpr ⟨mem_cons_self, rfl⟩, by decide⟩
  contradiction

end OpenThesis.Report
