import Mathlib.Algebra.Order.Field.Basic
import Mathlib.Algebra.Order.Field.Rat
import Mathlib.Data.List.Basic

/-!
# Causal attribution

`Branch` (`internal/orchestrator/multiverse.go`) replays a violation with and without each kind of
fault. Rates are rational, and every sorted order counts as a result.
-/

namespace OpenThesis.Orchestrator

open List

namespace Multiverse

universe u v

variable {ε : Type u}

inductive Outcome (ε : Type u) where
  | reproduced
  | notReproduced
  | error (e : ε)
  deriving DecidableEq, Repr

namespace Outcome

def isReproduced : Outcome ε → Bool
  | reproduced => true
  | _ => false

def error? : Outcome ε → Option ε
  | error e => some e
  | _ => none

def isCompleted (outcome : Outcome ε) : Bool :=
  outcome.error?.isNone

end Outcome

def reproductions (outcomes : List (Outcome ε)) : Nat :=
  outcomes.countP Outcome.isReproduced

def completed (outcomes : List (Outcome ε)) : Nat :=
  outcomes.countP Outcome.isCompleted

def runTrials (outcomes : List (Outcome ε)) : Except ε Nat :=
  match outcomes.findSome? Outcome.error? with
  | some e => if reproductions outcomes = 0 then .error e else .ok (reproductions outcomes)
  | none => .ok (reproductions outcomes)

structure CausalEntry where
  faultKind : String
  withRate : ℚ
  withoutRate : ℚ
  strength : ℚ
  trials : Nat
  reproductions : Nat
  deriving DecidableEq

structure BranchConfig where
  trialsPerConfig : Int
  faultKindsToTest : List String

def BranchConfig.trials (cfg : BranchConfig) : Nat :=
  if cfg.trialsPerConfig ≤ 0 then 10 else cfg.trialsPerConfig.toNat

def BranchConfig.kindsToTest (cfg : BranchConfig) (kinds : List String) : List String :=
  if cfg.faultKindsToTest = [] then
    kinds.foldl (fun seen kind =>
      if kind ≠ "" ∧ kind ∉ seen then seen ++ [kind] else seen) []
  else cfg.faultKindsToTest

def causalEntry (trials baseline : Nat) (kind : String) (outcomes : List (Outcome ε)) :
    CausalEntry :=
  let without : Nat := match runTrials outcomes with
    | .ok count => count
    | .error _ => 0
  let withRate : ℚ := baseline / trials
  let withoutRate : ℚ := without / trials
  { faultKind := kind, withRate, withoutRate, strength := withRate - withoutRate, trials,
    reproductions := without }

def mostCausal (attribution : List CausalEntry) : String :=
  match attribution with
  | [] => ""
  | entry :: _ => if 0 < entry.strength then entry.faultKind else ""

/-- The replays of a run of `Branch`. They know the number of the configuration, so that runs of one
schedule may differ. -/
structure Replays (ε : Type u) (E : Type v) (cfg : BranchConfig) where
  faultKind : E → String
  outcomes : Nat → List E → List (Outcome ε)
  length_outcomes : ∀ number schedule, (outcomes number schedule).length = cfg.trials

def attribution (trials baseline : Nat) (tested : List (String × List (Outcome ε))) :
    List CausalEntry :=
  tested.map fun test => causalEntry trials baseline test.1 test.2

namespace Replays

variable {E : Type v} {cfg : BranchConfig} (replays : Replays ε E cfg) (entries : List E)

def baseline : List (Outcome ε) :=
  replays.outcomes 0 entries

def tested : List (String × List (Outcome ε)) :=
  ((cfg.kindsToTest (entries.map replays.faultKind)).zipIdx 1).map fun kind =>
    (kind.1, replays.outcomes kind.2 (entries.filter (replays.faultKind · ≠ kind.1)))

/-- A kind that a run of `Branch` can report as the most causal one. -/
def Reports (kind : String) : Prop :=
  ∃ count, runTrials (replays.baseline entries) = .ok count ∧
    ∃ sorted : List CausalEntry,
      sorted.Perm (attribution cfg.trials count (replays.tested entries)) ∧
      sorted.Pairwise (fun first second => second.strength ≤ first.strength) ∧
      mostCausal sorted = kind ∧ kind ≠ ""

end Replays

/-- A configuration in which some trial fails, some runs to its end, and none reproduces the
violation. -/
def Masked (outcomes : List (Outcome ε)) : Prop :=
  reproductions outcomes = 0 ∧ 0 < completed outcomes ∧ completed outcomes < outcomes.length

section

variable {outcomes : List (Outcome ε)}

theorem reproductions_le_completed : reproductions outcomes ≤ completed outcomes := by
  apply countP_mono_left
  intro outcome _ reproduced
  cases outcome with
  | reproduced | notReproduced => rfl
  | error e => exact reproduced

theorem completed_eq_length_iff :
    completed outcomes = outcomes.length ↔ outcomes.findSome? Outcome.error? = none := by
  simp [completed, countP_eq_length, findSome?_eq_none_iff, Outcome.isCompleted]

theorem runTrials_error_iff : (∃ e, runTrials outcomes = .error e) ↔
      completed outcomes < outcomes.length ∧ reproductions outcomes = 0 := by
  have bound : completed outcomes ≤ outcomes.length := countP_le_length
  rw [lt_iff_le_and_ne, Ne, completed_eq_length_iff, runTrials]
  cases failed : outcomes.findSome? Outcome.error? with
  | none => simp
  | some e =>
    by_cases none : reproductions outcomes = 0
    · simp [none, bound]
    · simp [none]

theorem reproductions_causalEntry (trials baseline : Nat) (kind : String) :
    (causalEntry trials baseline kind outcomes).reproductions = reproductions outcomes := by
  simp only [causalEntry, runTrials]
  cases outcomes.findSome? Outcome.error? with
  | none => rfl
  | some e =>
    by_cases none : reproductions outcomes = 0
    · simp [none]
    · simp [none]

theorem strength_causalEntry (trials baseline : Nat) (kind : String) :
    (causalEntry trials baseline kind outcomes).strength =
      ((baseline : ℚ) - reproductions outcomes) / trials := by
  rw [← reproductions_causalEntry trials baseline kind, sub_div]
  rfl

end

theorem BranchConfig.trials_pos (cfg : BranchConfig) : 0 < cfg.trials := by
  unfold trials
  split_ifs with default
  · decide
  · omega

theorem eq_reproductions_of_runTrials {outcomes : List (Outcome ε)} {count : Nat}
    (returned : runTrials outcomes = .ok count) : count = reproductions outcomes := by
  unfold runTrials at returned
  split at returned
  · split_ifs at returned
    exact (Except.ok.inj returned).symm
  · exact (Except.ok.inj returned).symm

def rate (outcomes : List (Outcome ε)) : ℚ :=
  reproductions outcomes / completed outcomes

namespace Replays

variable {E : Type v} {cfg : BranchConfig} (replays : Replays ε E cfg) (entries : List E)

/-- The test has the fewest reproductions, and fewer than the baseline. -/
def Fewest (test : String × List (Outcome ε)) : Prop :=
  (∀ other ∈ replays.tested entries, reproductions test.2 ≤ reproductions other.2) ∧
    reproductions test.2 < reproductions (replays.baseline entries)

/-- Some replay without the kind ran to its end, and no kind with such a replay has a larger
difference of the rates. -/
def Supported (kind : String) : Prop :=
  ∃ test ∈ replays.tested entries, test.1 = kind ∧ 0 < completed test.2 ∧
    ∀ other ∈ replays.tested entries, 0 < completed other.2 →
      rate (replays.baseline entries) - rate other.2 ≤
        rate (replays.baseline entries) - rate test.2

section

variable {replays entries} {test other : String × List (Outcome ε)} {count : Nat}

theorem strength_pos_iff (kind : String) (outcomes : List (Outcome ε)) :
    0 < (causalEntry cfg.trials count kind outcomes).strength ↔ reproductions outcomes < count := by
  have positive : (0 : ℚ) < cfg.trials := by exact_mod_cast cfg.trials_pos
  rw [strength_causalEntry, div_pos_iff_of_pos_right positive, sub_pos, Nat.cast_lt]

theorem strength_le_iff : (causalEntry cfg.trials count other.1 other.2).strength ≤
        (causalEntry cfg.trials count test.1 test.2).strength ↔
      reproductions test.2 ≤ reproductions other.2 := by
  have positive : (0 : ℚ) < cfg.trials := by exact_mod_cast cfg.trials_pos
  rw [strength_causalEntry, strength_causalEntry, div_le_div_iff_of_pos_right positive,
    sub_le_sub_iff_left, Nat.cast_le]

end

theorem exists_sorted_cons {list : List CausalEntry} {entry : CausalEntry} (mem : entry ∈ list)
    (largest : ∀ other ∈ list, other.strength ≤ entry.strength) :
    ∃ sorted, (entry :: sorted).Perm list ∧
      (entry :: sorted).Pairwise (fun first second => second.strength ≤ first.strength) := by
  obtain ⟨before, after, rfl⟩ := append_of_mem mem
  let order : CausalEntry → CausalEntry → Bool :=
    fun first second => second.strength ≤ first.strength
  have perm : (entry :: (before ++ after).mergeSort order).Perm (before ++ entry :: after) :=
    ((mergeSort_perm _ _).cons entry).trans perm_middle.symm
  refine ⟨(before ++ after).mergeSort order, perm, List.Pairwise.cons ?_ ?_⟩
  · exact fun other later => largest other (perm.subset (mem_cons_of_mem entry later))
  · have sorted : ((before ++ after).mergeSort order).Pairwise (order · ·) := by
      apply pairwise_mergeSort
      · intro first second third one two
        simp only [order, decide_eq_true_eq] at one two ⊢
        exact two.trans one
      · intro first second
        simp only [order, Bool.or_eq_true, decide_eq_true_eq]
        exact le_total _ _
    simpa [order] using sorted

theorem runTrials_baseline_of_pos (positive : 0 < reproductions (replays.baseline entries)) :
    runTrials (replays.baseline entries) = .ok (reproductions (replays.baseline entries)) := by
  cases returned : runTrials (replays.baseline entries) with
  | error e =>
    have failed := runTrials_error_iff.mp ⟨e, returned⟩
    omega
  | ok count => rw [eq_reproductions_of_runTrials returned]

theorem reports_iff (kind : String) : replays.Reports entries kind ↔
      kind ≠ "" ∧ ∃ test ∈ replays.tested entries, test.1 = kind ∧ replays.Fewest entries test := by
  constructor
  · rintro ⟨count, returned, sorted, perm, pairwise, reported, named⟩
    refine ⟨named, ?_⟩
    obtain rfl := eq_reproductions_of_runTrials returned
    cases sorted with
    | nil => exact absurd reported.symm named
    | cons entry sorted =>
      obtain ⟨test, mem, rfl⟩ := mem_map.mp (perm.subset mem_cons_self)
      rw [mostCausal] at reported
      split_ifs at reported with positive
      · refine ⟨test, mem, reported, fun other otherMem => ?_, (strength_pos_iff _ _).mp positive⟩
        have entryMem := perm.symm.subset (mem_map_of_mem otherMem)
        rcases mem_cons.mp entryMem with same | later
        · exact strength_le_iff.mp (le_of_eq (congrArg CausalEntry.strength same))
        · exact strength_le_iff.mp (rel_of_pairwise_cons pairwise later)
      · exact absurd reported.symm named
  · rintro ⟨named, test, mem, rfl, fewest, less⟩
    obtain ⟨sorted, perm, pairwise⟩ := exists_sorted_cons
      (mem_map_of_mem (f := fun test => causalEntry cfg.trials
        (reproductions (replays.baseline entries)) test.1 test.2) mem)
      (by
        intro other otherMem
        obtain ⟨test', mem', rfl⟩ := mem_map.mp otherMem
        exact strength_le_iff.mpr (fewest test' mem'))
    refine ⟨_, replays.runTrials_baseline_of_pos entries (Nat.zero_lt_of_lt less), _, perm,
      pairwise, ?_, named⟩
    rw [mostCausal, if_pos ((strength_pos_iff _ _).mpr less)]
    rfl

/-- The kind with the fewest reproductions, and fewer than the baseline, has a replay that ran to
its end and the smallest rate. -/
def FewestSupported : Prop :=
  ∀ test ∈ replays.tested entries, test.1 ≠ "" → replays.Fewest entries test →
    ∃ same ∈ replays.tested entries, same.1 = test.1 ∧ 0 < completed same.2 ∧
      ∀ other ∈ replays.tested entries, 0 < completed other.2 →
        reproductions same.2 * completed other.2 ≤ reproductions other.2 * completed same.2

theorem supported_iff (kind : String) : replays.Supported entries kind ↔
      ∃ same ∈ replays.tested entries, same.1 = kind ∧ 0 < completed same.2 ∧
        ∀ other ∈ replays.tested entries, 0 < completed other.2 →
          reproductions same.2 * completed other.2 ≤ reproductions other.2 * completed same.2 := by
  refine exists_congr fun same => and_congr_right fun _ => and_congr_right fun _ =>
    and_congr_right fun positive => forall₂_congr fun other _ => imp_congr_right fun positive' => ?_
  rw [sub_le_sub_iff_left, rate, rate,
    div_le_div_iff₀ (by exact_mod_cast positive) (by exact_mod_cast positive')]
  exact_mod_cast Iff.rfl

def configurations : List (List (Outcome ε)) :=
  replays.baseline entries :: (replays.tested entries).map Prod.snd

theorem configuration_ne_nil {outcomes : List (Outcome ε)}
    (mem : outcomes ∈ replays.configurations entries) : 0 < outcomes.length := by
  have positive := cfg.trials_pos
  rcases mem_cons.mp mem with rfl | mem
  · exact (replays.length_outcomes _ _).symm ▸ positive
  · obtain ⟨test, testMem, rfl⟩ := mem_map.mp mem
    obtain ⟨kind, -, rfl⟩ := mem_map.mp testMem
    exact (replays.length_outcomes _ _).symm ▸ positive

/-- Errors are reported for the configurations without a replay that ran to its end, and the
reported kind is backed by such replays, exactly if no configuration mixes errors with replays that
do not reproduce the violation and every kind with the fewest reproductions has the smallest rate.
-/
theorem attribution_supported_iff :
    ((∀ outcomes ∈ replays.configurations entries,
        ((∃ e, runTrials outcomes = .error e) ↔ completed outcomes = 0)) ∧
      ∀ kind, replays.Reports entries kind → replays.Supported entries kind) ↔
    ((∀ outcomes ∈ replays.configurations entries, ¬ Masked outcomes) ∧
      replays.FewestSupported entries) := by
  apply and_congr
  · refine forall₂_congr fun outcomes mem => ?_
    have nonempty := replays.configuration_ne_nil entries mem
    have bound : reproductions outcomes ≤ completed outcomes := reproductions_le_completed
    rw [runTrials_error_iff, Masked]
    omega
  · simp only [reports_iff, supported_iff, FewestSupported]
    constructor
    · intro supported test mem named fewest
      exact supported test.1 ⟨named, test, mem, rfl, fewest⟩
    · rintro supported kind ⟨named, test, mem, rfl, fewest⟩
      exact supported test mem named fewest

def failWithoutDrop : Replays Unit Unit ⟨2, ["drop", "delay"]⟩ where
  faultKind := fun _ => ""
  outcomes
    | 0, _ => [.reproduced, .reproduced]
    | 1, _ => [.error (), .error ()]
    | _, _ => [.reproduced, .notReproduced]
  length_outcomes := by rintro (_ | _ | number) schedule <;> rfl

/-- Drops are reported as most causal although no replay without them ran to its end; and an error
for trials of which one did. -/
theorem attribution_without_replay :
    (failWithoutDrop.Reports [] "drop" ∧ ¬ failWithoutDrop.Supported [] "drop") ∧
      runTrials [.error (), .notReproduced] = .error () := by
  have tested : failWithoutDrop.tested [] =
      [("drop", [.error (), .error ()]), ("delay", [.reproduced, .notReproduced])] := rfl
  refine ⟨⟨?_, ?_⟩, rfl⟩
  · simp only [reports_iff, Fewest, tested]
    exact ⟨by decide, ("drop", [.error (), .error ()]), by decide, rfl, by decide, by decide⟩
  · rintro ⟨test, mem, named, positive, -⟩
    rw [tested] at mem
    rcases mem_pair.mp mem with rfl | rfl
    · exact absurd positive (by decide)
    · exact absurd named (by decide)

end Replays

end Multiverse

end OpenThesis.Orchestrator
