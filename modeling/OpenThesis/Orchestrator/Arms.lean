import Mathlib.Data.String.Basic
import OpenThesis.Fault.Mask
import OpenThesis.Orchestrator.Reward

/-!
# Statistics of the fault arms

Statistics of all workers (`GetAggregatedFaultArmStats` in `internal/orchestrator/pool.go`, of the
selectors of `internal/fault/adaptive.go`), merged into those of earlier rounds
(`internal/store/faulthistory.go`). Rewards are rational, and pulls do not overflow.
-/

namespace OpenThesis.Orchestrator

open Fault Keyed Function

structure ArmStats where
  kind : Kind
  pulls : Nat
  avgReward : ℚ
  baseRate : ℚ

def ArmStats.reward (s : ArmStats) : ℚ :=
  s.avgReward * s.pulls

/-- A selector with its base rates, as the constructor, `RecordReward` and `WarmStart` leave it: the
kinds are different, and an arm that was never pulled has no reward. -/
structure RatedSelector extends AdaptiveFaultSelector where
  baseRate : Kind → ℚ
  nodup : kinds.Nodup
  unpulled : ∀ kind, (arms kind).pulls = 0 → (arms kind).totalReward = 0

theorem unpulled_update {arms : Kind → FaultArm} {arm : FaultArm} (pulled : 0 < arm.pulls)
    (unpulled : ∀ kind, (arms kind).pulls = 0 → (arms kind).totalReward = 0) (kind other : Kind)
    (none : (update arms kind arm other).pulls = 0) :
    (update arms kind arm other).totalReward = 0 := by
  by_cases same : other = kind
  · rw [same, update_self] at none
    omega
  · rw [update_of_ne same] at none ⊢
    exact unpulled other none

/-- The kinds are the keys of the map of base rates, in the order of their names. -/
def newAdaptiveFaultSelector (baseRates : Kind → Option ℚ) : RatedSelector where
  kinds := (Kind.all.filter fun kind => (baseRates kind).isSome).mergeSort (·.name ≤ ·.name)
  baseRate kind := (baseRates kind).getD 0
  nodup := (List.mergeSort_perm _ _).nodup_iff.mpr (List.Nodup.filter _ (by decide))
  unpulled _ _ := rfl

def RatedSelector.recordReward (a : RatedSelector) (kind : Kind) (reward : ℚ) :
    RatedSelector where
  toAdaptiveFaultSelector := a.toAdaptiveFaultSelector.recordReward kind reward
  baseRate := a.baseRate
  nodup := (a.kinds_recordReward kind reward).symm ▸ a.nodup
  unpulled := by
    unfold AdaptiveFaultSelector.recordReward
    split
    · exact unpulled_update (Nat.succ_pos _) a.unpulled kind
    · exact a.unpulled

/-- One record of `WarmStart`. Saved pulls count half, but at least one. -/
def AdaptiveFaultSelector.warm (a : AdaptiveFaultSelector) (s : ArmStats) :
    AdaptiveFaultSelector :=
  if s.pulls = 0 ∨ s.kind ∉ a.kinds then a
  else
    let scaledPulls := if s.pulls / 2 = 0 then 1 else s.pulls / 2
    let arm := { pulls := scaledPulls, totalReward := s.avgReward * scaledPulls }
    { a with
      arms := update a.arms s.kind arm
      total := a.total + scaledPulls
      maxAvgRwd := max a.maxAvgRwd s.avgReward }

def RatedSelector.warm (a : RatedSelector) (s : ArmStats) : RatedSelector where
  toAdaptiveFaultSelector := a.toAdaptiveFaultSelector.warm s
  baseRate := a.baseRate
  nodup := by
    unfold AdaptiveFaultSelector.warm
    split <;> exact a.nodup
  unpulled := by
    unfold AdaptiveFaultSelector.warm
    split
    · exact a.unpulled
    · refine unpulled_update ?_ a.unpulled s.kind
      dsimp only
      split_ifs <;> omega

def RatedSelector.warmStart (a : RatedSelector) (saved : List ArmStats) : RatedSelector :=
  saved.foldl RatedSelector.warm a

def RatedSelector.armStats (a : RatedSelector) (kind : Kind) : ArmStats where
  kind
  pulls := (a.arms kind).pulls
  avgReward :=
    if 0 < (a.arms kind).pulls then (a.arms kind).totalReward / (a.arms kind).pulls else 0
  baseRate := a.baseRate kind

def RatedSelector.allStats (a : RatedSelector) : List ArmStats :=
  a.kinds.map a.armStats

def ArmStats.add : Option ArmStats → ArmStats → ArmStats
  | none, s => s
  | some existing, s =>
    let pulls := existing.pulls + s.pulls
    let sum := existing.avgReward * (pulls - s.pulls : Nat) + s.avgReward * s.pulls
    { existing with pulls, avgReward := if 0 < pulls then sum / pulls else sum }

def workerStats (workers : List (Option RatedSelector)) : List ArmStats :=
  workers.flatMap fun w => w.elim [] (·.allStats)

def getAggregatedFaultArmStats (workers : List (Option RatedSelector)) : List ArmStats :=
  (accumulate (·.kind.name) ArmStats.add ∅ (workerStats workers)).toList.map Prod.snd

def armOf (kind : Kind) (w : Option RatedSelector) : FaultArm :=
  w.elim {} fun a => if kind ∈ a.kinds then a.arms kind else {}

/-- The entry has the pulls of the statistics and the mean of their rewards. -/
structure Pooled (stats : List ArmStats) (e : ArmStats) : Prop where
  pulls : e.pulls = (stats.map (·.pulls)).sum
  reward : e.reward = (stats.map (·.reward)).sum
  unpulled : e.pulls = 0 → e.avgReward = 0
  known : ∃ s ∈ stats, e.kind = s.kind

variable {stats : List ArmStats} {e : ArmStats}

theorem Pooled.add (pooled : Pooled stats e) (s : ArmStats) :
    Pooled (stats ++ [s]) (.add (some e) s) := by
  have sum : e.avgReward * (e.pulls + s.pulls - s.pulls : Nat) + s.avgReward * s.pulls =
      ((stats ++ [s]).map (·.reward)).sum := by
    rw [Nat.add_sub_cancel, List.map_append, List.sum_append, ← pooled.reward]
    simp [ArmStats.reward]
  obtain ⟨other, mem, same⟩ := pooled.known
  refine ⟨by simp [ArmStats.add, pooled.pulls], ?_, ?_, other, List.mem_append_left _ mem, same⟩
  · rw [← sum, ArmStats.reward, ArmStats.add]
    split_ifs with positive
    · exact div_mul_cancel₀ _ (Nat.cast_ne_zero.mpr positive.ne')
    · have none := Nat.add_eq_zero_iff.mp (Nat.eq_zero_of_not_pos positive)
      simp [none]
  · intro none
    have none := Nat.add_eq_zero_iff.mp none
    simp [ArmStats.add, none]

theorem exists_pooled (nonempty : stats ≠ [])
    (unpulled : ∀ s ∈ stats, s.pulls = 0 → s.avgReward = 0) :
    ∃ e, stats.foldl (fun old s => some (ArmStats.add old s)) none = some e ∧ Pooled stats e := by
  induction stats using List.reverseRecOn with
  | nil => contradiction
  | append_singleton stats s ih =>
    rw [List.foldl_concat]
    by_cases empty : stats = []
    · subst empty
      exact ⟨s, rfl, by simp, by simp, unpulled s (by simp), s, by simp, rfl⟩
    · obtain ⟨e, found, pooled⟩ := ih empty fun s mem => unpulled s (List.mem_append_left _ mem)
      exact ⟨_, congrArg (fun old => some (ArmStats.add old s)) found, pooled.add s⟩

theorem filter_allStats (a : RatedSelector) (kind : Kind) :
    a.allStats.filter (·.kind.name = kind.name) =
      if kind ∈ a.kinds then [a.armStats kind] else [] := by
  have same : a.kinds.filter (fun k => decide (k.name = kind.name)) = a.kinds.filter (· == kind) :=
    List.filter_congr fun k _ => by
      simp [Kind.name_injective.eq_iff, beq_eq_decide]
  rw [RatedSelector.allStats, List.filter_map]
  change (a.kinds.filter fun k => decide (k.name = kind.name)).map a.armStats = _
  rw [same, List.filter_beq, a.nodup.count]
  split <;> rfl

theorem sum_filter_workerStats {M : Type*} [AddCommMonoid M] {f : ArmStats → M} {g : FaultArm → M}
    (kind : Kind) (zero : g {} = 0)
    (same : ∀ a : RatedSelector, f (a.armStats kind) = g (a.arms kind))
    (workers : List (Option RatedSelector)) :
    (((workerStats workers).filter (·.kind.name = kind.name)).map f).sum =
      (workers.map fun w => g (armOf kind w)).sum := by
  induction workers with
  | nil => rfl
  | cons w workers ih =>
    rw [workerStats, List.flatMap_cons, List.filter_append, List.map_append, List.sum_append,
      ← workerStats, ih, List.map_cons, List.sum_cons]
    congr 1
    cases w with
    | none => simp [armOf, zero]
    | some a =>
      rw [Option.elim_some, filter_allStats]
      by_cases known : kind ∈ a.kinds
      · simp [armOf, known, same]
      · simp [armOf, known, zero]

theorem mem_workerStats {workers : List (Option RatedSelector)} {s : ArmStats} :
    s ∈ workerStats workers ↔ ∃ a, some a ∈ workers ∧ s.kind ∈ a.kinds ∧ s = a.armStats s.kind := by
  simp only [workerStats, List.mem_flatMap]
  constructor
  · rintro ⟨w, mem, inside⟩
    cases w with
    | none => simp at inside
    | some a =>
      obtain ⟨kind, known, rfl⟩ := List.mem_map.mp inside
      exact ⟨a, mem, known, rfl⟩
  · rintro ⟨a, mem, known, equal⟩
    exact ⟨some a, mem, equal ▸ List.mem_map_of_mem known⟩

variable {workers : List (Option RatedSelector)}

theorem exists_aggregated {name : String}
    (nonempty : (workerStats workers).filter (·.kind.name = name) ≠ []) :
    ∃ e, (accumulate (·.kind.name) ArmStats.add ∅ (workerStats workers))[name]? = some e ∧
      Pooled ((workerStats workers).filter (·.kind.name = name)) e := by
  rw [lookup_accumulate, Std.ExtTreeMap.getElem?_empty]
  apply exists_pooled nonempty
  intro s mem none
  obtain ⟨a, -, -, equal⟩ := mem_workerStats.mp (List.mem_filter.mp mem).1
  rw [equal] at none ⊢
  exact if_neg (Nat.not_lt.mpr (Nat.le_zero.mpr none))

theorem lookup_aggregated {name : String}
    (found : (accumulate (·.kind.name) ArmStats.add ∅ (workerStats workers))[name]? = some e) :
    e.kind.name = name ∧ Pooled ((workerStats workers).filter (·.kind.name = name)) e := by
  have nonempty : (workerStats workers).filter (·.kind.name = name) ≠ [] := by
    intro empty
    simp [lookup_accumulate, empty] at found
  obtain ⟨other, found', pooled⟩ := exists_aggregated nonempty
  cases found.symm.trans found'
  obtain ⟨s, mem, same⟩ := pooled.known
  rw [same]
  exact ⟨of_decide_eq_true (List.mem_filter.mp mem).2, pooled⟩

theorem mem_aggregated_iff : e ∈ getAggregatedFaultArmStats workers ↔
    (accumulate (·.kind.name) ArmStats.add ∅ (workerStats workers))[e.kind.name]? = some e :=
  mem_values_iff fun _ _ found => (lookup_aggregated found).1

theorem sorted_aggregated (workers : List (Option RatedSelector)) :
    ((getAggregatedFaultArmStats workers).map (·.kind.name)).Pairwise (· < ·) := by
  have sorted : (getAggregatedFaultArmStats workers).Pairwise _ :=
    pairwise_values fun _ _ found => (lookup_aggregated found).1
  exact List.pairwise_map.mpr (sorted.imp compare_lt_iff_lt.mp)

theorem mem_kinds_aggregated {kind : Kind} :
    kind ∈ (getAggregatedFaultArmStats workers).map (·.kind) ↔
      ∃ a, some a ∈ workers ∧ kind ∈ a.kinds := by
  constructor
  · intro mem
    obtain ⟨e, inside, rfl⟩ := List.mem_map.mp mem
    obtain ⟨s, mem, same⟩ := (lookup_aggregated (mem_aggregated_iff.mp inside)).2.known
    obtain ⟨a, there, known, -⟩ := mem_workerStats.mp (List.mem_filter.mp mem).1
    exact ⟨a, there, same ▸ known⟩
  · rintro ⟨a, there, known⟩
    have mem : a.armStats kind ∈ (workerStats workers).filter (·.kind.name = kind.name) :=
      List.mem_filter.mpr ⟨mem_workerStats.mpr ⟨a, there, known, rfl⟩, decide_eq_true rfl⟩
    obtain ⟨e, found, -⟩ := exists_aggregated (List.ne_nil_of_mem mem)
    obtain rfl := Kind.name_injective (lookup_aggregated found).1
    exact List.mem_map_of_mem (mem_aggregated_iff.mpr found)

theorem aggregated_sums (mem : e ∈ getAggregatedFaultArmStats workers) :
    e.pulls = (workers.map fun w => (armOf e.kind w).pulls).sum ∧
      e.reward = (workers.map fun w => (armOf e.kind w).totalReward).sum ∧
      e.avgReward = e.reward / e.pulls := by
  have pooled := (lookup_aggregated (mem_aggregated_iff.mp mem)).2
  have total (a : RatedSelector) :
      (a.armStats e.kind).reward = (a.arms e.kind).totalReward := by
    rw [ArmStats.reward, RatedSelector.armStats]
    split_ifs with positive
    · exact div_mul_cancel₀ _ (Nat.cast_ne_zero.mpr positive.ne')
    · rw [zero_mul, a.unpulled _ (Nat.eq_zero_of_not_pos positive)]
  refine ⟨pooled.pulls.trans (sum_filter_workerStats _ rfl (fun _ => rfl) _),
    pooled.reward.trans (sum_filter_workerStats _ rfl total _), ?_⟩
  by_cases none : e.pulls = 0
  · simp [pooled.unpulled none, none]
  · exact (mul_div_cancel_right₀ _ (Nat.cast_ne_zero.mpr none)).symm

theorem kinds_aggregated_perm {workers' : List (Option RatedSelector)}
    (perm : workers'.Perm workers) : (getAggregatedFaultArmStats workers').map (·.kind) =
      (getAggregatedFaultArmStats workers).map (·.kind) := by
  have sorted (workers : List (Option RatedSelector)) :
      ((getAggregatedFaultArmStats workers).map (·.kind)).Pairwise fun a b => a.name < b.name :=
    List.pairwise_map.mpr (List.pairwise_map.mp (sorted_aggregated workers))
  have nodup (workers : List (Option RatedSelector)) :=
    (sorted workers).imp fun less same => less.ne (congrArg Kind.name same)
  refine List.Perm.eq_of_pairwise (fun a b _ _ less more => absurd less more.asymm) (sorted _)
    (sorted _) ((List.perm_ext_iff_of_nodup (nodup _) (nodup _)).mpr fun kind => ?_)
  simp only [mem_kinds_aggregated, perm.mem_iff]

/-- There is one entry for each kind that a worker knows, sorted by the name, with all pulls and the
mean of all rewards, whatever the order of the workers. -/
theorem aggregated_stats (workers : List (Option RatedSelector)) :
    let result := getAggregatedFaultArmStats workers
    (result.map (·.kind.name)).Pairwise (· < ·) ∧
      (∀ kind, kind ∈ result.map (·.kind) ↔ ∃ a, some a ∈ workers ∧ kind ∈ a.kinds) ∧
      (∀ e ∈ result, e.pulls = (workers.map fun w => (armOf e.kind w).pulls).sum ∧
        e.avgReward * e.pulls = (workers.map fun w => (armOf e.kind w).totalReward).sum) ∧
      ∀ workers', workers'.Perm workers →
        (getAggregatedFaultArmStats workers').map (fun e => (e.kind, e.pulls, e.avgReward)) =
          result.map fun e => (e.kind, e.pulls, e.avgReward) := by
  refine ⟨sorted_aggregated workers, fun _ => mem_kinds_aggregated,
    fun e mem => ⟨(aggregated_sums mem).1, (aggregated_sums mem).2.1⟩, ?_⟩
  intro workers' perm
  let pulls (kind : Kind) := (workers.map fun w => (armOf kind w).pulls).sum
  let reward (kind : Kind) := (workers.map fun w => (armOf kind w).totalReward).sum
  have entries (other : List (Option RatedSelector)) (perm : other.Perm workers) :
      (getAggregatedFaultArmStats other).map (fun e => (e.kind, e.pulls, e.avgReward)) =
        ((getAggregatedFaultArmStats other).map (·.kind)).map
          fun kind => (kind, pulls kind, reward kind / pulls kind) := by
    rw [List.map_map]
    apply List.map_congr_left
    intro e mem
    obtain ⟨isPulls, isReward, mean⟩ := aggregated_sums mem
    rw [mean, isReward, isPulls, (perm.map _).sum_eq, (perm.map _).sum_eq]
    rfl
  rw [entries workers' perm, entries workers (.refl _), kinds_aggregated_perm perm]

-- three saved pulls count as one; another worker is rewarded once, and one has no selector
example :
    let rates : Kind → Option ℚ := fun kind => if kind = .drop then some 1 else none
    let new := newAdaptiveFaultSelector rates
    (getAggregatedFaultArmStats [some (new.warmStart [⟨.drop, 3, 4, 1⟩]), none,
        some (new.recordReward .drop 10)]).map (fun e => (e.kind, e.pulls, e.avgReward)) =
      [(.drop, 2, 7)] := by
  decide +kernel

def ArmStats.merge : Option ArmStats → ArmStats → ArmStats
  | none, s => s
  | some prev, s =>
    let halvePulls := if prev.pulls / 2 = 0 then 1 else prev.pulls / 2
    let totalPulls := halvePulls + s.pulls
    { kind := s.kind
      pulls := totalPulls
      avgReward := (prev.avgReward * halvePulls + s.avgReward * s.pulls) / totalPulls
      baseRate := s.baseRate }

structure FaultHistoryRecord where
  rounds : Nat := 0
  arms : Std.ExtTreeMap String ArmStats := ∅

def FaultHistoryRecord.merge (existing : FaultHistoryRecord) (stats : List ArmStats) :
    FaultHistoryRecord where
  rounds := existing.rounds + 1
  arms := accumulate (·.kind.name) ArmStats.merge existing.arms (stats.filter (0 < ·.pulls))

def mergeRounds (rounds : List (List ArmStats)) : FaultHistoryRecord :=
  rounds.foldl FaultHistoryRecord.merge {}

def mergedFor (kind : Kind) (rounds : List (List ArmStats)) : List ArmStats :=
  (rounds.flatten.filter (0 < ·.pulls)).filter (·.kind.name = kind.name)

structure Between (stats : List ArmStats) (e : ArmStats) : Prop where
  positive : 0 < e.pulls
  least : ∃ s ∈ stats, s.avgReward ≤ e.avgReward
  most : ∃ s ∈ stats, e.avgReward ≤ s.avgReward
  pulls : ∃ s ∈ stats, e.pulls ≤ 2 * s.pulls
  known : ∃ s ∈ stats, e.kind = s.kind

theorem mean_between {a b : ℚ} {p q : Nat} (positive : 0 < q) (le : a ≤ b) :
    a ≤ (a * p + b * q) / (p + q : Nat) ∧ (a * p + b * q) / (p + q : Nat) ≤ b := by
  have total : (0 : ℚ) < (p + q : Nat) := Nat.cast_pos.mpr (Nat.add_pos_right p positive)
  have weights : (0 : ℚ) ≤ p ∧ (0 : ℚ) ≤ q := ⟨Nat.cast_nonneg p, Nat.cast_nonneg q⟩
  rw [le_div_iff₀ total, div_le_iff₀ total]
  push_cast
  constructor <;> nlinarith

theorem Between.merge {s : ArmStats} (between : Between stats e) (pulled : 0 < s.pulls) :
    Between (stats ++ [s]) (.merge (some e) s) := by
  have last : s ∈ stats ++ [s] := by simp
  obtain ⟨low, lowMem, low_le⟩ := between.least
  obtain ⟨high, highMem, le_high⟩ := between.most
  obtain ⟨largest, largestMem, bound⟩ := between.pulls
  have positive := between.positive
  set halved := if e.pulls / 2 = 0 then 1 else e.pulls / 2 with halved_eq
  have halved_bounds : 0 < halved ∧ halved ≤ largest.pulls := by
    rw [halved_eq]
    split_ifs <;> omega
  have mean : (ArmStats.merge (some e) s).avgReward =
      (e.avgReward * halved + s.avgReward * s.pulls) / (halved + s.pulls : Nat) := rfl
  have pulls : (ArmStats.merge (some e) s).pulls = halved + s.pulls := rfl
  refine ⟨by omega, ?_, ?_, ?_, s, last, rfl⟩
  · rcases le_total e.avgReward s.avgReward with le | le
    · exact ⟨low, List.mem_append_left _ lowMem, low_le.trans (mean ▸ (mean_between pulled le).1)⟩
    · refine ⟨s, last, ?_⟩
      rw [mean, add_comm, add_comm halved]
      exact (mean_between halved_bounds.1 le).1
  · rcases le_total e.avgReward s.avgReward with le | le
    · exact ⟨s, last, mean ▸ (mean_between pulled le).2⟩
    · refine ⟨high, List.mem_append_left _ highMem, le_trans ?_ le_high⟩
      rw [mean, add_comm, add_comm halved]
      exact (mean_between halved_bounds.1 le).2
  -- the larger of the largest round so far and this one
  · rcases le_total largest.pulls s.pulls with le | le
    · exact ⟨s, last, by omega⟩
    · exact ⟨largest, List.mem_append_left _ largestMem, by omega⟩

theorem exists_between (nonempty : stats ≠ []) (pulled : ∀ s ∈ stats, 0 < s.pulls) :
    ∃ e, stats.foldl (fun old s => some (ArmStats.merge old s)) none = some e ∧
      Between stats e := by
  induction stats using List.reverseRecOn with
  | nil => contradiction
  | append_singleton stats s ih =>
    have last : 0 < s.pulls := pulled s (by simp)
    rw [List.foldl_concat]
    by_cases empty : stats = []
    · subst empty
      exact ⟨s, rfl, last, by simp, by simp, ⟨s, by simp, by simp [Nat.two_mul]⟩, s, by simp, rfl⟩
    · obtain ⟨e, found, between⟩ := ih empty fun s mem => pulled s (List.mem_append_left _ mem)
      exact ⟨_, congrArg (fun old => some (ArmStats.merge old s)) found, between.merge last⟩

theorem mergeRounds_eq (rounds : List (List ArmStats)) :
    mergeRounds rounds =
      { rounds := rounds.length
        arms := accumulate (·.kind.name) ArmStats.merge ∅
          (rounds.flatten.filter (0 < ·.pulls)) } := by
  induction rounds using List.reverseRecOn with
  | nil => rfl
  | append_singleton rounds stats ih =>
    rw [mergeRounds, List.foldl_concat, ← mergeRounds, ih]
    simp [FaultHistoryRecord.merge, accumulate]

theorem exists_merged {rounds : List (List ArmStats)} {name : String}
    (nonempty : (rounds.flatten.filter (0 < ·.pulls)).filter (·.kind.name = name) ≠ []) :
    ∃ e, (mergeRounds rounds).arms[name]? = some e ∧ e.kind.name = name ∧
      Between ((rounds.flatten.filter (0 < ·.pulls)).filter (·.kind.name = name)) e := by
  rw [mergeRounds_eq, lookup_accumulate, Std.ExtTreeMap.getElem?_empty]
  obtain ⟨e, found, between⟩ := exists_between nonempty fun s mem =>
    of_decide_eq_true (List.mem_filter.mp (List.mem_filter.mp mem).1).2
  obtain ⟨s, mem, same⟩ := between.known
  exact ⟨e, found, same ▸ of_decide_eq_true (List.mem_filter.mp mem).2, between⟩

/-- Every kind that was pulled has one entry, with a mean between those that were merged and at most
twice the pulls of a round. -/
theorem history_sane (rounds : List (List ArmStats)) :
    (mergeRounds rounds).rounds = rounds.length ∧
      (∀ (name : String) (e : ArmStats), (mergeRounds rounds).arms[name]? = some e →
        e.kind.name = name) ∧
      ∀ kind, mergedFor kind rounds ≠ [] →
        ∃ e, (mergeRounds rounds).arms[kind.name]? = some e ∧ e.kind = kind ∧ 0 < e.pulls ∧
          (∃ s ∈ mergedFor kind rounds, s.avgReward ≤ e.avgReward) ∧
          (∃ s ∈ mergedFor kind rounds, e.avgReward ≤ s.avgReward) ∧
          ∃ s ∈ mergedFor kind rounds, e.pulls ≤ 2 * s.pulls := by
  refine ⟨by rw [mergeRounds_eq], ?_, ?_⟩
  · intro name e found
    have nonempty : (rounds.flatten.filter (0 < ·.pulls)).filter (·.kind.name = name) ≠ [] := by
      intro empty
      rw [mergeRounds_eq, lookup_accumulate, empty] at found
      simp at found
    obtain ⟨other, found', named, -⟩ := exists_merged nonempty
    cases found.symm.trans found'
    exact named
  · intro kind nonempty
    obtain ⟨e, found, named, between⟩ := exists_merged nonempty
    exact ⟨e, found, Kind.name_injective named, between.positive, between.least, between.most,
      between.pulls⟩

end OpenThesis.Orchestrator
