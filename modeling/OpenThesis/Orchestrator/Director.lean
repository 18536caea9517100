import Mathlib.Data.Rat.Floor
import OpenThesis.Report.Properties
import OpenThesis.Ring.Core
import OpenThesis.Store.Regression

/-!
# The campaign director

After a round the director looks at the growth of the coverage (`internal/orchestrator/director.go`,
`saturation.go`), and may change the phase (`evolver.go`) or escalate the faults (`escalator.go`).
Numbers are rational, and the number of recorded bursts does not overflow.
-/

namespace OpenThesis.Orchestrator

open Explorer Store Keyed List

universe u

/-- The new edges of the last rounds. -/
structure SaturationDetector where
  window : List Int64
  size : Nat
  pos : Nat := 0
  filled : Bool := false
  threshold : ℚ
  minBursts : Nat
  size_pos : 0 < size
  length_window : window.length = size
  minBursts_le : minBursts ≤ size

def positiveOr {α : Type u} [Zero α] [LE α] [DecidableLE α] (default n : α) : α :=
  if n ≤ 0 then default else n

theorem positiveOr_pos {α : Type u} [Zero α] [LinearOrder α] {default : α} (n : α)
    (positive : 0 < default) : 0 < positiveOr default n := by
  rw [positiveOr]
  split_ifs with le
  · exact positive
  · exact not_le.mp le

def newSaturationDetector (size : Int) (threshold : ℚ) : SaturationDetector :=
  let size := (positiveOr 100 size).toNat
  { window := replicate size 0
    size
    threshold := positiveOr (1 / 2) threshold
    minBursts := size / 2
    size_pos := Int.lt_toNat.mpr (positiveOr_pos _ (by decide))
    length_window := length_replicate
    minBursts_le := Nat.div_le_self _ _ }

namespace SaturationDetector

variable (d : SaturationDetector)

def record (newEdges : Int64) : SaturationDetector :=
  { d with
    window := d.window.set (d.pos % d.size) newEdges
    pos := d.pos + 1
    filled := d.filled || decide (d.size ≤ d.pos + 1)
    length_window := length_set.trans d.length_window }

def recorded : Nat :=
  if d.filled then d.size else d.pos

def total : Int64 :=
  (d.window.take d.recorded).foldl (· + ·) 0

def saturated : Bool :=
  d.minBursts ≤ d.pos && d.recorded ≠ 0 &&
    decide ((d.total.toInt : ℚ) / d.recorded < d.threshold)

def rate : ℚ :=
  if d.pos = 0 then 1 else (d.total.toInt : ℚ) / d.recorded

end SaturationDetector

inductive ExplorationPhase
  | normal
  | restart
  | deepDive
  | faultEscalate
  | profileSwitch
  | branchHunt
  deriving DecidableEq, Repr

def ExplorationPhase.nextPhase : ExplorationPhase → ExplorationPhase
  | normal => faultEscalate
  | faultEscalate => deepDive
  | deepDive => profileSwitch
  | profileSwitch => branchHunt
  | branchHunt => restart
  | restart => normal

structure StrategyEvolver where
  current : ExplorationPhase := .normal
  roundsInPhase : Int := 0
  saturationRoundsBeforeShift : Int
  rounds_pos : 0 < saturationRoundsBeforeShift

def newStrategyEvolver (satRounds : Int) : StrategyEvolver where
  saturationRoundsBeforeShift := positiveOr 2 satRounds
  rounds_pos := positiveOr_pos _ (by decide)

namespace StrategyEvolver

def advance (e : StrategyEvolver) (saturated : Bool) : StrategyEvolver × Bool :=
  let e := { e with roundsInPhase := if saturated then e.roundsInPhase + 1 else 0 }
  if e.roundsInPhase < e.saturationRoundsBeforeShift then (e, false)
  else ({ e with roundsInPhase := 0, current := e.current.nextPhase }, true)

def reset (e : StrategyEvolver) : StrategyEvolver :=
  { e with current := .normal, roundsInPhase := 0 }

end StrategyEvolver

structure EscalationPolicy where
  roundsPerLevel : Int
  level : Nat := 0
  violationlessRounds : Int := 0
  deriving DecidableEq, Repr

def newEscalationPolicy (roundsPerLevel : Int) : EscalationPolicy where
  roundsPerLevel := positiveOr 3 roundsPerLevel

def EscalationPolicy.recordRound (p : EscalationPolicy) (violations : Nat) : EscalationPolicy :=
  if 0 < violations then { p with violationlessRounds := 0 }
  else
    let p := { p with violationlessRounds := p.violationlessRounds + 1 }
    if p.roundsPerLevel ≤ p.violationlessRounds ∧ p.level < 4 then
      { p with level := p.level + 1, violationlessRounds := 0 }
    else p

structure DirectorConfig where
  parallel : Int64 := 0
  baseSeed : UInt64 := 0
  satWindowSize : Int := 0
  satThreshold : ℚ := 0
  satRoundsBeforeShift : Int := 0
  violationlessRoundsBeforeEscalate : Int := 0
  maxRounds : Int := 0
  stopOnViolation : Bool := false

structure DirectorStats where
  round : Nat
  seed : UInt64
  states : UInt64 := 0
  edges : UInt64 := 0
  violations : Nat := 0
  phase : ExplorationPhase
  escalation : Nat
  saturated : Bool
  saturationRate : ℚ

/-- The director of a campaign. -/
structure CampaignDirector where
  cfg : DirectorConfig
  evolver : StrategyEvolver
  escalator : EscalationPolicy
  saturation : SaturationDetector
  regression : RegressionDetector := {}
  round : Nat := 0
  prevTotalEdges : UInt64 := 0

def newCampaignDirector (cfg : DirectorConfig) : CampaignDirector where
  cfg
  evolver := newStrategyEvolver (positiveOr 2 cfg.satRoundsBeforeShift)
  escalator := newEscalationPolicy cfg.violationlessRoundsBeforeEscalate
  saturation :=
    newSaturationDetector (positiveOr 100 cfg.satWindowSize) (positiveOr (1 / 2) cfg.satThreshold)

def estimateBursts (states : UInt64) (parallel : Int64) : Int64 :=
  if states = 0 then 0
  else if parallel ≤ 1 then states.toInt64
  else states.toInt64 / parallel

/-- The counts of the properties, by their messages. The last property with a message stays. -/
def buildAssertionSnapshot (pcs : List PropertyCount) (round : Int) (seed : UInt64)
    (recordedAt : Int) : AssertionSnapshot where
  round
  seed
  recordedAt
  propertyCounts := pcs.foldl
    (fun m pc => m.insert pc.message
      { assertType := pc.assertType, total := pc.total, passed := pc.passed, failed := pc.failed })
    ∅

inductive Outcome where
  | notCreated
  | ran (result : Option Result) (now : Int)

namespace CampaignDirector

variable (d : CampaignDirector)

def edgeGrowth (edges : UInt64) : Int64 :=
  let growth := edges.toInt64 - d.prevTotalEdges.toInt64
  if growth < 0 then 0 else growth

def burstEstimate (states : UInt64) : Int64 :=
  let estimate := estimateBursts states d.cfg.parallel
  if estimate ≤ 0 then 1 else estimate

def recordGrowth (states edges : UInt64) : CampaignDirector :=
  let perBurst := d.edgeGrowth edges / d.burstEstimate states
  { d with
    prevTotalEdges := edges
    saturation := (·.record perBurst)^[(d.burstEstimate states).toInt.toNat] d.saturation }

def recordProperties (result : Result) (seed : UInt64) (now : Int) :
    List RegressionAlert × CampaignDirector :=
  if result.propertyCounts = [] then ([], d)
  else
    let (alerts, regression) := d.regression.record
      (buildAssertionSnapshot result.propertyCounts d.round seed now)
    (alerts, { d with regression })

def recordResult (result : Result) (seed : UInt64) (now : Int) : CampaignDirector :=
  (d.recordProperties result seed now).2.recordGrowth (.ofNat result.totalStates)
    result.totalEdges

def finishRound (seed : UInt64) (result : Option Result) : CampaignDirector × DirectorStats :=
  let violations := (result.map (·.violations.length)).getD 0
  let saturated := d.saturation.saturated
  let evolver := (d.evolver.advance saturated).1
  let escalator := d.escalator.recordRound violations
  ({ d with evolver := if 0 < violations then evolver.reset else evolver, escalator },
    { round := d.round
      seed
      states := (result.map fun r => UInt64.ofNat r.totalStates).getD 0
      edges := (result.map (·.totalEdges)).getD 0
      violations
      phase := evolver.current
      escalation := escalator.level
      saturated
      saturationRate := d.saturation.rate })

/-- One round; without statistics when its run was not created. -/
def playRound (outcome : Outcome) : CampaignDirector × Option DirectorStats :=
  let d := { d with round := d.round + 1 }
  let seed := d.cfg.baseSeed + UInt64.ofNat d.round * 0x9e3779b97f4a7c15
  match outcome with
  | .notCreated => (d, none)
  | .ran none _ => (d.finishRound seed none).map id some
  | .ran (some result) now =>
    ((d.recordResult result seed now).finishRound seed result).map id some

def run : List Outcome → CampaignDirector → CampaignDirector
  | [], d => d
  | outcome :: outcomes, d =>
    if 0 < d.cfg.maxRounds ∧ d.cfg.maxRounds ≤ d.round then d
    else
      let (d, stats) := d.playRound outcome
      if d.cfg.stopOnViolation ∧ stats.any fun s => 0 < s.violations then d
      else run outcomes d

end CampaignDirector

namespace SaturationDetector

/-- The detector `next` is `d` after these numbers of edges were recorded. -/
structure Follows (values : List Int64) (d next : SaturationDetector) : Prop where
  size : next.size = d.size
  threshold : next.threshold = d.threshold
  minBursts : next.minBursts = d.minBursts
  pos : next.pos = d.pos + values.length
  filled : next.filled = true ↔ d.filled = true ∨ values ≠ [] ∧ d.size ≤ d.pos + values.length
  turned : next.window.rotate next.pos = (d.window.rotate d.pos ++ values).drop values.length

variable {newEdges : Int64} {values : List Int64} {d next : SaturationDetector} {k : Nat}

theorem Follows.refl (d : SaturationDetector) : Follows [] d d := by
  constructor <;> simp

theorem Follows.record (follows : Follows values d next) (newEdges : Int64) :
    Follows (values ++ [newEdges]) d (next.record newEdges) where
  size := follows.size
  threshold := follows.threshold
  minBursts := follows.minBursts
  pos := by simp [SaturationDetector.record, follows.pos, Nat.add_assoc]
  filled := by
    have later : d.size ≤ d.pos + values.length → d.size ≤ d.pos + (values.length + 1) :=
      fun full => full.trans (Nat.le_succ _)
    simp only [SaturationDetector.record, Bool.or_eq_true, decide_eq_true_eq, follows.filled,
      follows.size, follows.pos, length_append, length_singleton, Nat.add_assoc, ne_eq,
      append_eq_nil_iff, cons_ne_self, and_false, not_false_eq_true,
      true_and]
    tauto
  turned := by
    have length : (d.window.rotate d.pos).length = next.window.length := by
      rw [length_rotate, d.length_window, next.length_window, follows.size]
    have turned := Ring.turned_concat (next.length_window ▸ next.size_pos) length follows.turned
      newEdges
    rwa [next.length_window] at turned

theorem follows_iterate (newEdges : Int64) (k : Nat) (d : SaturationDetector) :
    Follows (replicate k newEdges) d ((·.record newEdges)^[k] d) := by
  induction k with
  | zero => exact .refl d
  | succ k ih =>
    rw [Function.iterate_succ_apply', replicate_succ']
    exact ih.record newEdges

theorem Follows.window (follows : Follows (replicate k newEdges) d next)
    (full : d.size ≤ k) : next.window = replicate d.size newEdges := by
  have turned := follows.turned
  rw [length_replicate, drop_append,
    drop_eq_nil_of_le (by simp [d.length_window, full]), nil_append,
    length_rotate, d.length_window, drop_replicate,
    Nat.sub_sub_self full] at turned
  exact perm_replicate.mp (turned ▸ (rotate_perm next.window next.pos).symm)

theorem toInt_foldl_add (values : List Int64) :
    (values.foldl (· + ·) 0).toInt = (values.map Int64.toInt).sum.bmod (2 ^ 64) := by
  induction values using reverseRecOn with
  | nil => rfl
  | append_singleton values last ih =>
    rw [foldl_concat, Int64.toInt_add, ih, Int.bmod_add_bmod, map_append, sum_append]
    simp

theorem toInt_foldl_add_replicate (nonneg : 0 ≤ newEdges.toInt)
    (small : k * newEdges.toInt < 2 ^ 63) :
    ((replicate k newEdges).foldl (· + ·) 0).toInt = k * newEdges.toInt := by
  have before : 0 ≤ (k : Int) * newEdges.toInt := mul_nonneg (Int.natCast_nonneg k) nonneg
  rw [toInt_foldl_add, map_replicate, sum_replicate, nsmul_eq_mul]
  exact Int.bmod_eq_of_le (by omega) (by omega)

theorem Follows.saturated (follows : Follows (replicate k newEdges) d next) (full : d.size ≤ k)
    (nonneg : 0 ≤ newEdges.toInt) (small : d.size * newEdges.toInt < 2 ^ 63) :
    next.saturated = decide ((newEdges.toInt : ℚ) < d.threshold) := by
  have positive := d.size_pos
  have filled : next.filled = true := by
    rw [follows.filled, length_replicate]
    exact .inr ⟨by simp; omega, full.trans (Nat.le_add_left _ _)⟩
  have recorded : next.recorded = d.size := by
    rw [SaturationDetector.recorded, if_pos filled, follows.size]
  have total : next.total.toInt = d.size * newEdges.toInt := by
    rw [total, recorded, follows.window full, take_replicate, Nat.min_self,
      toInt_foldl_add_replicate nonneg small]
  have average : (next.total.toInt : ℚ) / next.recorded = newEdges.toInt := by
    rw [total, recorded]
    push_cast
    exact mul_div_cancel_left₀ _ (Nat.cast_ne_zero.mpr positive.ne')
  have enough : next.minBursts ≤ next.pos := by
    rw [follows.minBursts, follows.pos, length_replicate]
    exact d.minBursts_le.trans (full.trans (Nat.le_add_left _ _))
  rw [SaturationDetector.saturated, average, recorded, follows.threshold]
  simp [enough, positive.ne']

def reset (d : SaturationDetector) : SaturationDetector :=
  { d with
    window := replicate d.size 0
    pos := 0
    filled := false
    length_window := length_replicate }

inductive Call where
  | record (newEdges : Int64)
  | reset

def call (d : SaturationDetector) : Call → SaturationDetector
  | .record newEdges => d.record newEdges
  | .reset => d.reset

def sinceReset (calls : List Call) : List Int64 :=
  calls.foldl (fun values call =>
    match call with
    | .record newEdges => values ++ [newEdges]
    | .reset => []) []

theorem follows_calls {d : SaturationDetector} (fresh : d.reset = d) (calls : List Call) :
    Follows (sinceReset calls) d (calls.foldl call d) := by
  induction calls using reverseRecOn with
  | nil => exact .refl d
  | append_singleton calls last ih =>
    rw [sinceReset, foldl_concat, foldl_concat, ← sinceReset]
    cases last with
    | record newEdges => exact ih.record newEdges
    | reset =>
      have window : d.window = replicate d.size 0 :=
        congrArg SaturationDetector.window fresh.symm
      have pos : d.pos = 0 := congrArg SaturationDetector.pos fresh.symm
      have filled : d.filled = false := congrArg SaturationDetector.filled fresh.symm
      constructor
      case size => exact ih.size
      case threshold => exact ih.threshold
      case minBursts => exact ih.minBursts
      all_goals simp [call, reset, pos, filled, window, ih.size]

end SaturationDetector

/-- The window of the explorer (`RecordBurst` and `MarginalRate` in
`internal/explorer/explorer.go`). -/
structure MarginalWindow where
  window : List Int64
  size : Nat
  pos : Nat := 0

namespace MarginalWindow

def recordBurst (e : MarginalWindow) (newEdges : Int64) : MarginalWindow :=
  { e with window := e.window.set (e.pos % e.size) newEdges, pos := e.pos + 1 }

def marginalRate (e : MarginalWindow) : ℚ :=
  if e.pos = 0 then 1
  else
    let n := if e.pos < e.size then e.pos else e.size
    ((e.window.take n).foldl (· + ·) 0).toInt / n

theorem foldl_recordBurst {size : Nat} (inhabited : 0 < size) (values : List Int64) :
    ∃ window, values.foldl recordBurst { window := replicate size 0, size } =
        { window, size, pos := values.length } ∧
      window.length = size ∧
      window.rotate values.length = (replicate size 0 ++ values).drop values.length := by
  induction values using reverseRecOn with
  | nil => exact ⟨_, rfl, length_replicate, by simp⟩
  | append_singleton values last ih =>
    obtain ⟨window, same, length, turned⟩ := ih
    rw [foldl_concat, same]
    have next := Ring.turned_concat (length ▸ inhabited) (length_replicate.trans length.symm)
      turned last
    rw [length] at next
    exact ⟨window.set (values.length % size) last, by simp [recordBurst], by simp [length],
      by simpa using next⟩

end MarginalWindow

def Fits (values : List Int64) : Prop :=
  -2 ^ 63 ≤ (values.map Int64.toInt).sum ∧ (values.map Int64.toInt).sum < 2 ^ 63

theorem toInt_foldl_eq_iff (values : List Int64) :
    (values.foldl (· + ·) 0).toInt = (values.map Int64.toInt).sum ↔ Fits values := by
  constructor
  · intro same
    have low := Int64.le_toInt (values.foldl (· + ·) 0)
    have high := Int64.toInt_lt (values.foldl (· + ·) 0)
    rw [same] at low high
    exact ⟨low, high⟩
  · rintro ⟨low, high⟩
    rw [SaturationDetector.toInt_foldl_add]
    exact Int.bmod_eq_of_le (by omega) (by omega)

def recentMean (size : Nat) (values : List Int64) : ℚ :=
  let recent := values.drop (values.length - size)
  ((recent.map Int64.toInt).sum : ℚ) / recent.length

theorem mean_eq_iff {size : Nat} {values held : List Int64} (inhabited : 0 < size)
    (nonempty : values ≠ []) (perm : held.Perm (values.drop (values.length - size))) :
    ((held.foldl (· + ·) 0).toInt : ℚ) / held.length = recentMean size values ↔
      Fits (values.drop (values.length - size)) := by
  have some : (held.length : ℚ) ≠ 0 := by
    have positive := length_pos_of_ne_nil nonempty
    rw [perm.length_eq, length_drop, Nat.cast_ne_zero]
    omega
  rw [recentMean, ← perm.length_eq, div_left_inj' some, ← toInt_foldl_eq_iff, perm.foldl_eq]
  norm_cast

theorem detector_held (s : Nat) (threshold : ℚ) (calls : List SaturationDetector.Call) :
    let d := calls.foldl SaturationDetector.call (newSaturationDetector (s + 1 : Nat) threshold)
    let values := SaturationDetector.sinceReset calls
    d.pos = values.length ∧ d.minBursts = (s + 1) / 2 ∧ d.recorded = min values.length (s + 1) ∧
      (d.window.take d.recorded).length = d.recorded ∧
      (d.window.take d.recorded).Perm (values.drop (values.length - (s + 1))) := by
  intro d values
  have size : (newSaturationDetector (s + 1 : Nat) threshold).size = s + 1 := by
    simp [newSaturationDetector, positiveOr]
    omega
  have follows := SaturationDetector.follows_calls
    (d := newSaturationDetector (s + 1 : Nat) threshold) rfl calls
  have length : d.window.length = s + 1 := d.length_window.trans (follows.size.trans size)
  have pos : d.pos = values.length := follows.pos.trans (Nat.zero_add _)
  have recorded : d.recorded = min values.length (s + 1) := by
    have filled : d.filled = true ↔ s + 1 ≤ values.length := by
      rw [follows.filled, size]
      constructor
      · intro full
        exact (full.resolve_left nofun).2.trans (Nat.zero_add _).le
      · intro full
        exact .inr ⟨ne_nil_of_length_pos (Nat.succ_pos s |>.trans_le full),
          full.trans (Nat.zero_add _).ge⟩
    rw [SaturationDetector.recorded, follows.size, size, pos]
    split_ifs with full
    · exact (min_eq_right (filled.mp full)).symm
    · exact (min_eq_left (not_le.mp (filled.not.mp full)).le).symm
  refine ⟨pos, follows.minBursts.trans (congrArg (· / 2) size), recorded, ?_, ?_⟩
  · rw [length_take, length, recorded]
    omega
  · have turned := follows.turned
    have start : (newSaturationDetector (s + 1 : Nat) threshold).window.rotate
        (newSaturationDetector (s + 1 : Nat) threshold).pos = replicate (s + 1) 0 := by
      rw [← size]
      exact rotate_zero _
    rw [start] at turned
    rw [recorded]
    exact Ring.take_perm_drop length ((congrArg d.window.rotate pos).symm.trans turned)

theorem MarginalWindow.marginalRate_eq_iff {size : Nat} (inhabited : 0 < size)
    {values : List Int64} (nonempty : values ≠ []) :
    (values.foldl recordBurst { window := replicate size 0, size }).marginalRate =
        recentMean size values ↔ Fits (values.drop (values.length - size)) := by
  obtain ⟨window, bursts, length, turned⟩ := foldl_recordBurst inhabited values
  have held : (window.take (min values.length size)).length = min values.length size := by
    rw [length_take, length]
    omega
  have n : (if values.length < size then values.length else size) = min values.length size := by
    split_ifs with less
    · exact (min_eq_left less.le).symm
    · exact (min_eq_right (not_lt.mp less)).symm
  have perm := Ring.take_perm_drop length turned
  rw [← mean_eq_iff inhabited nonempty perm, held, bursts, marginalRate]
  simp only [length_eq_zero_iff, nonempty, if_false, n]

/-- Both windows have the mean of the last values as their rate, and the detector is saturated
accordingly, if and only if the sum of these values fits. -/
theorem rates_iff (s : Nat) (threshold : ℚ) (calls : List SaturationDetector.Call) :
    let size := s + 1
    let d := calls.foldl SaturationDetector.call (newSaturationDetector size threshold)
    let values := SaturationDetector.sinceReset calls
    let rate := if values = [] then 1 else recentMean size values
    let bursts := values.foldl MarginalWindow.recordBurst { window := replicate size 0, size }
    (d.rate = rate ∧ bursts.marginalRate = rate ∧
        (d.saturated = true ↔
          size / 2 ≤ values.length ∧ values ≠ [] ∧ recentMean size values < d.threshold)) ↔
      Fits (values.drop (values.length - size)) := by
  intro size d values rate bursts
  obtain ⟨pos, minBursts, recorded, length, perm⟩ := detector_held s threshold calls
  change d.pos = values.length at pos
  change d.minBursts = size / 2 at minBursts
  change d.recorded = min values.length size at recorded
  by_cases empty : values = []
  · have none : d.pos = 0 ∧ d.recorded = 0 := by simp [pos, recorded, empty]
    simp [SaturationDetector.rate, SaturationDetector.saturated, none, rate, empty, bursts, Fits,
      MarginalWindow.marginalRate]
  · have detector := mean_eq_iff (Nat.succ_pos s) empty perm
    have isRate : d.rate = ((d.window.take d.recorded).foldl (· + ·) 0).toInt / d.recorded :=
      if_neg (by simpa [pos] using empty)
    have some : d.recorded ≠ 0 := by
      have := length_pos_of_ne_nil empty
      omega
    have isMean : rate = recentMean size values := if_neg empty
    rw [length] at detector
    constructor
    · rintro ⟨same, -, -⟩
      exact detector.mp (isRate.symm.trans (same.trans isMean))
    · intro fits
      have mean : (d.total.toInt : ℚ) / d.recorded = recentMean size values := detector.mpr fits
      refine ⟨isRate.trans (mean.trans isMean.symm),
        ((MarginalWindow.marginalRate_eq_iff (Nat.succ_pos s) empty).mpr fits).trans isMean.symm,
        ?_⟩
      rw [SaturationDetector.saturated, mean, minBursts, pos]
      simp [some, empty]

/-- Two large numbers of edges in a window of two bursts. -/
theorem rate_negative_after_overflow :
    let calls : List SaturationDetector.Call := [.record (2 ^ 62), .record (2 ^ 62)]
    let d := calls.foldl SaturationDetector.call (newSaturationDetector 2 0)
    d.rate = -2 ^ 62 ∧ recentMean 2 (SaturationDetector.sinceReset calls) = 2 ^ 62 := by
  decide +kernel

section

variable {evals : List AssertionEval} {pcs : List PropertyCount} {round : Int} {seed : UInt64}
  {recordedAt : Int}

def propCount (pc : PropertyCount) : PropCount where
  assertType := pc.assertType
  total := pc.total
  passed := pc.passed
  failed := pc.failed

theorem lookup_buildAssertionSnapshot (pcs : List PropertyCount) (message : String) :
    (buildAssertionSnapshot pcs round seed recordedAt).propertyCounts[message]? =
      (pcs.filter (·.message = message)).getLast?.map propCount := by
  change (accumulate (·.message) (fun _ pc => propCount pc) ∅ pcs)[message]? = _
  rw [lookup_accumulate]
  induction pcs.filter (·.message = message) using reverseRecOn with
  | nil => rfl
  | append_singleton pcs pc _ => rw [foldl_concat, getLast?_concat, Option.map_some]

/-- The snapshot does not depend on the order of the properties, and has all evaluations of every
message and all false ones. -/
structure CountsComplete (evals : List AssertionEval) (pcs : List PropertyCount) (round : Int)
    (seed : UInt64) (recordedAt : Int) : Prop where
  counts : ∀ listed, listed.Perm pcs → ∀ eval ∈ evals, ∃ count,
    (buildAssertionSnapshot listed round seed recordedAt).propertyCounts[eval.message]? =
        some count ∧
      count.total = evals.countP (·.message = eval.message) ∧
      count.failed = evals.countP fun other => other.message = eval.message ∧ !other.condition
  unordered : ∀ listed, listed.Perm pcs → buildAssertionSnapshot listed round seed recordedAt =
    buildAssertionSnapshot pcs round seed recordedAt

def entryUnder (evals : List AssertionEval) (key : String) : Option PropertyCount :=
  summarize (evals.filter (·.key = key))

/-- Every message that was evaluated names one entry, which counts all evaluations of it. -/
structure OneEntryEach (evals : List AssertionEval) : Prop where
  named : ∀ eval ∈ evals, ∃ key pc, entryUnder evals key = some pc ∧ pc.message = eval.message
  unique : ∀ key key' pc pc', entryUnder evals key = some pc → entryUnder evals key' = some pc' →
    pc.message = pc'.message → key = key'
  whole : ∀ key pc, entryUnder evals key = some pc →
    pc.total = evals.countP (·.message = pc.message) ∧
      pc.failed = evals.countP fun other => other.message = pc.message ∧ !other.condition

theorem mem_propertyCounts_run {S : Type u} [BEq S] [LT S] [DecidableLT S]
    (coverageMapSize : Int64) (deterministicCoverage : Bool) (ops : List (ExplorerOp S))
    (pc : PropertyCount) : pc ∈
        ((newExplorer S coverageMapSize deterministicCoverage).run ops).buildResult.propertyCounts ↔
      ∃ key, entryUnder (ExplorerState.evalsIn ops) key = some pc := by
  simp only [ExplorerState.buildResult, mem_map, Prod.exists, exists_eq_right,
    Std.ExtTreeMap.mem_toList_iff_getElem?_eq_some, ExplorerState.lookup_propertyCounts_run,
    entryUnder]

theorem oneEntryEach_of_complete (entries : ∀ pc, pc ∈ pcs ↔ ∃ key, entryUnder evals key = some pc)
    (complete : CountsComplete evals pcs round seed recordedAt) : OneEntryEach evals := by
  have listedLast {pc : PropertyCount} {key : String} (entry : entryUnder evals key = some pc) :
      ∃ listed, listed.Perm pcs ∧
        (buildAssertionSnapshot listed round seed recordedAt).propertyCounts[pc.message]? =
          some (propCount pc) := by
    obtain ⟨before, after, rfl⟩ := append_of_mem ((entries pc).mpr ⟨key, entry⟩)
    refine ⟨before ++ after ++ [pc], ?_, ?_⟩
    · exact (perm_append_singleton pc _).trans perm_middle.symm
    · rw [lookup_buildAssertionSnapshot, filter_append]
      simp
  constructor
  case named =>
    intro eval isEval
    obtain ⟨count, found, -⟩ := complete.counts pcs (Perm.refl pcs) eval isEval
    rw [lookup_buildAssertionSnapshot] at found
    obtain ⟨pc, isLast, -⟩ := Option.map_eq_some_iff.mp found
    have inside := mem_filter.mp (mem_of_getLast? isLast)
    obtain ⟨key, entry⟩ := (entries pc).mp inside.1
    exact ⟨key, pc, entry, of_decide_eq_true inside.2⟩
  case unique =>
    intro key key' pc pc' entry entry' same
    obtain ⟨listed, perm, found⟩ := listedLast entry
    obtain ⟨listed', perm', found'⟩ := listedLast entry'
    rw [complete.unordered listed perm, same] at found
    rw [complete.unordered listed' perm'] at found'
    have sameCount : propCount pc = propCount pc' := Option.some.inj (found.symm.trans found')
    have sameType : pc.assertType = pc'.assertType := congrArg PropCount.assertType sameCount
    rw [← (named_of_summarize entry).1, ← (named_of_summarize entry').1, same, sameType]
  case whole =>
    intro key pc entry
    obtain ⟨listed, perm, found⟩ := listedLast entry
    obtain ⟨eval, isEval, -, sameMessage⟩ := (named_of_summarize entry).2
    obtain ⟨count, found', total, failed⟩ := complete.counts listed perm eval isEval
    rw [sameMessage] at found' total failed
    cases found.symm.trans found'
    exact ⟨Int.ofNat.inj total, Int.ofNat.inj failed⟩

theorem complete_of_oneEntryEach (entries : ∀ pc, pc ∈ pcs ↔ ∃ key, entryUnder evals key = some pc)
    (one : OneEntryEach evals) : CountsComplete evals pcs round seed recordedAt := by
  have entry_of {listed : List PropertyCount} (perm : listed.Perm pcs) {message : String}
      {pc : PropertyCount} (inside : pc ∈ listed.filter (·.message = message)) :
      ∃ key, entryUnder evals key = some pc ∧ pc.message = message := by
    obtain ⟨isListed, same⟩ := mem_filter.mp inside
    obtain ⟨key, entry⟩ := (entries pc).mp (perm.subset isListed)
    exact ⟨key, entry, of_decide_eq_true same⟩
  constructor
  case counts =>
    intro listed perm eval isEval
    obtain ⟨key, pc, entry, same⟩ := one.named eval isEval
    have inside : pc ∈ listed.filter (·.message = eval.message) :=
      mem_filter.mpr
        ⟨perm.symm.subset ((entries pc).mpr ⟨key, entry⟩), decide_eq_true same⟩
    obtain ⟨last, isLast⟩ := Option.isSome_iff_exists.mp
      (getLast?_isSome.mpr (ne_nil_of_mem inside))
    obtain ⟨key', entry', same'⟩ := entry_of perm (mem_of_getLast? isLast)
    obtain ⟨total, failed⟩ := one.whole key' last entry'
    rw [same'] at total failed
    rw [lookup_buildAssertionSnapshot, isLast]
    exact ⟨propCount last, rfl, congrArg Int.ofNat total, congrArg Int.ofNat failed⟩
  case unordered =>
    intro listed perm
    have lookups (message : String) :
        (buildAssertionSnapshot listed round seed recordedAt).propertyCounts[message]? =
          (buildAssertionSnapshot pcs round seed recordedAt).propertyCounts[message]? := by
      rw [lookup_buildAssertionSnapshot, lookup_buildAssertionSnapshot]
      -- all entries of the message are the same one
      have any (entries : List PropertyCount) : entries.Pairwise fun _ _ => True :=
        pairwise_of_forall fun _ _ => trivial
      refine congrArg (fun entries => Option.map propCount entries.getLast?)
        (Perm.eq_of_pairwise ?_ (any _) (any _) (perm.filter _))
      intro pc pc' inside inside' _ _
      obtain ⟨key, entry, same⟩ := entry_of perm inside
      obtain ⟨key', entry', same'⟩ := entry_of (Perm.refl pcs) inside'
      cases one.unique key key' pc pc' entry entry' (same.trans same'.symm)
      exact Option.some.inj (entry.symm.trans entry')
    exact congrArg (AssertionSnapshot.mk round seed recordedAt)
      (Std.ExtTreeMap.ext_getElem? lookups)

theorem exists_entry {eval : AssertionEval} (inside : eval ∈ evals) :
    ∃ pc, entryUnder evals eval.key = some pc := by
  have mem : eval ∈ evals.filter (·.key = eval.key) :=
    mem_filter.mpr ⟨inside, decide_eq_true rfl⟩
  obtain ⟨first, rest, isCons⟩ := exists_cons_of_ne_nil (ne_nil_of_mem mem)
  rw [entryUnder, isCons]
  exact ⟨_, rfl⟩

/-- Without zero bytes in the types there is one entry for each message exactly if every message is
evaluated under one type. -/
theorem oneEntryEach_iff_of_plain (plain : ∀ eval ∈ evals, '\x00' ∉ eval.assertType.toList) :
    OneEntryEach evals ↔ ∀ eval ∈ evals, ∀ other ∈ evals, eval.message = other.message →
      eval.assertType = other.assertType := by
  have inj {eval other : AssertionEval} (inside : eval ∈ evals) (otherInside : other ∈ evals)
      (same : eval.key = other.key) :
      eval.assertType = other.assertType ∧ eval.message = other.message :=
    Report.propertyKey_inj (plain eval inside) (plain other otherInside) same
  constructor
  · intro one eval inside other otherInside same
    obtain ⟨pc, entry⟩ := exists_entry inside
    obtain ⟨pc', entry'⟩ := exists_entry otherInside
    obtain ⟨first, firstInside, isKey, isMessage⟩ := (named_of_summarize entry).2
    obtain ⟨first', firstInside', isKey', isMessage'⟩ := (named_of_summarize entry').2
    refine (inj inside otherInside (one.unique _ _ pc pc' entry entry' ?_)).1
    rw [← isMessage, ← isMessage', (inj firstInside inside isKey).2,
      (inj firstInside' otherInside isKey').2, same]
  · intro oneType
    constructor
    case named =>
      intro eval inside
      obtain ⟨pc, entry⟩ := exists_entry inside
      obtain ⟨first, firstInside, isKey, isMessage⟩ := (named_of_summarize entry).2
      exact ⟨eval.key, pc, entry, isMessage ▸ (inj firstInside inside isKey).2⟩
    case unique =>
      intro key key' pc pc' entry entry' same
      obtain ⟨first, inside, rfl, isMessage⟩ := (named_of_summarize entry).2
      obtain ⟨first', inside', rfl, isMessage'⟩ := (named_of_summarize entry').2
      have sameMessage : first.message = first'.message := by rw [isMessage, isMessage', same]
      rw [AssertionEval.key, AssertionEval.key, sameMessage,
        oneType first inside first' inside' sameMessage]
    case whole =>
      intro key pc entry
      obtain ⟨first, inside, rfl, isMessage⟩ := (named_of_summarize entry).2
      have ofMessage : evals.filter (·.key = first.key) =
          evals.filter (·.message = pc.message) := by
        refine filter_congr fun other otherInside => decide_eq_decide.mpr ?_
        rw [← isMessage]
        refine ⟨fun same => (inj otherInside inside same).2, fun same => ?_⟩
        rw [AssertionEval.key, AssertionEval.key, same, oneType other otherInside first inside same]
      rw [entryUnder, ofMessage] at entry
      obtain ⟨last, -, isEntry⟩ := Option.map_eq_some_iff.mp entry
      have total := congrArg PropertyCount.total isEntry
      have failed := congrArg PropertyCount.failed isEntry
      dsimp only at total failed
      rw [← total, ← failed, countP_filter]
      refine ⟨countP_eq_length_filter.symm, countP_congr fun other _ => ?_⟩
      simp [and_comm]

/-- The snapshot of a round is complete if and only if there is one entry for each message. -/
theorem counts_complete_iff {S : Type u} [BEq S] [LT S] [DecidableLT S] (coverageMapSize : Int64)
    (deterministicCoverage : Bool) (ops : List (ExplorerOp S)) (round : Int) (seed : UInt64)
    (recordedAt : Int) :
    CountsComplete (ExplorerState.evalsIn ops)
        ((newExplorer S coverageMapSize deterministicCoverage).run ops).buildResult.propertyCounts
        round seed recordedAt ↔
      OneEntryEach (ExplorerState.evalsIn ops) :=
  ⟨oneEntryEach_of_complete (mem_propertyCounts_run coverageMapSize deterministicCoverage ops),
    complete_of_oneEntryEach (mem_propertyCounts_run coverageMapSize deterministicCoverage ops)⟩

/-- An assertion that passes and one of another type, with the same message, that fails. -/
theorem counts_overwritten :
    let evals : List AssertionEval :=
      [{ message := "m", assertType := "always", condition := true },
        { message := "m", assertType := "sometimes", condition := false }]
    let ops : List (ExplorerOp Nat) := evals.map .recordAssertionEval
    ¬ CountsComplete evals
        ((newExplorer Nat 0 false).run ops).buildResult.propertyCounts 1 0 0 := by
  intro evals ops complete
  have one := oneEntryEach_of_complete (mem_propertyCounts_run 0 false ops) complete
  have same := one.unique "always\x00m" "sometimes\x00m" _ _ rfl rfl rfl
  exact absurd same (by decide)

end

namespace CampaignDirector

/-- The growth of the round is worth the threshold for each of its bursts, and the bursts fill the
window. -/
structure Productive (d : CampaignDirector) (states edges : UInt64) : Prop where
  growth : d.saturation.threshold ≤
    ((d.edgeGrowth edges).toInt : ℚ) / (d.burstEstimate states).toInt
  full : d.saturation.size ≤ (d.burstEstimate states).toInt

variable (d : CampaignDirector)

theorem edgeGrowth_nonneg (edges : UInt64) : 0 ≤ (d.edgeGrowth edges).toInt := by
  rw [edgeGrowth]
  split_ifs with negative
  · exact le_refl 0
  · exact not_lt.mp fun below => negative (Int64.lt_iff_toInt_lt.mpr below)

theorem burstEstimate_pos (states : UInt64) : 0 < (d.burstEstimate states).toInt := by
  rw [burstEstimate]
  split_ifs with none
  · decide
  · exact not_le.mp fun below => none (Int64.le_iff_toInt_le.mpr below)

theorem toInt_perBurst (states edges : UInt64) :
    (d.edgeGrowth edges / d.burstEstimate states).toInt =
      (d.edgeGrowth edges).toInt / (d.burstEstimate states).toInt := by
  have growth := d.edgeGrowth_nonneg edges
  have bursts := d.burstEstimate_pos states
  have notMin : d.burstEstimate states ≠ -1 := by
    intro minus
    rw [minus] at bursts
    exact absurd bursts (by decide)
  rw [Int64.toInt_div_of_ne_right _ _ notMin, Int.tdiv_eq_ediv_of_nonneg growth]

theorem saturated_recordGrowth {states edges : UInt64}
    (full : d.saturation.size ≤ (d.burstEstimate states).toInt) :
    (d.recordGrowth states edges).saturation.saturated =
      decide (((d.edgeGrowth edges).toInt / (d.burstEstimate states).toInt : Int) <
        d.saturation.threshold) := by
  have growth := d.edgeGrowth_nonneg edges
  have bursts := d.burstEstimate_pos states
  have nonneg : 0 ≤ (d.edgeGrowth edges / d.burstEstimate states).toInt := by
    rw [toInt_perBurst]
    exact Int.ediv_nonneg growth bursts.le
  have small : d.saturation.size * (d.edgeGrowth edges / d.burstEstimate states).toInt <
      2 ^ 63 := by
    calc (d.saturation.size : Int) * (d.edgeGrowth edges / d.burstEstimate states).toInt
      _ ≤ (d.burstEstimate states).toInt *
            (d.edgeGrowth edges / d.burstEstimate states).toInt :=
          mul_le_mul_of_nonneg_right full nonneg
      _ ≤ (d.edgeGrowth edges).toInt := by
          rw [toInt_perBurst]
          exact Int.mul_ediv_self_le bursts.ne'
      _ < 2 ^ 63 := Int64.toInt_lt _
  rw [← toInt_perBurst]
  exact (SaturationDetector.follows_iterate _ _ d.saturation).saturated
    (Int.le_toNat bursts.le |>.mpr full) nonneg small

theorem saturation_playRound (result : Result) (now : Int) :
    (d.playRound (.ran (some result) now)).1.saturation =
      (d.recordGrowth (.ofNat result.totalStates) result.totalEdges).saturation := by
  simp only [playRound, recordResult, recordProperties]
  split_ifs <;> rfl

/-- A productive round leaves the detector unsaturated exactly if it is worth the threshold, rounded
up to a whole edge, for each burst. -/
theorem productive_not_saturated_iff (cfg : DirectorConfig) (history : List Outcome)
    (result : Result) (now : Int) :
    let d := (newCampaignDirector cfg).run history
    let states := UInt64.ofNat result.totalStates
    (d.Productive states result.totalEdges →
        (d.playRound (.ran (some result) now)).1.saturation.saturated = false) ↔
      (d.Productive states result.totalEdges →
        ⌈d.saturation.threshold⌉ * (d.burstEstimate states).toInt ≤
          (d.edgeGrowth result.totalEdges).toInt) := by
  intro d states
  refine forall_congr' fun productive => ?_
  rw [saturation_playRound, saturated_recordGrowth d productive.full, decide_eq_false_iff_not,
    not_lt, ← Int.ceil_le, Int.le_ediv_iff_mul_le (d.burstEstimate_pos states)]

/-- With the defaults, 60 new edges in 100 bursts are more than one edge in two bursts, but the
round is saturated. -/
theorem saturated_after_productive :
    let d := newCampaignDirector {}
    let result : Result := { totalStates := 100, totalEdges := 60 }
    d.Productive 100 60 ∧
      (d.playRound (.ran (some result) 0)).1.saturation.saturated = true := by
  intro d result
  have productive : d.Productive 100 60 := ⟨by decide +kernel, by decide +kernel⟩
  refine ⟨productive, ?_⟩
  rw [saturation_playRound]
  refine (saturated_recordGrowth d productive.full).trans ?_
  decide +kernel

end CampaignDirector

end OpenThesis.Orchestrator
