import OpenThesis.Orchestrator.Director
import OpenThesis.Orchestrator.Swarm

/-!
# Escalated faults

`Apply` (`internal/orchestrator/escalator.go`) raises the rates of the faults, but omits eight of
those of `internal/testconfig/testconfig.go`. Rates and factors are rational.
-/

namespace OpenThesis.Orchestrator

universe u

structure RoundConfig (ρ : Type u) where
  rates : FaultRates
  rest : ρ

structure FaultEscalation extends EscalationPolicy where
  factor : ℚ
  maxFactor : ℚ

def newFaultEscalation (factor maxFactor : ℚ) (roundsPerLevel : Int) : FaultEscalation where
  toEscalationPolicy := newEscalationPolicy roundsPerLevel
  factor := if factor ≤ 1 then 3 / 2 else factor
  maxFactor := if maxFactor ≤ 1 then 4 else maxFactor

def EscalationPolicy.escalates (p : EscalationPolicy) (violations : Nat) : Bool :=
  violations = 0 ∧ p.roundsPerLevel ≤ p.violationlessRounds + 1 ∧ p.level < 4

open EscalationPolicy

namespace FaultEscalation

def run (p : FaultEscalation) (rounds : List Nat) : FaultEscalation :=
  { p with toEscalationPolicy := rounds.foldl recordRound p.toEscalationPolicy }

def returned (p : EscalationPolicy) : List Nat → List Bool
  | [] => []
  | violations :: rounds => p.escalates violations :: returned (p.recordRound violations) rounds

def multiplier (p : FaultEscalation) : ℚ :=
  let m := (· * p.factor)^[p.level] 1
  if p.maxFactor < m then p.maxFactor else m

def clampRate (v : ℚ) : ℚ :=
  if 1 < v then 1 else v

def patch (m : ℚ) (cfg : FaultRates) : FaultRates :=
  { network :=
      { cfg.network with
        drop := clampRate (cfg.network.drop * m)
        partition := clampRate (cfg.network.partition * m)
        throttle := clampRate (cfg.network.throttle * m)
        reorder := clampRate (cfg.network.reorder * m)
        nWayPartition := clampRate (cfg.network.nWayPartition * m) }
    node :=
      { cfg.node with
        hang := clampRate (cfg.node.hang * m)
        terminate := clampRate (cfg.node.terminate * m)
        cpuThrottle := clampRate (cfg.node.cpuThrottle * m)
        memPressure := clampRate (cfg.node.memPressure * m)
        pause := clampRate (cfg.node.pause * m) } }

def apply {ρ : Type u} (p : FaultEscalation) (cfg : RoundConfig ρ) : RoundConfig ρ :=
  if p.multiplier ≤ 1 then cfg else { cfg with rates := patch p.multiplier cfg.rates }

def forgotten (cfg : FaultRates) : List ℚ :=
  [cfg.network.crash, cfg.node.dirtyRestart, cfg.node.diskSlow, cfg.node.diskFull,
    cfg.node.diskCorrupt, cfg.node.diskFlakey, cfg.node.script, cfg.node.cpuModulate]

theorem level_recordRound (p : EscalationPolicy) (violations : Nat) :
    (p.recordRound violations).level = p.level + (p.escalates violations).toNat := by
  unfold recordRound escalates
  by_cases some : 0 < violations
  · simp [some, some.ne']
  · by_cases raised : p.roundsPerLevel ≤ p.violationlessRounds + 1 ∧ p.level < 4
    · simp [raised, Nat.eq_zero_of_not_pos some]
    · simp [raised, some]

theorem level_foldl (p : EscalationPolicy) (rounds : List Nat) :
    (rounds.foldl recordRound p).level =
      p.level + (returned p rounds).count true := by
  induction rounds generalizing p with
  | nil => rfl
  | cons violations rounds ih =>
    rw [List.foldl_cons, ih, level_recordRound, returned, List.count_cons]
    cases p.escalates violations <;> simp [Nat.add_assoc, Nat.add_comm]

theorem level_foldl_le {p : EscalationPolicy} (le : p.level ≤ 4) (rounds : List Nat) :
    (rounds.foldl recordRound p).level ≤ 4 := by
  induction rounds generalizing p with
  | nil => exact le
  | cons violations rounds ih =>
    refine ih ?_
    rw [level_recordRound]
    cases raised : p.escalates violations with
    | false => exact le
    | true => exact (of_decide_eq_true raised).2.2

theorem multiplier_eq (p : FaultEscalation) :
    p.multiplier = min p.maxFactor (p.factor ^ p.level) := by
  simp only [multiplier, mul_right_iterate, one_mul]
  split_ifs with less
  · exact (min_eq_left less.le).symm
  · exact (min_eq_right (not_lt.mp less)).symm

theorem clampRate_eq (v m : ℚ) : clampRate (v * m) = min 1 (m * v) := by
  rw [clampRate, mul_comm]
  split_ifs with less
  · exact (min_eq_left less.le).symm
  · exact (min_eq_right (not_lt.mp less)).symm

theorem eq_min_iff {m : ℚ} (more : 1 < m) (r : ℚ) : r = min 1 (m * r) ↔ r = 0 ∨ r = 1 := by
  constructor
  · intro same
    rcases min_choice 1 (m * r) with one | scaled
    · exact .inr (same.trans one)
    · refine .inl ?_
      rw [scaled] at same
      nlinarith
  · rintro (rfl | rfl)
    · simp
    · simp [more.le]

/-- Every round is accounted for, and the rates are escalated, with all other fields the same, if
and only if those that are forgotten are zero or one. -/
theorem escalation_scales_iff {ρ : Type u} (factor maxFactor : ℚ) (roundsPerLevel : Int)
    (rounds : List Nat) (cfg : RoundConfig ρ) :
    let p := newFaultEscalation factor maxFactor roundsPerLevel
    let q := p.run rounds
    q.level = (returned p.toEscalationPolicy rounds).count true ∧ q.level ≤ 4 ∧
      (∀ before, before <+: rounds → (p.run before).level ≤ q.level) ∧
      q.multiplier = min q.maxFactor (q.factor ^ q.level) ∧
      ((q.apply cfg).rest = cfg.rest ∧ (q.apply cfg).rates.list =
          (if 1 < q.multiplier then cfg.rates.list.map fun r => min 1 (q.multiplier * r)
            else cfg.rates.list) ↔
        (1 < q.multiplier → ∀ r ∈ forgotten cfg.rates, r = 0 ∨ r = 1)) := by
  intro p q
  have level := level_foldl p.toEscalationPolicy rounds
  rw [show p.level = 0 from rfl, Nat.zero_add] at level
  refine ⟨level, level_foldl_le (Nat.zero_le 4) rounds, ?_, multiplier_eq q, ?_⟩
  · rintro before ⟨after, rfl⟩
    have later := level_foldl (before.foldl recordRound p.toEscalationPolicy) after
    rw [← List.foldl_append] at later
    exact Nat.le.intro later.symm
  · rw [apply]
    by_cases more : 1 < q.multiplier
    · rw [if_neg (not_le.mpr more), if_pos more]
      simp [FaultRates.list, patch, forgotten, clampRate_eq, more, eq_min_iff more]
    · rw [if_pos (not_lt.mp more), if_neg more]
      simp [more]

/-- After three rounds without a violation crashes are as likely as before. -/
theorem crash_rate_not_escalated :
    let p := (newFaultEscalation 0 0 0).run [0, 0, 0]
    let cfg : RoundConfig Unit := ⟨{ network := { crash := 1 / 2 }, node := {} }, ()⟩
    p.multiplier = 3 / 2 ∧ (p.apply cfg).rates.network.crash = 1 / 2 := by
  decide +kernel

end FaultEscalation

end OpenThesis.Orchestrator
