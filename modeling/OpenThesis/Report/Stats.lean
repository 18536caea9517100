import OpenThesis.Explorer.Record
import OpenThesis.Fault.Mask

/-!
# Fault statistics

The report attributes violations to fault kinds (`internal/report/report.go`); its decoder knows
eight of them.
-/

namespace OpenThesis.Report

open Explorer Fault Keyed List

def namedKinds : List Kind :=
  [.drop, .delay, .partition, .throttle, .hang, .terminate, .clockJitter, .threadPause]

def faultKindMaskToNames (mask : UInt16) : List String :=
  if mask = 0 then [] else decodeMask namedKinds mask

def onesCount16 (mask : UInt16) : Nat :=
  (range 16).countP fun bit => mask.toNat.testBit bit

structure FaultStats where
  violationsByKind : Option (Std.ExtTreeMap String Nat) := none
  totalWithFaults : Nat := 0
  totalWithoutFaults : Nat := 0

namespace FaultStats

def ofKind (stats : FaultStats) (kind : Kind) : Nat :=
  countOf (stats.violationsByKind.getD ∅) kind.name

def countViolation (stats : FaultStats) (v : Violation) : FaultStats :=
  if onesCount16 v.faultKindMask > 0 then
    { stats with
      totalWithFaults := stats.totalWithFaults + 1
      violationsByKind :=
        stats.violationsByKind.map ((faultKindMaskToNames v.faultKindMask).foldl bump ·) }
  else { stats with totalWithoutFaults := stats.totalWithoutFaults + 1 }

end FaultStats

def buildFaultStats (violations : List Violation) : FaultStats :=
  let stats := violations.foldl FaultStats.countViolation { violationsByKind := some ∅ }
  { stats with violationsByKind := stats.violationsByKind.filter fun m => !m.isEmpty }

theorem onesCount16_pos_iff (mask : UInt16) : onesCount16 mask > 0 ↔ mask ≠ 0 := by
  rw [onesCount16, gt_iff_lt, countP_pos_iff, ne_eq, ← UInt16.toNat_inj]
  constructor
  · rintro ⟨bit, -, set⟩ zero
    rw [zero] at set
    simp at set
  · intro nonzero
    obtain ⟨bit, set⟩ := Nat.exists_testBit_of_ne_zero nonzero
    have bound : bit < 16 := by
      by_contra large
      have small : mask.toNat < 2 ^ bit :=
        lt_of_lt_of_le mask.toNat_lt (Nat.pow_le_pow_right (by decide) (by omega))
      rw [Nat.testBit_lt_two_pow small] at set
      exact Bool.false_ne_true set
    exact ⟨bit, mem_range.mpr bound, set⟩

theorem faultKindMaskToNames_eq (mask : UInt16) :
    faultKindMaskToNames mask = decodeMask namedKinds mask := by
  unfold faultKindMaskToNames
  split
  · next zero =>
    rw [zero]
    rfl
  · rfl

theorem nodup_faultKindMaskToNames (mask : UInt16) : (faultKindMaskToNames mask).Nodup := by
  rw [faultKindMaskToNames_eq, decodeMask]
  exact ((by decide : namedKinds.Nodup).filter _).map Kind.name_injective

namespace FaultStats

structure Tallies (stats : FaultStats) (violations : List Violation) : Prop where
  withFaults : stats.totalWithFaults = violations.countP fun v => v.faultKindMask ≠ 0
  withoutFaults : stats.totalWithoutFaults = violations.countP fun v => v.faultKindMask = 0
  byKind : ∃ m, stats.violationsByKind = some m ∧ ∀ kind : Kind, countOf m kind.name =
    violations.countP fun v => kind.name ∈ faultKindMaskToNames v.faultKindMask

variable {stats : FaultStats} {violations : List Violation}

theorem tallies_countViolation (tallies : Tallies stats violations) (v : Violation) :
    Tallies (stats.countViolation v) (violations ++ [v]) := by
  obtain ⟨m, present, counts⟩ := tallies.byKind
  unfold countViolation
  split
  · next positive =>
    have faulty := (onesCount16_pos_iff _).mp positive
    refine ⟨?_, ?_, (faultKindMaskToNames v.faultKindMask).foldl bump m, ?_, fun kind => ?_⟩
    · simp [tallies.withFaults, faulty]
    · simp [tallies.withoutFaults, faulty]
    · rw [present]
      rfl
    · rw [countOf_foldl_bump, counts, countP_append, countP_singleton,
        (nodup_faultKindMaskToNames _).count]
      simp only [decide_eq_true_eq]
  · next none =>
    have clean : v.faultKindMask = 0 := by
      by_contra faulty
      exact none ((onesCount16_pos_iff _).mpr faulty)
    refine ⟨?_, ?_, m, present, fun kind => ?_⟩
    · simp [tallies.withFaults, clean]
    · simp [tallies.withoutFaults, clean]
    · rw [counts, countP_append, countP_singleton, clean]
      rfl

theorem tallies_foldl (violations : List Violation) :
    Tallies (violations.foldl countViolation { violationsByKind := some ∅ }) violations := by
  induction violations using reverseRecOn with
  | nil => exact ⟨rfl, rfl, ∅, rfl, fun _ => rfl⟩
  | append_singleton violations v ih =>
    rw [foldl_append]
    exact tallies_countViolation ih v

end FaultStats

theorem ofKind_buildFaultStats (violations : List Violation) (kind : Kind) :
    (buildFaultStats violations).ofKind kind =
      violations.countP fun v => kind.name ∈ faultKindMaskToNames v.faultKindMask := by
  obtain ⟨m, present, counts⟩ := (FaultStats.tallies_foldl violations).byKind
  rw [← counts, FaultStats.ofKind, buildFaultStats, present]
  by_cases empty : m = ∅
  · rw [empty]
    rfl
  · have kept : m.isEmpty = false := by simpa using empty
    rw [Option.filter_some, kept]
    rfl

structure Burst where
  violation : Violation
  injected : List Kind

namespace Burst

def recorded (b : Burst) : Violation :=
  { b.violation with faultKindMask := kindsMask b.injected }

theorem mem_names_recorded_iff (b : Burst) (kind : Kind) :
    kind.name ∈ faultKindMaskToNames b.recorded.faultKindMask ↔
      kind ∈ namedKinds ∧ kind ∈ b.injected := by
  rw [faultKindMaskToNames_eq, recorded, mem_decodeMask_iff]
  have masked : ∀ kind ∈ namedKinds, kind.hasMask = true := by decide
  constructor
  · rintro ⟨named, injected, -⟩
    exact ⟨named, injected⟩
  · rintro ⟨named, injected⟩
    exact ⟨named, injected, masked kind named⟩

theorem recorded_mask_eq_zero_iff (b : Burst) (named : ∀ kind ∈ b.injected, kind ∈ namedKinds) :
    b.recorded.faultKindMask = 0 ↔ b.injected = [] := by
  have masked : ∀ kind ∈ namedKinds, kind.hasMask = true := by decide
  rw [recorded, kindsMask_eq_zero_iff, eq_nil_iff_forall_not_mem]
  refine forall_congr' fun kind => ?_
  constructor
  · intro bare injected
    have bit := masked kind (named kind injected)
    rw [bare injected] at bit
    exact Bool.false_ne_true bit
  · intro none injected
    exact absurd injected none

end Burst

structure CountsInjections (stats : FaultStats) (bursts : List Burst) : Prop where
  withoutFaults : stats.totalWithoutFaults = bursts.countP fun b => b.injected.isEmpty
  withFaults : stats.totalWithFaults = bursts.countP fun b => !b.injected.isEmpty
  byKind : ∀ kind, stats.ofKind kind = bursts.countP fun b => kind ∈ b.injected

/-- The statistics count the injected faults exactly when every injected kind is
in the decoder table of the report. -/
theorem fault_stats_count_injections_iff (bursts : List Burst) :
    CountsInjections (buildFaultStats (bursts.map Burst.recorded)) bursts ↔
      ∀ b ∈ bursts, ∀ kind ∈ b.injected, kind ∈ namedKinds := by
  have tallies := FaultStats.tallies_foldl (bursts.map Burst.recorded)
  constructor
  · intro counted b member kind injected
    by_contra unnamed
    have reported := counted.byKind kind
    rw [ofKind_buildFaultStats, countP_map] at reported
    have missing : bursts.countP ((fun v : Violation => decide
        (kind.name ∈ faultKindMaskToNames v.faultKindMask)) ∘ Burst.recorded) = 0 := by
      rw [countP_eq_zero]
      intro other _ found
      exact unnamed ((other.mem_names_recorded_iff kind).mp (of_decide_eq_true found)).1
    rw [missing] at reported
    have positive : 0 < bursts.countP fun b => kind ∈ b.injected :=
      countP_pos_iff.mpr ⟨b, member, decide_eq_true injected⟩
    omega
  · intro named
    constructor
    case withoutFaults =>
      refine tallies.withoutFaults.trans ?_
      rw [countP_map]
      refine countP_congr fun b member => ?_
      simpa using b.recorded_mask_eq_zero_iff (named b member)
    case withFaults =>
      refine tallies.withFaults.trans ?_
      rw [countP_map]
      refine countP_congr fun b member => ?_
      simpa using not_congr (b.recorded_mask_eq_zero_iff (named b member))
    case byKind =>
      intro kind
      rw [ofKind_buildFaultStats, countP_map]
      refine countP_congr fun b member => ?_
      simp only [Function.comp_apply, decide_eq_true_eq, Burst.mem_names_recorded_iff]
      exact and_iff_right_of_imp (named b member kind)

/-- A burst that reordered packets counts as faulty, but under no kind; one that
modulated the CPU counts as free of faults. -/
theorem fault_stats_miss_reorder :
    let violation : Violation := { property := "p", message := "p" }
    ¬ CountsInjections (buildFaultStats [Burst.recorded ⟨violation, [.reorder]⟩])
        [⟨violation, [.reorder]⟩] ∧
      (buildFaultStats [Burst.recorded ⟨violation, [.cpuModulate]⟩]).totalWithoutFaults = 1 := by
  refine ⟨fun counted => ?_, by decide⟩
  exact absurd (counted.byKind .reorder) (by decide)

end OpenThesis.Report
