import Mathlib.Algebra.Order.Ring.Rat
import Mathlib.Data.List.Sort
import Mathlib.Tactic.Linarith
import OpenThesis.Fault.Kind

/-!
# Swarm testing

Each cycle draws the kinds and rates of faults (`GenerateSwarmProfile` in
`internal/fault/swarm.go`), below the configured rates as `initFaultMaxRates` collects them. Rates
are rational.
-/

namespace OpenThesis.Orchestrator

open Fault List

/-- The state of the generator. -/
structure Source where
  state : UInt64

open Source

namespace Source

def uint64 (s : Source) : UInt64 × Source :=
  let state := s.state + 0x9e3779b97f4a7c15
  let z := (state ^^^ (state >>> 30)) * 0xbf58476d1ce4e5b9
  let z := (z ^^^ (z >>> 27)) * 0x94d049bb133111eb
  (z ^^^ (z >>> 31), ⟨state⟩)

def float64 (s : Source) : ℚ × Source :=
  ((s.uint64.1 >>> 11).toNat / 9007199254740992, s.uint64.2)

def fork (s : Source) (salt : UInt64) : Source :=
  ⟨s.state ^^^ salt⟩

theorem fork_fork (s : Source) (salt : UInt64) : (s.fork salt).fork salt = s := by
  rw [fork, fork, UInt64.xor_assoc, UInt64.xor_self, UInt64.xor_zero]

def top : ℚ := 9007199254740991 / 9007199254740992

theorem float64_bounds (s : Source) : 0 ≤ s.float64.1 ∧ s.float64.1 ≤ top := by
  have bits : (s.uint64.1 >>> 11).toNat ≤ 9007199254740991 := by
    have bound := s.uint64.1.toNat_lt
    rw [UInt64.toNat_shiftRight, Nat.shiftRight_eq_div_pow]
    exact Nat.le_of_lt_succ ((Nat.div_lt_iff_lt_mul (by decide)).mpr bound)
  have bits' : ((s.uint64.1 >>> 11).toNat : ℚ) ≤ 9007199254740991 := by exact_mod_cast bits
  refine ⟨div_nonneg (Nat.cast_nonneg _) (by norm_num), ?_⟩
  unfold float64 top
  dsimp only
  linarith

end Source

structure NetworkRates where
  drop : ℚ := 0
  crash : ℚ := 0
  partition : ℚ := 0
  throttle : ℚ := 0
  reorder : ℚ := 0
  nWayPartition : ℚ := 0

structure NodeRates where
  hang : ℚ := 0
  terminate : ℚ := 0
  dirtyRestart : ℚ := 0
  pause : ℚ := 0
  cpuThrottle : ℚ := 0
  diskSlow : ℚ := 0
  diskFull : ℚ := 0
  diskCorrupt : ℚ := 0
  diskFlakey : ℚ := 0
  memPressure : ℚ := 0
  script : ℚ := 0
  cpuModulate : ℚ := 0

structure FaultRates where
  network : NetworkRates
  node : NodeRates

structure FaultConfig extends FaultRates where
  enabled : Bool
  swarmTesting : Bool
  /-- In nanoseconds, and zero if it is not a duration. -/
  clockJitterMax : Int := 0

def initFaultMaxRates (cfg : FaultConfig) : List (Kind × ℚ) :=
  [(.drop, cfg.network.drop), (.delay, 1), (.terminate, cfg.network.crash),
   (.hang, cfg.node.hang), (.clockJitter, if 0 < cfg.clockJitterMax then 1 else 0),
   (.partition, cfg.network.partition), (.throttle, cfg.network.throttle),
   (.reorder, cfg.network.reorder), (.threadPause, cfg.node.pause),
   (.cpuThrottle, cfg.node.cpuThrottle), (.nWayPartition, cfg.network.nWayPartition),
   (.diskSlow, cfg.node.diskSlow), (.diskFull, cfg.node.diskFull),
   (.diskCorrupt, cfg.node.diskCorrupt), (.diskFlakey, cfg.node.diskFlakey),
   (.memPressure, cfg.node.memPressure), (.script, cfg.node.script),
   (.cpuModulate, cfg.node.cpuModulate)]

def swarmRate (maxRate roll : ℚ) : ℚ :=
  1 / 100 + roll * ((if maxRate < 1 / 100 then 1 / 100 else maxRate) - 1 / 100)

def maxRate (maxRates : List (Kind × ℚ)) (k : Kind) : ℚ :=
  (maxRates.lookup k).getD 0

def drawRates (maxRates : List (Kind × ℚ)) : List Kind → Source → List (Kind × ℚ) × Source
  | [], rng => ([], rng)
  | k :: kinds, rng =>
    if rng.float64.1 < 1 / 2 then
      let (roll, rng) := rng.float64.2.float64
      let (rates, rng) := drawRates maxRates kinds rng
      ((k, swarmRate (maxRate maxRates k) roll) :: rates, rng)
    else drawRates maxRates kinds rng.float64.2

def generateSwarmProfile (rng : Source) (maxRates : List (Kind × ℚ)) : List (Kind × ℚ) :=
  let kinds := (maxRates.map (·.1)).insertionSort (·.name ≤ ·.name)
  match drawRates maxRates kinds rng with
  | ([], rng) =>
    match kinds[rng.uint64.1.toNat % kinds.length]? with
    | none => []
    | some k => [(k, swarmRate (maxRate maxRates k) rng.uint64.2.float64.1)]
  | (rates, _) => rates

def profileRate (profile : List (Kind × ℚ)) (k : Kind) : ℚ :=
  (profile.lookup k).getD 0

def swarmRates (cfg : FaultConfig) (profile : List (Kind × ℚ)) : FaultRates where
  network :=
    { drop := profileRate profile .drop
      crash := profileRate profile .terminate
      partition := profileRate profile .partition
      throttle := profileRate profile .throttle
      reorder := profileRate profile .reorder
      nWayPartition := profileRate profile .nWayPartition }
  node :=
    { hang := profileRate profile .hang
      terminate := profileRate profile .terminate
      dirtyRestart := cfg.node.dirtyRestart
      pause := profileRate profile .threadPause
      cpuThrottle := profileRate profile .cpuThrottle
      diskSlow := profileRate profile .diskSlow
      diskFull := profileRate profile .diskFull
      diskCorrupt := profileRate profile .diskCorrupt
      diskFlakey := profileRate profile .diskFlakey
      memPressure := profileRate profile .memPressure
      script := profileRate profile .script
      cpuModulate := profileRate profile .cpuModulate }

def initFaults (cfg : FaultConfig) (rng : Source) : Option FaultRates :=
  if cfg.enabled then
    if cfg.swarmTesting then
      some (swarmRates cfg (generateSwarmProfile (rng.fork 0x50A2) (initFaultMaxRates cfg)))
    else some cfg.toFaultRates
  else none

def regenerate (cfg : FaultConfig) (rng : Source) (cycleCount : UInt64) : Option FaultRates :=
  if cfg.swarmTesting && cfg.enabled then
    some (swarmRates cfg
      (generateSwarmProfile (rng.fork (0x50A2 ^^^ cycleCount)) (initFaultMaxRates cfg)))
  else none

def rolls : List Kind → Source → List (Kind × ℚ) × Source
  | [], rng => ([], rng)
  | k :: kinds, rng =>
    if rng.float64.1 < 1 / 2 then
      let (roll, rng) := rng.float64.2.float64
      let (rates, rng) := rolls kinds rng
      ((k, roll) :: rates, rng)
    else rolls kinds rng.float64.2

section

variable (maxRates : List (Kind × ℚ))

theorem drawRates_eq (kinds : List Kind) (rng : Source) : drawRates maxRates kinds rng =
      ((rolls kinds rng).1.map fun p => (p.1, swarmRate (maxRate maxRates p.1) p.2),
        (rolls kinds rng).2) := by
  induction kinds generalizing rng with
  | nil => rfl
  | cons k kinds ih =>
    rw [drawRates, rolls]
    split_ifs
    · simp only [ih, map_cons]
    · exact ih _

variable {kinds : List Kind}

theorem bounds_of_mem_rolls {rng : Source} {p : Kind × ℚ} (mem : p ∈ (rolls kinds rng).1) :
    0 ≤ p.2 ∧ p.2 ≤ top := by
  induction kinds generalizing rng with
  | nil => cases mem
  | cons k kinds ih =>
    rw [rolls] at mem
    split_ifs at mem
    · rcases mem_cons.mp mem with rfl | mem
      · exact float64_bounds _
      · exact ih mem
    · exact ih mem

def drawn (kinds : List Kind) (rng : Source) : List (Kind × ℚ) :=
  match rolls kinds rng with
  | ([], rng) =>
    match kinds[rng.uint64.1.toNat % kinds.length]? with
    | none => []
    | some k => [(k, rng.uint64.2.float64.1)]
  | (rates, _) => rates

theorem generateSwarmProfile_eq (rng : Source) : generateSwarmProfile rng maxRates =
      (drawn ((maxRates.map (·.1)).insertionSort (·.name ≤ ·.name)) rng).map
        fun p => (p.1, swarmRate (maxRate maxRates p.1) p.2) := by
  unfold generateSwarmProfile drawn
  dsimp only
  rw [drawRates_eq]
  generalize (maxRates.map (·.1)).insertionSort (·.name ≤ ·.name) = kinds
  rcases rolls kinds rng with ⟨_ | ⟨p, rates⟩, rest⟩
  · simp only [map_nil]
    cases kinds[rest.uint64.1.toNat % kinds.length]? with
    | none | some k => rfl
  · rfl

theorem bounds_of_mem_drawn {rng : Source} {p : Kind × ℚ} (mem : p ∈ drawn kinds rng) :
    0 ≤ p.2 ∧ p.2 ≤ top := by
  unfold drawn at mem
  split at mem
  · split at mem
    · cases mem
    · rw [mem_singleton.mp mem]
      exact float64_bounds _
  next rolled => exact bounds_of_mem_rolls (by rw [rolled]; exact mem)

theorem bounds_of_lookup_drawn {rng : Source} {k : Kind} {roll : ℚ}
    (found : (drawn kinds rng).lookup k = some roll) : 0 ≤ roll ∧ roll ≤ top := by
  obtain ⟨before, after, split, -⟩ := lookup_eq_some_iff.mp found
  refine @bounds_of_mem_drawn kinds rng (k, roll) ?_
  rw [split]
  exact mem_append_right _ mem_cons_self

theorem profileRate_map (rates : List (Kind × ℚ)) (k : Kind) :
    profileRate (rates.map fun p => (p.1, swarmRate (maxRate maxRates p.1) p.2)) k =
      (rates.lookup k).elim 0 (swarmRate (maxRate maxRates k)) := by
  induction rates with
  | nil => rfl
  | cons p rates ih =>
    rw [profileRate, map_cons, lookup_cons, lookup_cons]
    cases same : k == p.1 with
    | true =>
      rw [eq_of_beq same]
      rfl
    | false => exact ih

end

def FaultRates.list (r : FaultRates) : List ℚ :=
  [r.network.drop, r.network.crash, r.network.partition, r.network.throttle, r.network.reorder,
   r.network.nWayPartition, r.node.hang, r.node.terminate, r.node.dirtyRestart, r.node.pause,
   r.node.cpuThrottle, r.node.diskSlow, r.node.diskFull, r.node.diskCorrupt, r.node.diskFlakey,
   r.node.memPressure, r.node.script, r.node.cpuModulate]

/-- Each rate is at most the configured one, and a fault that is configured with rate zero is never
injected. -/
def FaultRates.Within (r configured : FaultRates) : Prop :=
  Forall₂
    (fun rate limit => rate ≤ limit ∧ (limit = 0 → ∀ rng : Source, ¬rng.float64.1 < rate))
    r.list configured.list

theorem within_iff (r configured : FaultRates) :
    r.Within configured ↔ Forall₂ (· ≤ ·) r.list configured.list := by
  unfold FaultRates.Within
  have never (rate limit : ℚ) :
      (rate ≤ limit ∧ (limit = 0 → ∀ rng : Source, ¬rng.float64.1 < rate)) ↔ rate ≤ limit := by
    refine and_iff_left_of_imp fun le zero rng => not_lt.mpr ?_
    exact (zero ▸ le).trans rng.float64_bounds.1
  simp only [never]

def swarmKinds : List Kind :=
  [.drop, .delay, .terminate, .hang, .clockJitter, .partition, .throttle, .reorder, .threadPause,
   .cpuThrottle, .nWayPartition, .diskSlow, .diskFull, .diskCorrupt, .diskFlakey, .memPressure,
   .script, .cpuModulate].insertionSort (·.name ≤ ·.name)

theorem profileRate_generate (cfg : FaultConfig) (rng : Source) (k : Kind) :
    profileRate (generateSwarmProfile rng (initFaultMaxRates cfg)) k =
      ((drawn swarmKinds rng).lookup k).elim 0 (swarmRate (maxRate (initFaultMaxRates cfg) k)) := by
  rw [generateSwarmProfile_eq, profileRate_map]
  rfl

theorem one_percent_le_swarmRate (limit : ℚ) {roll : ℚ} (nonneg : 0 ≤ roll) :
    1 / 100 ≤ swarmRate limit roll := by
  unfold swarmRate
  split_ifs with less
  · linarith
  · have := mul_nonneg nonneg (sub_nonneg.mpr (not_lt.mp less))
    linarith

theorem swarmRate_le_top (limit : ℚ) {roll : ℚ} (le : roll ≤ top) :
    swarmRate limit roll ≤ swarmRate limit top := by
  unfold swarmRate
  split_ifs with less
  · linarith
  · have := mul_le_mul_of_nonneg_right le (sub_nonneg.mpr (not_lt.mp less))
    linarith

theorem swarmRate_le {limit : ℚ} (one : 1 / 100 ≤ limit) : swarmRate limit top ≤ limit := by
  unfold swarmRate top
  rw [if_neg (not_lt.mpr one)]
  linarith

theorem profileRate_le (cfg : FaultConfig) (rng : Source) (k : Kind) :
    profileRate (generateSwarmProfile rng (initFaultMaxRates cfg)) k ≤
      swarmRate (maxRate (initFaultMaxRates cfg) k) top := by
  rw [profileRate_generate]
  cases found : (drawn swarmKinds rng).lookup k with
  | none =>
    have := one_percent_le_swarmRate (maxRate (initFaultMaxRates cfg) k)
      (show (0 : ℚ) ≤ top by norm_num [top])
    exact le_trans (by norm_num) this
  | some roll =>
    exact swarmRate_le_top _ (bounds_of_lookup_drawn found).2

theorem exists_all_drawn :
    ∃ rng, ∀ k ∈ swarmKinds, ((drawn swarmKinds rng).lookup k).isSome = true :=
  ⟨⟨623316⟩, by decide +kernel⟩

theorem exists_terminate_drawn :
    ∃ rng, (drawn swarmKinds rng).lookup .terminate = some top :=
  ⟨⟨8625639329993543390⟩, by decide +kernel⟩

def ratedKinds : List Kind :=
  [.drop, .terminate, .partition, .throttle, .reorder, .nWayPartition, .hang, .threadPause,
   .cpuThrottle, .diskSlow, .diskFull, .diskCorrupt, .diskFlakey, .memPressure, .script,
   .cpuModulate]

/-- At least one percent is configured of every kind, and terminations are not much below
crashes. -/
def FaultConfig.Covered (cfg : FaultConfig) : Prop :=
  (∀ k ∈ ratedKinds, 1 / 100 ≤ maxRate (initFaultMaxRates cfg) k) ∧
    swarmRate cfg.network.crash top ≤ cfg.node.terminate

section

variable (cfg : FaultConfig)

theorem swarmRates_within_iff (profile : List (Kind × ℚ)) :
    (swarmRates cfg profile).Within cfg.toFaultRates ↔
      (∀ k ∈ ratedKinds, profileRate profile k ≤ maxRate (initFaultMaxRates cfg) k) ∧
        profileRate profile .terminate ≤ cfg.node.terminate := by
  rw [within_iff]
  simp [FaultRates.list, swarmRates, ratedKinds, maxRate, initFaultMaxRates, lookup_cons]
  tauto

theorem swarmRates_within_all_iff :
    (∀ rng, (swarmRates cfg (generateSwarmProfile rng (initFaultMaxRates cfg))).Within
      cfg.toFaultRates) ↔ cfg.Covered := by
  simp only [swarmRates_within_iff]
  constructor
  · intro within
    constructor
    · obtain ⟨rng, active⟩ := exists_all_drawn
      intro k mem
      have swarmed : k ∈ swarmKinds := by
        revert k
        decide +kernel
      obtain ⟨roll, found⟩ := Option.isSome_iff_exists.mp (active k swarmed)
      have le := (within rng).1 k mem
      rw [profileRate_generate, found] at le
      exact (one_percent_le_swarmRate _ (bounds_of_lookup_drawn found).1).trans le
    · obtain ⟨rng, drawn⟩ := exists_terminate_drawn
      have le := (within rng).2
      rw [profileRate_generate, drawn] at le
      exact le
  · rintro ⟨below, terminate⟩ rng
    refine ⟨fun k mem => ?_, (profileRate_le cfg rng .terminate).trans terminate⟩
    exact (profileRate_le cfg rng k).trans (swarmRate_le (below k mem))

end

/-- In every state of the generator and in every cycle, the injectors get no rate above the
configured one, and inject nothing that is configured with rate zero, exactly if the configuration
is covered. -/
theorem swarm_within_config_iff (cfg : FaultConfig) :
    let cfg := { cfg with swarmTesting := true }
    (∀ rng, (∀ rates ∈ initFaults cfg rng, rates.Within cfg.toFaultRates) ∧
        ∀ cycleCount, ∀ rates ∈ regenerate cfg rng cycleCount, rates.Within cfg.toFaultRates) ↔
      (cfg.enabled = true → cfg.Covered) := by
  intro cfg
  rw [← swarmRates_within_all_iff]
  constructor
  · intro within enabled rng
    have first := (within (rng.fork 0x50A2)).1
    simp only [initFaults, enabled, if_true, fork_fork] at first
    exact first _ rfl
  · intro within rng
    refine ⟨fun rates mem => ?_, fun cycleCount rates mem => ?_⟩
    · unfold initFaults at mem
      split_ifs at mem with enabled swarm
      · rw [← Option.some_inj.mp mem]
        exact within enabled _
      · exact absurd rfl swarm
      · cases mem
    · unfold regenerate at mem
      split_ifs at mem with both
      · rw [← Option.some_inj.mp mem]
        exact within (Bool.and_eq_true_iff.mp both).2 _
      · cases mem

/-- Drops and terminations are configured with rate zero, but drops get one percent, and
terminations are drawn below the rate of crashes. -/
theorem zero_rates_injected :
    let cfg : FaultConfig :=
      { enabled := true, swarmTesting := true, network := { crash := 1 / 2 }, node := {} }
    ∃ rates, initFaults cfg ⟨0⟩ = some rates ∧ ¬rates.Within cfg.toFaultRates ∧
      cfg.network.drop = 0 ∧ rates.network.drop = 1 / 100 ∧
      (float64 ⟨196⟩).1 < rates.network.drop ∧
      cfg.node.terminate = 0 ∧ 1 / 100 < rates.node.terminate := by
  intro cfg
  refine ⟨_, rfl, fun within => ?_, rfl, by decide +kernel, by decide +kernel, rfl,
    by decide +kernel⟩
  have le := ((swarmRates_within_iff _ _).mp within).1 .drop (by decide)
  revert le
  decide +kernel

end OpenThesis.Orchestrator
