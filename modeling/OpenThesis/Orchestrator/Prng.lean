import Mathlib.Algebra.Group.Action.Defs
import Mathlib.Algebra.Order.BigOperators.Group.List
import Mathlib.Data.FinEnum
import Mathlib.Data.Int.CardIntervalMod
import Mathlib.Data.Set.Card
import Mathlib.Data.UInt
import OpenThesis.Loop.Core
import OpenThesis.Orchestrator.Swarm

/-!
# Random numbers

The period of the generator (`internal/prng/prng.go`), numbers below a bound, and preemption
schedules (`generatePreemptionSchedule` in `internal/orchestrator/pool.go`).
-/

namespace OpenThesis.Orchestrator

open Function Loop

namespace Source

def after (s : Source) (n : Nat) : Source :=
  (fun s => s.uint64.2)^[n] s

-- from the highest bit down: each bit of the result cancels a bit that is known already
theorem xorShift_injective {w k : Nat} (positive : 0 < k) :
    Injective fun z : BitVec w => z ^^^ (z >>> k) := by
  intro x y same
  have bits (i : Nat) : x.getLsbD i = y.getLsbD i := by
    induction rest : w - i using Nat.strong_induction_on generalizing i with
    | _ rest ih =>
      rcases Nat.lt_or_ge i w with inside | outside
      · have higher := ih _ (by omega) (k + i) rfl
        have bit := congrArg (·.getLsbD i) same
        simpa [higher] using bit
      · rw [BitVec.getLsbD_of_ge _ _ outside, BitVec.getLsbD_of_ge _ _ outside]
  exact BitVec.eq_of_getLsbD_eq fun i _ => bits i

theorem shift_injective {k : UInt64} (positive : 0 < (k.toBitVec % 64).toNat) :
    Injective fun z : UInt64 => z ^^^ (z >>> k) := by
  intro x y same
  have bits := congrArg UInt64.toBitVec same
  simp only [UInt64.toBitVec_xor, UInt64.toBitVec_shiftRight] at bits
  exact UInt64.toBitVec_inj.mp (xorShift_injective positive bits)

theorem mul_injective {c d : UInt64} (unit : c * d = 1) : Injective fun z : UInt64 => z * c :=
  (IsUnit.of_mul_eq_one _ unit).mul_left_injective

theorem uint64_bijective : Bijective fun state => (Source.mk state).uint64.1 := by
  have first := (mul_injective (c := 0xbf58476d1ce4e5b9) (d := 0x96de1b173f119089)
    (by decide)).comp (shift_injective (k := 30) (by decide))
  have second := (mul_injective (c := 0x94d049bb133111eb) (d := 0x319642b2d24d8ec3)
    (by decide)).comp (shift_injective (k := 27) (by decide))
  have mixed := (shift_injective (k := 31) (by decide)).comp (second.comp first)
  exact Finite.injective_iff_bijective.mp (mixed.comp (add_left_injective 0x9e3779b97f4a7c15))

theorem state_after (s : Source) (n : Nat) :
    (s.after n).state = s.state + UInt64.ofNat n * 0x9e3779b97f4a7c15 := by
  induction n generalizing s with
  | zero => exact (add_eq_left.mpr (zero_mul _)).symm
  | succ n ih =>
    have next : s.uint64.2.state = s.state + 0x9e3779b97f4a7c15 := rfl
    rw [after, iterate_succ_apply, ← after, ih, next, UInt64.ofNat_add, add_mul, add_assoc,
      add_comm (UInt64.ofNat n * _)]
    rfl

theorem state_bijective (s : Source) :
    Bijective fun n : UInt64 => s.state + n * 0x9e3779b97f4a7c15 :=
  Finite.injective_iff_bijective.mp ((add_right_injective s.state).comp
    (mul_injective (d := 0xf1de83e19937733d) (by decide)))

theorem exists_after (s : Source) (state : UInt64) : ∃ n < 2 ^ 64, (s.after n).state = state := by
  obtain ⟨n, reached⟩ := s.state_bijective.surjective state
  refine ⟨n.toNat, n.toNat_lt, ?_⟩
  rw [state_after, UInt64.ofNat_toNat]
  exact reached

def threshold (bound : UInt64) : UInt64 :=
  -bound % bound

/-- One pass of the loop of `Intn`, for a positive bound. -/
def draw (bound : UInt64) (s : Source) : Pass Source (UInt64 × Source) :=
  if s.uint64.1 ≥ threshold bound then .leave (s.uint64.1 % bound, s.uint64.2)
  else .again s.uint64.2

def intn (bound : UInt64) (s : Source) (fuel : Nat) : Option (UInt64 × Source) :=
  run (draw bound) fuel s

variable {bound : UInt64}

theorem intn_one (bound : UInt64) (s : Source) : s.intn bound 1 =
    if threshold bound ≤ s.uint64.1 then some (s.uint64.1 % bound, s.uint64.2) else none := by
  by_cases accepted : threshold bound ≤ s.uint64.1
  · have pass : draw bound s = .leave (s.uint64.1 % bound, s.uint64.2) := if_pos accepted
    rw [if_pos accepted, intn, run_succ_of_leave pass]
  · have pass : draw bound s = .again s.uint64.2 := if_neg accepted
    rw [if_neg accepted, intn, run_succ_of_again pass, run]

-- the largest output is never below the threshold, and it comes within a period
theorem exists_accepted (bound : UInt64) (s : Source) :
    ∃ n, threshold bound ≤ (s.after n).uint64.1 := by
  obtain ⟨state, output⟩ := uint64_bijective.surjective (-1)
  obtain ⟨n, -, reached⟩ := s.exists_after state
  have largest : (s.after n).uint64.1 = -1 := by rw [← output, ← reached]
  refine ⟨n, ?_⟩
  rw [largest, UInt64.le_iff_toNat_le]
  exact Nat.le_of_lt_succ (threshold bound).toNat_lt

theorem yields_intn {s : Source} {n : Nat} {r : UInt64 × Source}
    (rejected : ∀ m < n, (s.after m).intn bound 1 = none)
    (accepted : (s.after n).intn bound 1 = some r) : Yields (s.intn bound) r := by
  induction n generalizing s with
  | zero => exact yields_of_run accepted
  | succ n ih =>
    have first : ¬ threshold bound ≤ s.uint64.1 := by
      have := rejected 0 n.succ_pos
      rw [after, iterate_zero_apply, intn_one] at this
      exact fun le => nomatch (if_pos le).symm.trans this
    have later (m : Nat) : s.after (m + 1) = s.uint64.2.after m := iterate_succ_apply _ _ _
    refine yields_of_again (if_neg first) (ih (fun m less => ?_) (later n ▸ accepted))
    rw [← later]
    exact rejected (m + 1) (Nat.succ_lt_succ less)

theorem exists_first_accepted (positive : 0 < bound) (s : Source) :
    ∃ n, (∀ m < n, (s.after m).intn bound 1 = none) ∧
      ∃ r, (s.after n).intn bound 1 = some r ∧ Yields (s.intn bound) r ∧ r.1 < bound := by
  have exists_ := exists_accepted bound s
  have accepted := (intn_one bound _).trans (if_pos (Nat.find_spec exists_))
  have rejected (m : Nat) (less : m < Nat.find exists_) : (s.after m).intn bound 1 = none :=
    (intn_one bound _).trans (if_neg (Nat.find_min exists_ less))
  exact ⟨_, rejected, _, accepted, yields_intn rejected accepted, UInt64.mod_lt _ positive⟩

theorem toNat_threshold (positive : 0 < bound.toNat) :
    (threshold bound).toNat = 2 ^ 64 % bound.toNat := by
  have below := bound.toNat_lt
  rw [threshold, UInt64.toNat_mod, UInt64.toNat_neg,
    Nat.mod_eq_of_lt (Nat.sub_lt (by decide) positive)]
  exact (Nat.mod_eq_sub_mod below.le).symm

-- the numbers below the remainder have as many of each residue as are too many of it
theorem card_residue {n r : Nat} (below : r < n) (m : Nat) :
    {x ∈ Finset.range m | m % n ≤ x ∧ x % n = r}.card = m / n := by
  have positive := Nat.zero_lt_of_lt below
  have residue (x : Nat) : x ≡ r [MOD n] ↔ x % n = r := by
    rw [Nat.ModEq, Nat.mod_eq_of_lt below]
  have all := Nat.count_modEq_card m positive r
  have low := Nat.count_modEq_card (m % n) positive r
  simp only [residue, Nat.count_eq_card_filter_range, Nat.mod_mod,
    Nat.div_eq_of_lt (Nat.mod_lt m positive)] at all low
  have split := Finset.card_filter_add_card_filter_not
    (s := {x ∈ Finset.range m | x % n = r}) (m % n ≤ ·)
  have rest : {x ∈ {x ∈ Finset.range m | x % n = r} | ¬ m % n ≤ x} =
      {x ∈ Finset.range (m % n) | x % n = r} := by
    ext x
    have := Nat.mod_le m n
    simp only [Finset.mem_filter, Finset.mem_range]
    omega
  rw [rest, Finset.filter_filter, Finset.filter_congr fun x _ => and_comm] at split
  omega

theorem accepted_eq (bound r : UInt64) :
    {v : UInt64 | ∃ t next : Source, t.uint64.1 = v ∧ t.intn bound 1 = some (r, next)} =
      {v | threshold bound ≤ v ∧ v % bound = r} := by
  ext v
  constructor
  · rintro ⟨t, next, rfl, returned⟩
    rw [intn_one] at returned
    split_ifs at returned with accepted
    exact ⟨accepted, congrArg Prod.fst (Option.some.inj returned)⟩
  · rintro ⟨accepted, rfl⟩
    obtain ⟨state, rfl⟩ := uint64_bijective.surjective v
    exact ⟨⟨state⟩, _, rfl, (intn_one _ _).trans (if_pos accepted)⟩

theorem card_accepted {r : UInt64} (below : r < bound) :
    {v : UInt64 | ∃ t next : Source, t.uint64.1 = v ∧ t.intn bound 1 = some (r, next)}.ncard =
      2 ^ 64 / bound.toNat := by
  rw [accepted_eq]
  have below := UInt64.lt_iff_toNat_lt.mp below
  have counted := card_residue below (2 ^ 64)
  rw [← toNat_threshold (Nat.zero_lt_of_lt below), ← Set.ncard_coe_finset] at counted
  rw [← counted, ← Set.ncard_image_of_injective _ fun v w => UInt64.toNat_inj.mp]
  congr 1
  ext x
  simp only [Set.mem_image, Set.mem_ofPred_eq, Finset.coe_filter, Finset.mem_range]
  constructor
  · rintro ⟨v, ⟨accepted, rfl⟩, rfl⟩
    exact ⟨v.toNat_lt, UInt64.le_iff_toNat_le.mp accepted, (UInt64.toNat_mod v bound).symm⟩
  · rintro ⟨inside, accepted, residue⟩
    have same : (UInt64.ofNat x).toNat = x := UInt64.toNat_ofNat_of_lt' inside
    refine ⟨UInt64.ofNat x, ⟨UInt64.le_iff_toNat_le.mpr (same.symm ▸ accepted), ?_⟩, same⟩
    rw [← UInt64.toNat_inj, UInt64.toNat_mod, same, residue]

/-- The outputs are different for a whole period, in which the state takes every value. For a
positive bound `Intn` returns from every state what its first accepting pass returns; and one pass
accepts and returns each number below the bound for as many outputs. -/
theorem generator_uniform (s : Source) :
    Bijective (fun state => (Source.mk state).uint64.1) ∧
      (∀ state, ∃ n < 2 ^ 64, (s.after n).state = state) ∧
      (∀ m n, m < 2 ^ 64 → n < 2 ^ 64 → (s.after m).uint64.1 = (s.after n).uint64.1 → m = n) ∧
      ∀ bound, 0 < bound →
        (∃ n, (∀ m < n, (s.after m).intn bound 1 = none) ∧
          ∃ r, (s.after n).intn bound 1 = some r ∧ Yields (s.intn bound) r ∧ r.1 < bound) ∧
        ∀ r < bound, {v : UInt64 | ∃ t next : Source, t.uint64.1 = v ∧
          t.intn bound 1 = some (r, next)}.ncard = 2 ^ 64 / bound.toNat := by
  refine ⟨uint64_bijective, s.exists_after, fun m n mBelow nBelow same => ?_, fun bound positive =>
    ⟨exists_first_accepted positive s, fun r => card_accepted⟩⟩
  have states : (s.after m).state = (s.after n).state := uint64_bijective.injective same
  rw [state_after, state_after] at states
  have equal := congrArg UInt64.toNat (s.state_bijective.injective states)
  rwa [UInt64.toNat_ofNat_of_lt' mBelow, UInt64.toNat_ofNat_of_lt' nBelow] at equal

end Source

def baseInterval (burstNS : UInt64) : UInt64 :=
  if burstNS / 10 < 100000 then 100000 else burstNS / 10

def interval (base jitter coin : UInt64) : UInt64 :=
  if coin % 2 = 0 then base + jitter else base - jitter / 2

def generatePreemptionSchedule (rng : Source) (burstNS : UInt64) : List UInt64 :=
  let base := baseInterval burstNS
  -- each interval takes two draws
  (List.range 12).map fun i =>
    interval base ((rng.after (2 * i)).uint64.1 % (base / 4)) (rng.after (2 * i + 1)).uint64.1

theorem toNat_baseInterval (burstNS : UInt64) :
    (baseInterval burstNS).toNat = max (burstNS.toNat / 10) 100000 := by
  have tenth : (burstNS / 10).toNat = burstNS.toNat / 10 := UInt64.toNat_div _ _
  rw [baseInterval]
  split_ifs with short
  · exact (max_eq_right (tenth ▸ (UInt64.lt_iff_toNat_lt.mp short).le)).symm
  · rw [tenth]
    exact (max_eq_left (tenth ▸ UInt64.le_iff_toNat_le.mp (UInt64.not_lt.mp short))).symm

theorem jitter_lt {base : UInt64} (enough : 4 ≤ base.toNat) (r : UInt64) :
    4 * (r % (base / 4)).toNat < base.toNat := by
  have quarter : (base / 4).toNat = base.toNat / 4 := UInt64.toNat_div _ _
  have below : (r % (base / 4)).toNat < base.toNat / 4 := by
    rw [UInt64.toNat_mod, quarter]
    exact Nat.mod_lt _ (by omega)
  omega

theorem interval_bounds {base jitter : UInt64} (fits : base.toNat ≤ 2 ^ 63)
    (small : 4 * jitter.toNat < base.toNat) (coin : UInt64) :
    7 * base.toNat ≤ 8 * (interval base jitter coin).toNat ∧
      4 * (interval base jitter coin).toNat ≤ 5 * base.toNat := by
  have half : (jitter / 2).toNat = jitter.toNat / 2 := UInt64.toNat_div _ _
  rw [interval]
  split_ifs
  · rw [UInt64.toNat_add, Nat.mod_eq_of_lt (by omega)]
    omega
  · rw [UInt64.toNat_sub_of_le _ _ (UInt64.le_iff_toNat_le.mpr (by omega)), half]
    omega

/-- Nothing wraps, the intervals are near the base interval, and together at least as long as the
burst. -/
theorem preemptions_cover (rng : Source) (burstNS : UInt64) :
    let base := baseInterval burstNS
    let schedule := generatePreemptionSchedule rng burstNS
    base.toNat = max (burstNS.toNat / 10) 100000 ∧ base / 4 ≠ 0 ∧
      (∀ r, base.toNat + (r % (base / 4)).toNat < 2 ^ 64 ∧ r % (base / 4) / 2 ≤ base) ∧
      schedule.length = 12 ∧
      (∀ x ∈ schedule, 0 < x ∧ 7 * base.toNat ≤ 8 * x.toNat ∧ 4 * x.toNat ≤ 5 * base.toNat) ∧
      burstNS.toNat ≤ (schedule.map UInt64.toNat).sum := by
  intro base schedule
  have isBase : base.toNat = max (burstNS.toNat / 10) 100000 := toNat_baseInterval burstNS
  have burst := burstNS.toNat_lt
  have small (r : UInt64) : 4 * (r % (base / 4)).toNat < base.toNat := jitter_lt (by omega) r
  have bounds : ∀ x ∈ schedule, 0 < x ∧ 7 * base.toNat ≤ 8 * x.toNat ∧
      4 * x.toNat ≤ 5 * base.toNat := by
    intro x inside
    obtain ⟨i, -, rfl⟩ := List.mem_map.mp inside
    have near := interval_bounds (by omega) (small (rng.after (2 * i)).uint64.1)
      (rng.after (2 * i + 1)).uint64.1
    exact ⟨UInt64.pos_iff_ne_zero.mpr fun none => by
      rw [none, UInt64.toNat_zero] at near
      omega, near⟩
  have length : schedule.length = 12 := List.length_map _
  refine ⟨isBase, ?_, fun r => ⟨?_, ?_⟩, length, bounds, ?_⟩
  · intro none
    have quarter : (base / 4).toNat = base.toNat / 4 := UInt64.toNat_div _ _
    rw [none, UInt64.toNat_zero] at quarter
    omega
  · have := small r
    omega
  · rw [UInt64.le_iff_toNat_le, UInt64.toNat_div]
    exact (Nat.div_le_self _ _).trans (by have := small r; omega)
  · have sum := List.card_nsmul_le_sum (schedule.map UInt64.toNat) ((7 * base.toNat + 7) / 8) (by
      intro _ mem
      obtain ⟨x, inside, rfl⟩ := List.mem_map.mp mem
      have := (bounds x inside).2.1
      omega)
    rw [List.length_map, length, smul_eq_mul] at sum
    omega

end OpenThesis.Orchestrator
