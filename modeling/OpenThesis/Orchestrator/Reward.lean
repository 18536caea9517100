import Mathlib.Algebra.Order.Ring.Rat
import Mathlib.Tactic.Linarith
import OpenThesis.Explorer.Novelty
import OpenThesis.Explorer.Record
import OpenThesis.Fault.Kind

/-!
# Rewards for faults

Rewards for the fault of a burst (`workerLoop` in `internal/orchestrator/pool.go`, `RecordReward` in
`internal/fault/adaptive.go`). They are rational, and the number of bursts does not overflow.
-/

namespace OpenThesis.Orchestrator

open Explorer Fault Run Slots List Function

universe u

structure FaultArm where
  pulls : Nat := 0
  totalReward : ℚ := 0
  deriving DecidableEq, Repr

/-- The arms of the bandit. -/
structure AdaptiveFaultSelector where
  kinds : List Kind
  arms : Kind → FaultArm := fun _ => {}
  total : Nat := 0
  maxAvgRwd : ℚ := 0

namespace AdaptiveFaultSelector

def select (a : AdaptiveFaultSelector) (choice : Nat) : Option Kind :=
  a.kinds[choice % a.kinds.length]?

def recordReward (a : AdaptiveFaultSelector) (kind : Kind) (reward : ℚ) :
    AdaptiveFaultSelector :=
  if kind ∈ a.kinds then
    let arm :=
      { pulls := (a.arms kind).pulls + 1, totalReward := (a.arms kind).totalReward + reward }
    { a with
      arms := update a.arms kind arm
      total := a.total + 1
      maxAvgRwd := max a.maxAvgRwd (arm.totalReward / arm.pulls) }
  else a

theorem kinds_recordReward (a : AdaptiveFaultSelector) (kind : Kind) (reward : ℚ) :
    (a.recordReward kind reward).kinds = a.kinds := by
  rw [recordReward]
  split <;> rfl

end AdaptiveFaultSelector

structure BurstWorker where
  adaptiveFaults : Option AdaptiveFaultSelector := none
  lastInjectedFault : Option Kind := none
  preStepEdges : UInt64 := 0
  burstNewEdges : Int64 := 0
  foundNewEdges : Bool := false
  foundNovelty : Bool := false
  violationsThisBurst : Nat := 0

namespace BurstWorker

def Known (b : BurstWorker) : Prop :=
  ∀ a kind, b.adaptiveFaults = some a → b.lastInjectedFault = some kind → kind ∈ a.kinds

def choose (b : BurstWorker) (choice : Option Nat) : BurstWorker :=
  match choice, b.adaptiveFaults with
  | some choice, some a => { b with lastInjectedFault := a.select choice }
  | _, _ => b

def credit (b : BurstWorker) (reward : ℚ) : BurstWorker :=
  match b.adaptiveFaults, b.lastInjectedFault with
  | some a, some kind => { b with adaptiveFaults := some (a.recordReward kind reward) }
  | _, _ => b

theorem choose_eq (b : BurstWorker) (choice : Option Nat) :
    b.choose choice = { b with lastInjectedFault := (b.choose choice).lastInjectedFault } := by
  unfold choose
  split <;> rfl

theorem Known.choose {b : BurstWorker} (known : b.Known) (choice : Option Nat) :
    (b.choose choice).Known := by
  unfold BurstWorker.choose
  split
  · rename_i choice a found
    intro other kind isSelector chosen
    cases found.symm.trans isSelector
    exact mem_of_getElem? chosen
  · exact known

theorem Known.credit {b : BurstWorker} (known : b.Known) (reward : ℚ) :
    (b.credit reward).Known := by
  unfold BurstWorker.credit
  split
  · rename_i a kind found injected
    intro other kind' isSelector chosen
    cases isSelector
    rw [AdaptiveFaultSelector.kinds_recordReward]
    exact known a kind' found chosen
  · exact known

end BurstWorker

/-- Workers that share the coverage and the violations. -/
structure RewardingPool (W : Type u) (n : Nat) where
  coverage : CoverageTracker n
  violations : List Violation := []
  totalBursts : Nat := 0
  workers : W → BurstWorker

open RewardingPool

inductive BurstAction where
  | beginBurst
  | injectFaults (choice : Option Nat)
  | collectCoverage (bitmap : List UInt8)
  | countEdges
  | assertion (key : String)
  | violation (v : Violation)
  | guidance (guidanceType name : String) (value : Int64)
  | randomBranch (chosenIndex totalChoices : Int64)
  | reward

namespace RewardingPool

variable {W : Type u} {n : Nat} [DecidableEq W]

def modify (p : RewardingPool W n) (w : W) (change : BurstWorker → BurstWorker) :
    RewardingPool W n :=
  { p with workers := update p.workers w (change (p.workers w)) }

def noteNovelty (p : RewardingPool W n) (w : W) (answer : CoverageTracker n × Bool) :
    RewardingPool W n :=
  { p with coverage := answer.1 }.modify w fun b =>
    { b with foundNovelty := b.foundNovelty || answer.2 }

def edgesSince (p : RewardingPool W n) (preStepEdges : UInt64) : Int64 :=
  let burstNewEdges := p.coverage.totalEdges.toInt64 - preStepEdges.toInt64
  if burstNewEdges < 0 then 0 else burstNewEdges

def reward (p : RewardingPool W n) (w : W) : ℚ :=
  let b := p.workers w
  let reward : ℚ := (b.burstNewEdges.toInt : ℚ) * 10 + if b.foundNovelty then 50 else 0
  let violations : ℚ := p.violations.length
  if 0 < p.violations.length then
    reward + violations * 500 / max (violations / (p.totalBursts + 1)) (1 / 1000)
  else reward

/-- A step of worker `w` in its burst; the coverage is shared. -/
def act (p : RewardingPool W n) (w : W) : BurstAction → RewardingPool W n
  | .beginBurst => p.modify w fun b =>
    { b with
      preStepEdges := p.coverage.totalEdges
      foundNewEdges := false
      foundNovelty := false
      violationsThisBurst := 0 }
  | .injectFaults choice => p.modify w (·.choose choice)
  | .collectCoverage bitmap =>
    let (coverage, found) := p.coverage.update bitmap
    { p with coverage }.modify w fun b => { b with foundNewEdges := b.foundNewEdges || found }
  | .countEdges => p.modify w fun b => { b with burstNewEdges := p.edgesSince b.preStepEdges }
  | .assertion key => p.noteNovelty w (p.coverage.recordAssertionNovelty key)
  | .violation v => { p with violations := p.violations ++ [v] }.modify w fun b =>
    { b with foundNovelty := true, violationsThisBurst := b.violationsThisBurst + 1 }
  | .guidance guidanceType name value =>
    p.noteNovelty w (p.coverage.updateGuidance guidanceType name value)
  | .randomBranch chosenIndex totalChoices =>
    p.noteNovelty w (p.coverage.recordRandomBranch chosenIndex totalChoices)
  | .reward => { p with totalBursts := p.totalBursts + 1 }.modify w (·.credit (p.reward w))

def run (p : RewardingPool W n) (actions : List (W × BurstAction)) : RewardingPool W n :=
  actions.foldl (fun p (w, action) => p.act w action) p

/-- The coverage is consistent, and the faults that get rewards are those of the selectors. -/
structure Sound (p : RewardingPool W n) : Prop where
  consistent : p.coverage.Consistent
  known : ∀ w, (p.workers w).Known

theorem workers_modify_self (p : RewardingPool W n) (w : W) (change : BurstWorker → BurstWorker) :
    (p.modify w change).workers w = change (p.workers w) :=
  update_self w _ _

theorem workers_act_of_ne (p : RewardingPool W n) {v w : W} (other : w ≠ v)
    (action : BurstAction) : (p.act v action).workers w = p.workers w := by
  cases action <;> exact update_of_ne other _ _

variable {p : RewardingPool W n}

theorem consistent_act (consistent : p.coverage.Consistent) (w : W) (action : BurstAction) :
    (p.act w action).coverage.Consistent := by
  have answered (op : CoverageOp) := CoverageTracker.consistent_apply consistent op
  cases action with
  | collectCoverage bitmap => exact answered (.update bitmap)
  | assertion key => exact answered (.recordAssertionNovelty key)
  | guidance guidanceType name value => exact answered (.updateGuidance guidanceType name value)
  | randomBranch chosenIndex totalChoices =>
    exact answered (.recordRandomBranch chosenIndex totalChoices)
  | _ => exact consistent

theorem known_act {w : W} (known : (p.workers w).Known) (action : BurstAction) :
    ((p.act w action).workers w).Known := by
  cases action with
  | injectFaults choice =>
    rw [act, workers_modify_self]
    exact known.choose choice
  | reward =>
    rw [act, workers_modify_self]
    exact known.credit _
  | _ =>
    simp only [act, noteNovelty, workers_modify_self]
    exact known

theorem Sound.act (sound : p.Sound) (w : W) (action : BurstAction) :
    (p.act w action).Sound where
  consistent := consistent_act sound.consistent w action
  known := by
    intro v
    by_cases same : v = w
    · rw [same]
      exact known_act (sound.known w) action
    · rw [workers_act_of_ne p same]
      exact sound.known v

theorem Sound.run (sound : p.Sound) (actions : List (W × BurstAction)) : (p.run actions).Sound :=
  foldlRecOn (motive := Sound) actions _ sound fun _ kept step _ => kept.act step.1 step.2

theorem totalEdges_le_act (sound : p.Sound) (w : W) (action : BurstAction) :
    p.coverage.totalEdges.toNat ≤ (p.act w action).coverage.totalEdges.toNat := by
  have gained (op : CoverageOp) (isUpdate : op.isUpdate) :=
    CoverageTracker.gains_apply sound.consistent isUpdate
  have gains : p.coverage.Gains (p.act w action).coverage := by
    cases action with
    | collectCoverage bitmap => exact gained (.update bitmap) rfl
    | assertion key => exact gained (.recordAssertionNovelty key) rfl
    | guidance guidanceType name value => exact gained (.updateGuidance guidanceType name value) rfl
    | randomBranch chosenIndex totalChoices =>
      exact gained (.recordRandomBranch chosenIndex totalChoices) rfl
    | _ => exact CoverageTracker.gains_self sound.consistent
  exact UInt64.le_iff_toNat_le.mp gains.totalEdges

theorem totalEdges_le_run (sound : p.Sound) (actions : List (W × BurstAction)) :
    p.coverage.totalEdges.toNat ≤ (p.run actions).coverage.totalEdges.toNat := by
  induction actions generalizing p with
  | nil => exact le_refl _
  | cons step actions ih =>
    exact (totalEdges_le_act sound step.1 step.2).trans (ih (sound.act step.1 step.2))

end RewardingPool

def BurstAction.Collects : BurstAction → Prop
  | injectFaults _ | collectCoverage _ => True
  | _ => False

def BurstAction.Reports : BurstAction → Prop
  | assertion _ | violation _ | guidance .. | randomBranch .. => True
  | _ => False

/-- A burst of a worker, among the actions of others. -/
structure Burst (W : Type u) where
  history : List (W × BurstAction)
  worker : W
  during : List (W × BurstAction)
  after : List (W × BurstAction)
  collects : ∀ action, (worker, action) ∈ during → action.Collects
  reports : ∀ action, (worker, action) ∈ after → action.Reports

namespace Burst

variable {W : Type u} {n : Nat} [DecidableEq W] (burst : Burst W) (p : RewardingPool W n)

def begun : RewardingPool W n :=
  (p.run burst.history).act burst.worker .beginBurst

def collected : RewardingPool W n :=
  (burst.begun p).run burst.during

def finished : RewardingPool W n :=
  ((burst.collected p).act burst.worker .countEdges).run burst.after

/-- Nothing new was found. -/
structure Silent : Prop where
  edges : ((burst.finished p).workers burst.worker).foundNewEdges = false
  novelty : ((burst.finished p).workers burst.worker).foundNovelty = false
  violations : ((burst.finished p).workers burst.worker).violationsThisBurst = 0

def fault : Option Kind :=
  let b := (burst.finished p).workers burst.worker
  b.adaptiveFaults.bind fun _ => b.lastInjectedFault

def Undisturbed : Prop :=
  ∀ before v action, before ++ [(v, action)] <+: burst.during → v ≠ burst.worker →
    (((burst.begun p).run before).act v action).coverage.totalEdges =
      ((burst.begun p).run before).coverage.totalEdges

end Burst

namespace RewardingPool

variable {W : Type u} {n : Nat} [DecidableEq W] {p : RewardingPool W n} {w : W}

@[simp]
theorem run_nil : p.run [] = p :=
  rfl

@[simp]
theorem totalEdges_update {c : CoverageTracker n} (consistent : c.Consistent)
    {bitmap : List UInt8} (nothing : (c.update bitmap).2 = false) :
    (c.update bitmap).1.totalEdges = c.totalEdges := by
  have reports := CoverageTracker.reports_update consistent bitmap
  have taken (i : Fin n) : (c.update bitmap).1.bitmap.get i ≠ 0 ↔ c.bitmap.get i ≠ 0 := by
    refine ⟨fun now free => ?_, reports.keeps i⟩
    have found := reports.found.mpr ⟨i, free, now⟩
    rw [nothing] at found
    exact Bool.false_ne_true found
  rw [← UInt64.toNat_inj, reports.consistent.totalEdges, consistent.totalEdges,
    occupied_eq_ncard, occupied_eq_ncard]
  exact congrArg Set.ncard (Set.ext taken)

variable {action : BurstAction}

theorem preStepEdges_collect (collects : action.Collects) :
    ((p.act w action).workers w).preStepEdges = (p.workers w).preStepEdges := by
  cases action with
  | injectFaults choice =>
    rw [act, workers_modify_self, BurstWorker.choose_eq]
  | collectCoverage bitmap =>
    rw [act, workers_modify_self]
  | _ => exact collects.elim

theorem unfound_collect (sound : p.Sound) (collects : action.Collects)
    (unfound : ((p.act w action).workers w).foundNewEdges = false) :
    (p.workers w).foundNewEdges = false ∧
      (p.act w action).coverage.totalEdges = p.coverage.totalEdges := by
  cases action with
  | injectFaults choice =>
    rw [act, workers_modify_self, BurstWorker.choose_eq] at unfound
    exact ⟨unfound, rfl⟩
  | collectCoverage bitmap =>
    rw [act, workers_modify_self] at unfound
    obtain ⟨before, nothing⟩ := Bool.or_eq_false_iff.mp unfound
    exact ⟨before, totalEdges_update sound.consistent nothing⟩
  | _ => exact collects.elim

/-- The parts of a burst that do not change while the output is processed. -/
structure SameBurst (b next : BurstWorker) : Prop where
  adaptiveFaults : next.adaptiveFaults = b.adaptiveFaults
  lastInjectedFault : next.lastInjectedFault = b.lastInjectedFault
  burstNewEdges : next.burstNewEdges = b.burstNewEdges
  foundNewEdges : next.foundNewEdges = b.foundNewEdges

theorem SameBurst.trans {a b c : BurstWorker} (first : SameBurst a b) (second : SameBurst b c) :
    SameBurst a c :=
  ⟨second.adaptiveFaults.trans first.adaptiveFaults,
    second.lastInjectedFault.trans first.lastInjectedFault,
    second.burstNewEdges.trans first.burstNewEdges,
    second.foundNewEdges.trans first.foundNewEdges⟩

theorem sameBurst_report (reports : action.Reports) :
    SameBurst (p.workers w) ((p.act w action).workers w) := by
  cases action with
  | assertion key | violation v | guidance guidanceType name value
  | randomBranch chosenIndex totalChoices =>
    simp only [act, noteNovelty, workers_modify_self]
    exact ⟨rfl, rfl, rfl, rfl⟩
  | _ => exact reports.elim

theorem sameBurst_run {actions : List (W × BurstAction)}
    (reports : ∀ action, (w, action) ∈ actions → action.Reports) :
    SameBurst (p.workers w) ((p.run actions).workers w) := by
  induction actions using reverseRecOn with
  | nil => exact ⟨rfl, rfl, rfl, rfl⟩
  | append_singleton actions step ih =>
    obtain ⟨v, action⟩ := step
    have earlier := ih fun action mem => reports action (mem_append_left _ mem)
    rw [run, foldl_concat]
    by_cases same : w = v
    · subst same
      exact earlier.trans (sameBurst_report (reports action mem_concat_self))
    · rwa [workers_act_of_ne _ same]

theorem collecting_run {actions : List (W × BurstAction)} (sound : p.Sound)
    (collects : ∀ action, (w, action) ∈ actions → action.Collects) :
    ((p.run actions).workers w).preStepEdges = (p.workers w).preStepEdges ∧
      (((p.run actions).workers w).foundNewEdges = false →
        ∀ before action, before ++ [(w, action)] <+: actions →
          ((p.run before).act w action).coverage.totalEdges =
            (p.run before).coverage.totalEdges) := by
  induction actions using reverseRecOn with
  | nil =>
    refine ⟨rfl, fun _ before action inside => ?_⟩
    simp at inside
  | append_singleton actions step ih =>
    obtain ⟨v, action⟩ := step
    obtain ⟨before, kept⟩ := ih fun action mem => collects action (mem_append_left _ mem)
    rw [run, foldl_concat]
    by_cases same : w = v
    · subst same
      have own := collects action mem_concat_self
      refine ⟨(preStepEdges_collect own).trans before, fun unfound earlier other inside => ?_⟩
      obtain ⟨unfoundBefore, noEdge⟩ := unfound_collect (sound.run actions) own unfound
      rcases prefix_concat_iff.mp inside with whole | inside
      · obtain ⟨rfl, rfl⟩ : earlier = actions ∧ other = action := by
          simpa using append_singleton_inj.mp whole
        exact noEdge
      · exact kept unfoundBefore earlier other inside
    · rw [workers_act_of_ne _ same]
      refine ⟨before, fun unfound earlier other inside => ?_⟩
      rcases prefix_concat_iff.mp inside with whole | inside
      · have sameStep : earlier = actions ∧ w = v ∧ other = action := by
          simpa using append_singleton_inj.mp whole
        exact absurd sameStep.2.1 same
      · exact kept unfound earlier other inside

theorem toInt_toInt64 {edges : UInt64} (small : edges.toNat < 2 ^ 63) :
    edges.toInt64.toInt = edges.toNat := by
  change edges.toBitVec.toInt = edges.toBitVec.toNat
  exact BitVec.toInt_eq_toNat_of_lt (by
    change 2 * edges.toNat < 2 ^ 64
    omega)

omit [DecidableEq W] in
theorem toInt_edgesSince (sound : p.Sound) {preStepEdges : UInt64}
    (before : preStepEdges.toNat ≤ p.coverage.totalEdges.toNat) :
    (p.edgesSince preStepEdges).toInt = p.coverage.totalEdges.toNat - preStepEdges.toNat := by
  have bound := sound.consistent.totalEdges_lt
  have difference : (p.coverage.totalEdges.toInt64 - preStepEdges.toInt64).toInt =
      p.coverage.totalEdges.toNat - preStepEdges.toNat := by
    rw [Int64.toInt_sub, toInt_toInt64 bound, toInt_toInt64 (before.trans_lt bound)]
    exact Int.bmod_eq_of_le (by omega) (by omega)
  rw [edgesSince, if_neg, difference]
  rw [Int64.lt_iff_toInt_lt, difference]
  simp only [Int64.toInt_zero]
  omega

omit [DecidableEq W] in
theorem reward_eq_zero_iff (nonneg : 0 ≤ (p.workers w).burstNewEdges.toInt) :
    p.reward w = 0 ↔ (p.workers w).burstNewEdges.toInt = 0 ∧
      (p.workers w).foundNovelty = false ∧ p.violations = [] := by
  have edges : (0 : ℚ) ≤ (p.workers w).burstNewEdges.toInt * 10 :=
    mul_nonneg (Int.cast_nonneg nonneg) (by norm_num)
  have novelty : (0 : ℚ) ≤ if (p.workers w).foundNovelty then 50 else 0 := by
    split_ifs <;> norm_num
  rw [reward]
  by_cases none : p.violations = []
  · have empty : p.violations.length = 0 := length_eq_zero_iff.mpr none
    rw [if_neg (by omega), add_eq_zero_iff_of_nonneg edges novelty, and_iff_left none]
    simp
  · -- the part for the violations is positive, and outweighs everything
    have some : 0 < p.violations.length := length_pos_iff.mpr none
    have positive : (0 : ℚ) < p.violations.length * 500 /
        max ((p.violations.length : ℚ) / (p.totalBursts + 1)) (1 / 1000) := by
      refine div_pos (mul_pos (Nat.cast_pos.mpr some) (by norm_num)) ?_
      exact lt_max_of_lt_right (by norm_num)
    rw [if_pos some]
    constructor
    · intro zero
      linarith
    · rintro ⟨-, -, empty⟩
      exact absurd empty none

end RewardingPool

namespace Burst

variable {W : Type u} {n : Nat} [DecidableEq W] (burst : Burst W) {p : RewardingPool W n}

def credited (p : RewardingPool W n) (w : W) (kind : Kind) : ℚ :=
  (p.workers w).adaptiveFaults.elim 0 fun a => (a.arms kind).totalReward

section

variable (sound : p.Sound)

include sound

theorem sound_begun : (burst.begun p).Sound :=
  (sound.run _).act _ _

theorem totalEdges_begun_le :
    (burst.begun p).coverage.totalEdges.toNat ≤ (burst.collected p).coverage.totalEdges.toNat :=
  totalEdges_le_run (burst.sound_begun sound) burst.during

theorem sound_collected : (burst.collected p).Sound :=
  (burst.sound_begun sound).run _

theorem sound_finished : (burst.finished p).Sound :=
  ((burst.sound_collected sound).act _ _).run _

theorem burstNewEdges_finished :
    ((burst.finished p).workers burst.worker).burstNewEdges.toInt =
      (burst.collected p).coverage.totalEdges.toNat -
        (burst.begun p).coverage.totalEdges.toNat := by
  have same := sameBurst_run (p := (burst.collected p).act burst.worker .countEdges)
    burst.reports
  have begun : ((burst.begun p).workers burst.worker).preStepEdges =
      (burst.begun p).coverage.totalEdges := by
    rw [Burst.begun, act, workers_modify_self]
    rfl
  have collecting := collecting_run (burst.sound_begun sound) burst.collects
  rw [finished, same.burstNewEdges, act, workers_modify_self]
  have pre : ((burst.collected p).workers burst.worker).preStepEdges =
      (burst.begun p).coverage.totalEdges := collecting.1.trans begun
  rw [pre]
  exact toInt_edgesSince (burst.sound_collected sound) (burst.totalEdges_begun_le sound)

theorem no_edges_iff_undisturbed (silent : burst.Silent p) :
    ((burst.finished p).workers burst.worker).burstNewEdges.toInt = 0 ↔ burst.Undisturbed p := by
  have unfound : ((burst.collected p).workers burst.worker).foundNewEdges = false := by
    rw [← silent.edges, finished, (sameBurst_run burst.reports).foundNewEdges,
      act, workers_modify_self]
  have own := (collecting_run (burst.sound_begun sound) burst.collects).2 unfound
  have kept := rank_foldl_eq_iff (fun q : RewardingPool W n => q.coverage.totalEdges.toNat)
    (fun actions => (burst.sound_begun sound).run actions)
    (fun q step sound => totalEdges_le_act sound step.1 step.2) burst.during
  rw [burst.burstNewEdges_finished sound, sub_eq_zero, Nat.cast_inj]
  refine kept.trans ⟨fun all before v action inside _ => ?_, fun others before step inside => ?_⟩
  · exact UInt64.toNat_inj.mp (all before (v, action) inside)
  · obtain ⟨v, action⟩ := step
    by_cases same : v = burst.worker
    · subst same
      exact congrArg UInt64.toNat (own before action inside)
    · exact congrArg UInt64.toNat (others before v action inside same)

theorem credited_reward {kind : Kind} (fault : burst.fault p = some kind) :
    credited ((burst.finished p).act burst.worker .reward) burst.worker kind =
      credited (burst.finished p) burst.worker kind + (burst.finished p).reward burst.worker := by
  obtain ⟨a, selector, injected⟩ := Option.bind_eq_some_iff.mp fault
  have known := (burst.sound_finished sound).known burst.worker a kind selector injected
  rw [credited, credited, act, workers_modify_self, BurstWorker.credit]
  simp only [selector, injected, Option.elim_some, AdaptiveFaultSelector.recordReward,
    if_pos known, update_self]

end

/-- A burst that finds nothing gets no reward exactly if no worker has found a violation so far, and
no other worker adds an edge while this one collects its coverage. -/
theorem silent_uncredited_iff (size : Int64) (ops : List CoverageOp)
    (selectors : W → Option AdaptiveFaultSelector) :
    let p : RewardingPool W (mapSize size) :=
      { coverage := (newCoverageTracker size).run ops
        workers := fun w => { adaptiveFaults := selectors w } }
    let s := burst.finished p
    (∀ kind, burst.fault p = some kind → burst.Silent p →
        credited (s.act burst.worker .reward) burst.worker kind =
          credited s burst.worker kind) ↔
      (∀ kind, burst.fault p = some kind → burst.Silent p →
        s.violations = [] ∧ burst.Undisturbed p) := by
  intro p s
  have sound : p.Sound :=
    ⟨CoverageTracker.consistent_run size ops, fun w a kind _ injected => by cases injected⟩
  refine forall_congr' fun kind => forall_congr' fun fault => forall_congr' fun silent => ?_
  have nonneg : 0 ≤ (s.workers burst.worker).burstNewEdges.toInt := by
    rw [burst.burstNewEdges_finished sound, sub_nonneg, Nat.cast_le]
    exact burst.totalEdges_begun_le sound
  rw [burst.credited_reward sound fault, add_eq_left, reward_eq_zero_iff nonneg,
    burst.no_edges_iff_undisturbed sound silent, and_iff_right silent.novelty, and_comm]

/-- One worker finds a violation. Then the other has a burst that finds nothing, and its fault
gets a reward of 500. -/
theorem silent_credited :
    let p : RewardingPool Bool (mapSize 4) :=
      { coverage := newCoverageTracker 4
        workers := fun _ => { adaptiveFaults := some { kinds := [.drop] } } }
    let burst : Burst Bool :=
      { history := [(false, .beginBurst), (false, .violation { property := "", message := "" })]
        worker := true
        during := [(true, .injectFaults (some 0))]
        after := []
        collects := by simp [BurstAction.Collects]
        reports := by simp }
    burst.fault p = some .drop ∧ burst.Silent p ∧
      credited (burst.finished p) true .drop = 0 ∧
      credited ((burst.finished p).act true .reward) true .drop = 500 := by
  refine ⟨rfl, ⟨rfl, rfl, rfl⟩, rfl, ?_⟩
  decide +kernel

end Burst

end OpenThesis.Orchestrator
