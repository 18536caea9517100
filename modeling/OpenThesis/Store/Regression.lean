import OpenThesis.Explorer.Session

/-!
# Regressions between rounds

A round that fails where earlier ones passed raises an alert (`internal/store/regression.go`). The
database returns what was written to it.
-/

namespace OpenThesis.Store

open List Std

structure PropCount where
  assertType : String := ""
  total : Int := 0
  passed : Int := 0
  failed : Int := 0
  deriving DecidableEq, Repr

/-- The counts of a round. -/
structure AssertionSnapshot where
  round : Int := 0
  seed : UInt64 := 0
  recordedAt : Int := 0
  propertyCounts : ExtTreeMap String PropCount := ∅

structure RegressionAlert where
  property : String
  priorPassed : Int
  currentFailed : Int
  round : Int
  deriving DecidableEq, Repr

/-- The rounds so far. -/
structure RegressionDetector where
  snapshots : List AssertionSnapshot := []

open RegressionDetector

def passedOf (prevPassed : ExtTreeMap String Int) (property : String) : Int :=
  (prevPassed[property]?).getD 0

def raise (prevPassed : ExtTreeMap String Int) (entry : String × PropCount) :
    ExtTreeMap String Int :=
  if entry.2.passed > passedOf prevPassed entry.1 then prevPassed.insert entry.1 entry.2.passed
  else prevPassed

def prevPassed (existing : List AssertionSnapshot) : ExtTreeMap String Int :=
  existing.foldl (fun m s => s.propertyCounts.toList.foldl raise m) ∅

namespace RegressionDetector

def alerts (r : RegressionDetector) (snap : AssertionSnapshot) : List RegressionAlert :=
  if r.snapshots = [] then []
  else
    let prior := passedOf (prevPassed r.snapshots)
    (snap.propertyCounts.toList.filterMap fun (property, pc) =>
      if pc.failed > 0 ∧ prior property > 0 then
        some
          { property
            priorPassed := prior property
            currentFailed := pc.failed
            round := snap.round }
      else none).mergeSort fun a b => a.property ≤ b.property

def record (r : RegressionDetector) (snap : AssertionSnapshot) :
    List RegressionAlert × RegressionDetector :=
  (r.alerts snap, { snapshots := r.snapshots ++ [snap] })

def run (r : RegressionDetector) (rounds : List AssertionSnapshot) : RegressionDetector :=
  rounds.foldl (fun r snap => (r.record snap).2) r

theorem snapshots_run (r : RegressionDetector) (rounds : List AssertionSnapshot) :
    (r.run rounds).snapshots = r.snapshots ++ rounds := by
  induction rounds generalizing r with
  | nil => exact (append_nil _).symm
  | cons snap rounds ih =>
    exact (ih _).trans (append_assoc _ _ _)

end RegressionDetector

section

variable {property : String} {bound : Int}

theorem lt_passedOf_raise_iff {m : ExtTreeMap String Int} {entry : String × PropCount} :
    bound < passedOf (raise m entry) property ↔
      bound < passedOf m property ∨ entry.1 = property ∧ bound < entry.2.passed := by
  rw [raise]
  by_cases same : entry.1 = property
  · subst same
    rw [eq_self, true_and]
    split_ifs with larger
    · simp only [passedOf, ExtTreeMap.getElem?_insert_self, Option.getD_some] at larger ⊢
      omega
    · omega
  · split_ifs
    · simp [passedOf, ExtTreeMap.getElem?_insert, same]
    · simp [same]

theorem lt_passedOf_foldl_raise_iff {m : ExtTreeMap String Int}
    {entries : List (String × PropCount)} : bound < passedOf (entries.foldl raise m) property ↔
      bound < passedOf m property ∨
        ∃ entry ∈ entries, entry.1 = property ∧ bound < entry.2.passed := by
  induction entries generalizing m with
  | nil => simp
  | cons entry entries ih =>
    rw [foldl_cons, ih, lt_passedOf_raise_iff, or_assoc]
    simp only [mem_cons, exists_eq_or_imp]

theorem lt_passedOf_prevPassed_iff {existing : List AssertionSnapshot} :
    bound < passedOf (prevPassed existing) property ↔
      bound < 0 ∨ ∃ s ∈ existing, ∃ pc ∈ s.propertyCounts[property]?, bound < pc.passed := by
  have inRound (s : AssertionSnapshot) :
      (∃ entry ∈ s.propertyCounts.toList, entry.1 = property ∧ bound < entry.2.passed) ↔
        ∃ pc ∈ s.propertyCounts[property]?, bound < pc.passed := by
    simp [ExtTreeMap.mem_toList_iff_getElem?_eq_some]
  rw [prevPassed]
  have kept (m : ExtTreeMap String Int) :
      bound < passedOf (existing.foldl (fun m s => s.propertyCounts.toList.foldl raise m) m)
          property ↔
        bound < passedOf m property ∨
          ∃ s ∈ existing, ∃ pc ∈ s.propertyCounts[property]?, bound < pc.passed := by
    induction existing generalizing m with
    | nil => simp
    | cons s existing ih =>
      rw [foldl_cons, ih, lt_passedOf_foldl_raise_iff, inRound, or_assoc]
      simp only [mem_cons, exists_eq_or_imp]
  exact kept ∅

end

def FailsIn (snap : AssertionSnapshot) (property : String) : Prop :=
  ∃ pc ∈ snap.propertyCounts[property]?, 0 < pc.failed

def PassesIn (snap : AssertionSnapshot) (property : String) : Prop :=
  ∃ pc ∈ snap.propertyCounts[property]?, 0 < pc.passed

/-- The property fails in a round, and was present before without a failure. -/
structure Regressed (earlier : List AssertionSnapshot) (snap : AssertionSnapshot)
    (property : String) : Prop where
  failsNow : FailsIn snap property
  present : ∃ s ∈ earlier, property ∈ s.propertyCounts
  neverFailed : ¬ ∃ s ∈ earlier, FailsIn s property

theorem mem_alerts_iff (r : RegressionDetector) (snap : AssertionSnapshot)
    (alert : RegressionAlert) : alert ∈ r.alerts snap ↔
      ∃ pc ∈ snap.propertyCounts[alert.property]?,
        0 < pc.failed ∧ 0 < passedOf (prevPassed r.snapshots) alert.property ∧
          alert.priorPassed = passedOf (prevPassed r.snapshots) alert.property ∧
          alert.currentFailed = pc.failed ∧ alert.round = snap.round := by
  rw [alerts]
  split_ifs with first
  · simp [first, prevPassed, passedOf]
  · simp only [mem_mergeSort, mem_filterMap, Prod.exists,
      ExtTreeMap.mem_toList_iff_getElem?_eq_some, Option.ite_none_right_eq_some,
      Option.some.injEq, Option.mem_def]
    constructor
    · rintro ⟨property, pc, found, ⟨fails, passed⟩, rfl⟩
      exact ⟨pc, found, fails, passed, rfl, rfl, rfl⟩
    · rintro ⟨pc, found, fails, passed, sameP, sameF, sameR⟩
      refine ⟨alert.property, pc, found, ⟨fails, passed⟩, ?_⟩
      rw [← sameP, ← sameF, ← sameR]

theorem exists_alert_iff (earlier : List AssertionSnapshot) (snap : AssertionSnapshot)
    (property : String) :
    (∃ alert ∈ ((run {} earlier).record snap).1, alert.property = property) ↔
      FailsIn snap property ∧ ∃ s ∈ earlier, PassesIn s property := by
  have stored : (run {} earlier).snapshots = earlier :=
    snapshots_run {} earlier
  have kept : 0 < passedOf (prevPassed earlier) property ↔ ∃ s ∈ earlier, PassesIn s property :=
    lt_passedOf_prevPassed_iff.trans (or_iff_right (lt_irrefl 0))
  simp only [record, mem_alerts_iff, stored]
  constructor
  · rintro ⟨alert, ⟨pc, found, fails, passed, -⟩, rfl⟩
    exact ⟨⟨pc, found, fails⟩, kept.mp passed⟩
  · rintro ⟨⟨pc, found, fails⟩, passed⟩
    exact ⟨⟨property, passedOf (prevPassed earlier) property, pc.failed, snap.round⟩,
      ⟨pc, found, fails, kept.mpr passed, rfl, rfl, rfl⟩, rfl⟩

theorem present_of_passesIn {snap : AssertionSnapshot} {property : String}
    (passes : PassesIn snap property) : property ∈ snap.propertyCounts := by
  obtain ⟨pc, found, -⟩ := passes
  exact ExtTreeMap.mem_iff_isSome_getElem?.mpr (Option.isSome_of_mem found)

/-- An alert is raised for exactly the regressions if and only if a property that fails, and was
present before, has passed before just in case that it has not failed before. -/
theorem alert_iff_regressed_iff (earlier : List AssertionSnapshot) (snap : AssertionSnapshot)
    (property : String) :
    ((∃ alert ∈ ((run {} earlier).record snap).1,
        alert.property = property) ↔ Regressed earlier snap property) ↔
      (FailsIn snap property → (∃ s ∈ earlier, property ∈ s.propertyCounts) →
        ((∃ s ∈ earlier, PassesIn s property) ↔ ¬ ∃ s ∈ earlier, FailsIn s property)) := by
  rw [exists_alert_iff]
  constructor
  · intro agree fails present
    constructor
    · intro passed
      exact (agree.mp ⟨fails, passed⟩).neverFailed
    · intro never
      exact (agree.mpr ⟨fails, present, never⟩).2
  · intro condition
    constructor
    · rintro ⟨fails, s, mem, passes⟩
      have present : ∃ s ∈ earlier, property ∈ s.propertyCounts :=
        ⟨s, mem, present_of_passesIn passes⟩
      exact ⟨fails, present, (condition fails present).mp ⟨s, mem, passes⟩⟩
    · intro regressed
      exact ⟨regressed.failsNow,
        (condition regressed.failsNow regressed.present).mpr regressed.neverFailed⟩

/-- A property that fails in every round raises an alert, as it also passed once. -/
theorem alert_for_old_failure :
    let flaky : AssertionSnapshot :=
      { propertyCounts := (∅ : ExtTreeMap String PropCount).insert "balance"
          { assertType := "always", total := 2, passed := 1, failed := 1 } }
    (∃ alert ∈ ((run {} [flaky]).record flaky).1,
        alert.property = "balance") ∧ ¬ Regressed [flaky] flaky "balance" := by
  intro flaky
  have counts : { assertType := "always", total := 2, passed := 1, failed := 1 } ∈
      flaky.propertyCounts["balance"]? := ExtTreeMap.getElem?_insert_self
  have fails : FailsIn flaky "balance" := ⟨_, counts, by decide⟩
  refine ⟨(exists_alert_iff _ _ _).mpr ⟨fails, flaky, mem_cons_self, ?_⟩, ?_⟩
  · exact ⟨_, counts, by decide⟩
  · intro regressed
    exact regressed.neverFailed ⟨flaky, mem_cons_self, fails⟩

end OpenThesis.Store
