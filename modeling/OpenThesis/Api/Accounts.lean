import Mathlib.Algebra.BigOperators.Fin
import Mathlib.Tactic.FinCases
import OpenThesis.Api.Results
import OpenThesis.Run.Core

/-!
# Runs of a test at the same time

Runs of one test are triggered and added up at the same time, with no lock around an update.
-/

namespace OpenThesis.Api

open Threads List

namespace Update

def isTrigger : Update → Bool
  | trigger _ => true
  | _ => false

def reports (digest : String → String) (fingerprint : String) : Update → Bool
  | report _ kind _ message => fingerprintFinding digest kind message = fingerprint
  | _ => false

def evals (id : String) : Update → Nat × Nat × Nat
  | count there _ _ total passed failed => if there = id then (total, passed, failed) else 0
  | _ => 0

def newEdges : Update → Nat
  | cover _ newEdges => newEdges
  | _ => 0

end Update

def TestStore.evals (store : TestStore) (id : String) : Nat × Nat × Nat :=
  (store.assertions[id]?).elim 0 fun a => (a.totalEvals, a.passedEvals, a.failedEvals)

def TestStore.findingsOf (store : TestStore) (fingerprint : String) : List Finding :=
  store.findingFiles.filter (·.fingerprint = fingerprint)

def occurrencesOf (reports : Nat) : List Nat :=
  if reports = 0 then [] else [reports]

structure Consistent (digest : String → String) (updates : Multiset Update) (store : TestStore) :
    Prop where
  sequences : (store.runs.toList.map fun entry => entry.2.sequence).Perm
    (range' 1 (updates.countP (·.isTrigger = true)))
  occurrences : ∀ fingerprint,
    (store.findingsOf fingerprint).map Finding.occurrences =
      occurrencesOf (updates.countP (·.reports digest fingerprint = true))
  evals : ∀ id, store.evals id = (updates.map (·.evals id)).sum
  edges : store.coverage.cumulativeNewEdges = (updates.map (·.newEdges)).sum

structure Named (ids : Ids) (store : TestStore) : Prop where
  runs : ∀ name run, store.runs[name]? = some run →
    ∃ earlier < store.drawn, name = ids.generateID "run" earlier
  findings : ∀ name finding, store.findings[name]? = some finding →
    finding.id = name ∧ ∃ earlier < store.drawn, name = ids.generateID "find" earlier

section

variable {ids : Ids} {digest : String → String} {store : TestStore}

theorem Named.run_fresh (named : Named ids store) :
    store.runs[ids.generateID "run" store.drawn]? = none := by
  cases found : store.runs[ids.generateID "run" store.drawn]? with
  | none => rfl
  | some run =>
    obtain ⟨earlier, before, same⟩ := named.runs _ run found
    exact absurd (ids.generateID_inj.mp same) before.ne'

theorem Named.finding_fresh (named : Named ids store) :
    store.findings[ids.generateID "find" store.drawn]? = none := by
  cases found : store.findings[ids.generateID "find" store.drawn]? with
  | none => rfl
  | some finding =>
    obtain ⟨-, earlier, before, same⟩ := named.findings _ finding found
    exact absurd (ids.generateID_inj.mp same) before.ne'

variable {finding : Finding} {updates : Multiset Update}

theorem Named.mem_findingFiles (named : Named ids store) :
    finding ∈ store.findingFiles ↔ store.findings[finding.id]? = some finding :=
  Keyed.mem_values_iff fun name stored found => (named.findings name stored found).1

theorem Named.findFindingByFingerprint (named : Named ids store) {fingerprint : String}
    (found : store.findFindingByFingerprint fingerprint = some finding) :
    finding.fingerprint = fingerprint ∧ store.findings[finding.id]? = some finding :=
  ⟨by simpa using find?_some found,
    named.mem_findingFiles.mp (mem_of_find?_eq_some found)⟩

theorem perform_report (ids : Ids) (digest : String → String) (store : TestStore) (run : RunRecord)
    (kind : AssertionKind) (property message : String) (now : Nat) :
    (∃ existing, store.findFindingByFingerprint (fingerprintFinding digest kind message) =
        some existing ∧
      (storeUpdates ids digest).perform store (.report run kind property message, now) =
        { store with findings := store.findings.insert existing.id existing.again }) ∨
      store.findFindingByFingerprint (fingerprintFinding digest kind message) = none ∧
        (storeUpdates ids digest).perform store (.report run kind property message, now) =
          { store with
            findings := store.findings.insert (ids.generateID "find" store.drawn)
              (Update.newFinding digest run kind property message
                (ids.generateID "find" store.drawn) now)
            drawn := store.drawn + 1 } := by
  have performed :
      (storeUpdates ids digest).perform store (.report run kind property message, now) =
      Update.write ids digest (.report run kind property message)
        (store.findFindingByFingerprint (fingerprintFinding digest kind message)) now store := rfl
  rw [performed]
  cases found : store.findFindingByFingerprint (fingerprintFinding digest kind message) with
  | none => exact Or.inr ⟨rfl, rfl⟩
  | some existing => exact Or.inl ⟨existing, rfl, rfl⟩

/-- A report writes a finding only. -/
theorem perform_report_frame (ids : Ids) (digest : String → String) (store : TestStore)
    (run : RunRecord) (kind : AssertionKind) (property message : String) (now : Nat) :
    let next := (storeUpdates ids digest).perform store (.report run kind property message, now)
    next.runs = store.runs ∧ next.assertions = store.assertions ∧
      next.coverage = store.coverage := by
  rcases perform_report ids digest store run kind property message now with
    ⟨existing, -, performed⟩ | ⟨-, performed⟩
  · rw [performed]
    exact ⟨rfl, rfl, rfl⟩
  · rw [performed]
    exact ⟨rfl, rfl, rfl⟩

theorem Named.draw (named : Named ids store) :
    Named ids { store with drawn := store.drawn + 1 } where
  runs name run found := by
    obtain ⟨earlier, before, same⟩ := named.runs name run found
    exact ⟨earlier, before.trans (Nat.lt_succ_self _), same⟩
  findings name finding found := by
    obtain ⟨id, earlier, before, same⟩ := named.findings name finding found
    exact ⟨id, earlier, before.trans (Nat.lt_succ_self _), same⟩

theorem Named.perform (named : Named ids store) (update : Update) (now : Nat) :
    Named ids ((storeUpdates ids digest).perform store (update, now)) := by
  cases update with
  | trigger seed =>
    refine ⟨fun name run found => ?_, named.draw.findings⟩
    change (store.runs.insert _ _)[name]? = some run at found
    rw [Keyed.lookup_insert] at found
    split at found
    next same => exact ⟨store.drawn, Nat.lt_succ_self _, same⟩
    · exact named.draw.runs name run found
  | report run kind property message =>
    rcases perform_report ids digest store run kind property message now with
      ⟨existing, found, performed⟩ | ⟨-, performed⟩
    · rw [performed]
      obtain ⟨-, stored⟩ := named.findFindingByFingerprint found
      refine ⟨named.runs, fun name finding found => ?_⟩
      rw [Keyed.lookup_insert] at found
      split at found
      next same =>
        cases found
        subst same
        exact ⟨rfl, (named.findings _ _ stored).2⟩
      · exact named.findings name finding found
    · rw [performed]
      refine ⟨named.draw.runs, fun name finding found => ?_⟩
      rw [Keyed.lookup_insert] at found
      split at found
      next same =>
        cases found
        exact ⟨same.symm, store.drawn, Nat.lt_succ_self _, same⟩
      · exact named.draw.findings name finding found
  | count | cover => exact ⟨named.runs, named.findings⟩

theorem sequences_perform (named : Named ids store)
    (sequences : (store.runs.toList.map fun entry => entry.2.sequence).Perm
      (range' 1 (updates.countP (·.isTrigger = true)))) (update : Update) (now : Nat) :
    (((storeUpdates ids digest).perform store (update, now)).runs.toList.map
      fun entry => entry.2.sequence).Perm
        (range' 1 ((update ::ₘ updates).countP (·.isTrigger = true))) := by
  cases update with
  | trigger seed =>
    have size : store.runs.size = updates.countP (·.isTrigger = true) := by
      rw [← Std.ExtTreeMap.length_toList]
      simpa using sequences.length_eq
    have added := (Keyed.toList_insert_perm_of_lookup_eq_none named.run_fresh
      (RunRecord.mk (ids.generateID "run" store.drawn) seed (store.runs.size + 1))).map
        fun entry => entry.2.sequence
    refine added.trans ?_
    rw [Multiset.countP_cons_of_pos (p := fun update : Update => update.isTrigger = true) _ rfl,
      range'_1_concat, map_cons, size, Nat.add_comm 1]
    exact (sequences.cons _).trans (perm_append_singleton _ _).symm
  | report run kind property message =>
    rw [Multiset.countP_cons_of_neg _ (by simp [Update.isTrigger]),
      (perform_report_frame ids digest store run kind property message now).1]
    exact sequences
  | count | cover =>
    rw [Multiset.countP_cons_of_neg _ (by simp [Update.isTrigger])]
    exact sequences

@[simp]
theorem fingerprint_again (existing : Finding) :
    existing.again.fingerprint = existing.fingerprint :=
  rfl

@[simp]
theorem fingerprint_newFinding (run : RunRecord) (kind : AssertionKind)
    (property message id : String) (now : Nat) :
    (Update.newFinding digest run kind property message id now).fingerprint =
      fingerprintFinding digest kind message :=
  rfl

def matching (findings : Std.ExtTreeMap String Finding) (fingerprint : String) : List Finding :=
  (findings.toList.map Prod.snd).filter (·.fingerprint = fingerprint)

theorem matching_perm {findings : Std.ExtTreeMap String Finding} {name : String}
    {others : List (String × Finding)} (files : findings.toList.Perm ((name, finding) :: others))
    (fingerprint : String) :
    (matching findings fingerprint).Perm
      ((if finding.fingerprint = fingerprint then [finding] else []) ++
        (others.map Prod.snd).filter (·.fingerprint = fingerprint)) := by
  refine ((files.map Prod.snd).filter _).trans (Perm.of_eq ?_)
  by_cases same : finding.fingerprint = fingerprint
  · simp [same]
  · simp [same]

theorem eq_of_perm_of_length_le_one {first second : List Nat} (perm : first.Perm second)
    (short : second.length ≤ 1) : first = second := by
  match second, short with
  | [], _ => exact perm.eq_nil
  | [_], _ => exact perm_singleton.mp perm

theorem length_occurrencesOf_le (times : Nat) : (occurrencesOf times).length ≤ 1 := by
  rw [occurrencesOf]
  split <;> simp

theorem occurrences_again (named : Named ids store) {existing : Finding} {fingerprint : String}
    {times : Nat} (found : store.findFindingByFingerprint fingerprint = some existing)
    (counted : (store.findingsOf fingerprint).map Finding.occurrences = occurrencesOf times) :
    (matching (store.findings.insert existing.id existing.again) fingerprint).map
      Finding.occurrences = occurrencesOf (times + 1) := by
  obtain ⟨same, stored⟩ := named.findFindingByFingerprint found
  have before := matching_perm (Keyed.toList_perm_of_lookup stored) fingerprint
  have after := matching_perm
    (Keyed.toList_insert_perm store.findings existing.id existing.again) fingerprint
  rw [if_pos same] at before
  rw [fingerprint_again, if_pos same] at after
  generalize ((store.findings.erase existing.id).toList.map Prod.snd).filter
    (fun finding => finding.fingerprint = fingerprint) = others at before after
  have numbers := before.map Finding.occurrences
  rw [show (matching store.findings fingerprint).map _ = _ from counted, occurrencesOf] at numbers
  split at numbers
  · exact absurd numbers.length_eq (by simp)
  · obtain rfl : others = [] := by simpa using numbers.length_eq
    have isTimes := perm_singleton.mp numbers
    rw [append_nil] at after
    rw [singleton_inj.mp isTimes]
    exact congrArg (List.map Finding.occurrences) (perm_singleton.mp after)

theorem occurrences_first (named : Named ids store) {first : Finding} {times : Nat}
    (once : first.occurrences = 1)
    (absent : store.findFindingByFingerprint first.fingerprint = none)
    (counted : (store.findingsOf first.fingerprint).map Finding.occurrences =
      occurrencesOf times) :
    (matching (store.findings.insert (ids.generateID "find" store.drawn) first)
      first.fingerprint).map Finding.occurrences = occurrencesOf (times + 1) := by
  have after := matching_perm
    (Keyed.toList_insert_perm_of_lookup_eq_none named.finding_fresh first) first.fingerprint
  rw [if_pos rfl] at after
  rw [TestStore.findFindingByFingerprint, ← head?_filter, head?_eq_none_iff] at absent
  rw [TestStore.findingsOf, absent, occurrencesOf] at counted
  split at counted
  next never =>
    have alone := after.trans (Perm.of_eq (congrArg _ absent))
    rw [never, perm_singleton.mp alone, map_singleton, once]
    rfl
  · cases counted

/-- A report leaves the findings with another fingerprint as they are. -/
theorem findingsOf_report (named : Named ids store) (run : RunRecord) (kind : AssertionKind)
    (property message : String) (now : Nat) {fingerprint : String}
    (other : fingerprintFinding digest kind message ≠ fingerprint) :
    (((storeUpdates ids digest).perform store
      (.report run kind property message, now)).findingsOf fingerprint).Perm
        (store.findingsOf fingerprint) := by
  rcases perform_report ids digest store run kind property message now with
    ⟨existing, found, performed⟩ | ⟨-, performed⟩
  · obtain ⟨same, stored⟩ := named.findFindingByFingerprint found
    have before := matching_perm (Keyed.toList_perm_of_lookup stored) fingerprint
    have after := matching_perm
      (Keyed.toList_insert_perm store.findings existing.id existing.again) fingerprint
    rw [same, if_neg other] at before
    rw [fingerprint_again, same, if_neg other] at after
    rw [performed]
    exact after.trans before.symm
  · have after := matching_perm
      (Keyed.toList_insert_perm_of_lookup_eq_none named.finding_fresh
        (Update.newFinding digest run kind property message
          (ids.generateID "find" store.drawn) now)) fingerprint
    rw [fingerprint_newFinding, if_neg other] at after
    rw [performed]
    exact after

theorem occurrences_perform (named : Named ids store)
    (occurrences : ∀ fingerprint, (store.findingsOf fingerprint).map Finding.occurrences =
      occurrencesOf (updates.countP (·.reports digest fingerprint = true))) (update : Update)
    (now : Nat) (fingerprint : String) :
    (((storeUpdates ids digest).perform store (update, now)).findingsOf fingerprint).map
        Finding.occurrences =
      occurrencesOf ((update ::ₘ updates).countP (·.reports digest fingerprint = true)) := by
  cases update with
  | report run kind property message =>
    rw [Multiset.countP_cons]
    by_cases here : fingerprintFinding digest kind message = fingerprint
    · subst here
      rw [if_pos (by simp [Update.reports])]
      rcases perform_report ids digest store run kind property message now with
        ⟨existing, found, performed⟩ | ⟨absent, performed⟩
      · rw [performed]
        exact occurrences_again named found (occurrences _)
      · rw [performed]
        let first := Update.newFinding digest run kind property message
          (ids.generateID "find" store.drawn) now
        have once : first.occurrences = 1 := rfl
        exact occurrences_first named once absent (occurrences _)
    · rw [if_neg (by simpa [Update.reports] using here), Nat.add_zero, ← occurrences fingerprint]
      have short : ((store.findingsOf fingerprint).map Finding.occurrences).length ≤ 1 := by
        rw [occurrences]
        exact length_occurrencesOf_le _
      exact eq_of_perm_of_length_le_one
        ((findingsOf_report named run kind property message now here).map _) short
  | trigger | count | cover =>
    rw [Multiset.countP_cons_of_neg _ (by simp [Update.reports])]
    exact occurrences fingerprint

theorem evals_perform (store : TestStore) (update : Update) (now : Nat) (id : String) :
    ((storeUpdates ids digest).perform store (update, now)).evals id =
      update.evals id + store.evals id := by
  cases update with
  | count there kind message total passed failed =>
    change Option.elim (store.assertions.insert there _)[id]? _ _ = _
    rw [Keyed.lookup_insert, Update.evals]
    by_cases here : id = there
    · subst here
      rw [if_pos rfl, if_pos rfl, TestStore.evals]
      cases found : store.assertions[id]? with
      | none => simp [storeUpdates, Update.read, found]
      | some existing => simp [storeUpdates, Update.read, found, Nat.add_comm]
    · rw [if_neg here, if_neg (Ne.symm here), zero_add, TestStore.evals]
  | report run kind property message =>
    rw [TestStore.evals, (perform_report_frame ids digest store run kind property message now).2.1]
    exact (zero_add _).symm
  | trigger | cover => exact (zero_add _).symm

theorem edges_perform (store : TestStore) (update : Update) (now : Nat) :
    ((storeUpdates ids digest).perform store (update, now)).coverage.cumulativeNewEdges =
      update.newEdges + store.coverage.cumulativeNewEdges := by
  cases update with
  | cover totalEdges newEdges => exact Nat.add_comm _ _
  | report run kind property message =>
    rw [(perform_report_frame ids digest store run kind property message now).2.2]
    exact (zero_add _).symm
  | trigger | count => exact (zero_add _).symm

theorem Consistent.perform (named : Named ids store)
    (consistent : Consistent digest updates store) (update : Update) (now : Nat) :
    Consistent digest (update ::ₘ updates)
      ((storeUpdates ids digest).perform store (update, now)) where
  sequences := sequences_perform named consistent.sequences update now
  occurrences := occurrences_perform named consistent.occurrences update now
  evals id := by
    rw [evals_perform, consistent.evals, Multiset.map_cons, Multiset.sum_cons]
  edges := by
    rw [edges_perform, consistent.edges, Multiset.map_cons, Multiset.sum_cons]

theorem named_empty : Named ids {} where
  runs name run found := by simp at found
  findings name finding found := by simp at found

theorem consistent_empty : Consistent digest 0 {} where
  sequences := by simp
  occurrences fingerprint := by simp [TestStore.findingsOf, TestStore.findingFiles, occurrencesOf]
  evals id := by simp [TestStore.evals]
  edges := rfl

theorem consistent_foldl (done : List (Update × Nat)) :
    Named ids (done.foldl (storeUpdates ids digest).perform {}) ∧
      Consistent digest (done.map Prod.fst : List Update)
        (done.foldl (storeUpdates ids digest).perform {}) := by
  induction done using reverseRecOn with
  | nil => exact ⟨named_empty, consistent_empty⟩
  | append_singleton done last ih =>
    obtain ⟨named, consistent⟩ := ih
    obtain ⟨update, now⟩ := last
    have whole : ((done ++ [(update, now)]).map Prod.fst : Multiset Update) =
        update ::ₘ (done.map Prod.fst : List Update) := by
      rw [map_append, ← Multiset.coe_add, add_comm]
      rfl
    rw [foldl_concat, whole]
    exact ⟨named.perform update now, consistent.perform named update now⟩

end

inductive Job
  | triggerRun (seed : UInt64)
  | applyResult (run : RunRecord) (result : RunResult) (faultsEnabled : Bool)

def Job.updates : Job → List Update
  | triggerRun seed => [.trigger seed]
  | applyResult run result faultsEnabled => Api.applyResult run result faultsEnabled

def allUpdates (jobs : List Job) : Multiset Update :=
  (jobs.flatMap Job.updates : List Update)

def launch (ids : Ids) (digest : String → String) (jobs : List Job) :
    Machine (storeUpdates ids digest) (Fin jobs.length) where
  store := {}
  threads i := { remaining := (jobs.get i).updates }

theorem outstanding_launch (ids : Ids) (digest : String → String) (jobs : List Job) :
    (launch ids digest jobs).outstanding = allUpdates jobs := by
  have sum (jobs : List Job) : (jobs.map fun job => (job.updates : Multiset Update)).sum =
      allUpdates jobs := by
    induction jobs with
    | nil => rfl
    | cons job jobs ih =>
      rw [map_cons, sum_cons, ih, allUpdates, allUpdates, flatMap_cons, Multiset.coe_add]
  rw [← sum, ← Fin.sum_univ_fun_getElem]
  refine Finset.sum_congr rfl fun i _ => ?_
  simp [launch, Updater.outstanding]

/-- The store adds up in the end if no file that an update has read is changed before it writes. -/
theorem adds_up_of_undisturbed (ids : Ids) (digest : String → String) (jobs : List Job)
    (actions : List (Fin jobs.length × Nat))
    (undisturbed : ∀ before action, before ++ [action] <+: actions →
      ((launch ids digest jobs).run before).Undisturbed action)
    (finished : ((launch ids digest jobs).run actions).Finished) :
    Consistent digest (allUpdates jobs) ((launch ids digest jobs).run actions).store := by
  rw [Machine.store_run undisturbed, ← outstanding_launch ids digest jobs,
    ← Machine.performed_of_finished finished]
  exact (consistent_foldl _).2

def unaryIds : Ids where
  hex n := String.ofList (replicate n '0')
  injective first second same := by
    have digits := String.ofList_injective same
    simpa using congrArg List.length digits

theorem adds_up_in_turn :
    let result : RunResult :=
      { newEdges := 5, always := { total := 2, passed := 1, failed := 1 },
        violations := [{ property := "balance", message := "negative" }] }
    let jobs : List Job :=
      [.triggerRun 7, .applyResult { id := "a", seed := 7, sequence := 1 } result true]
    let actions : List (Fin 2 × Nat) := replicate 2 (0, 0) ++ replicate 22 (1, 0)
    ((launch unaryIds id jobs).run actions).Finished ∧
      Consistent id (allUpdates jobs) ((launch unaryIds id jobs).run actions).store := by
  intro result jobs actions
  have finished : ∀ i : Fin 2, (((launch unaryIds id jobs).run actions).threads i).remaining = [] ∧
      (((launch unaryIds id jobs).run actions).threads i).pending = none := by
    decide +kernel
  refine ⟨finished, adds_up_of_undisturbed unaryIds id jobs actions ?_ finished⟩
  exact Run.forall_actions_iff_forall_fin.mpr (by decide +kernel)

/-- Two runs that are triggered at the same time have the same number, and one of two results that
are added at the same time is lost. -/
theorem results_lost :
    let result : RunResult :=
      { newEdges := 5, always := { total := 2, passed := 1, failed := 1 },
        violations := [{ property := "balance", message := "negative" }] }
    let triggers : List Job := [.triggerRun 7, .triggerRun 8]
    let results : List Job :=
      [.applyResult { id := "a", seed := 7, sequence := 1 } result true,
        .applyResult { id := "b", seed := 8, sequence := 2 } result true]
    let triggered := (launch unaryIds id triggers).run [(0, 0), (1, 0), (0, 0), (1, 0)]
    let added := (launch unaryIds id results).run (replicate 22 [(0, 0), (1, 0)]).flatten
    (triggered.Finished ∧ added.Finished) ∧
      triggered.store.runs.toList.map (fun entry => entry.2.sequence) = [1, 1] ∧
      (added.store.findingsOf "always::negative").map Finding.occurrences = [1, 1] ∧
      added.store.evals "always" = (2, 1, 1) ∧ added.store.coverage.cumulativeNewEdges = 5 := by
  refine ⟨⟨?_, ?_⟩, by decide +kernel⟩
  · intro i
    fin_cases i <;> exact ⟨rfl, rfl⟩
  · intro i
    fin_cases i <;> exact ⟨rfl, rfl⟩

end OpenThesis.Api
