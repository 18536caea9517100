import OpenThesis.Api.TestManager

/-!
# Starting and stopping a test

Starting a test should be refused exactly while its schedule runs, and stopping it should cancel its
runs.
-/

namespace OpenThesis.Api

open Function

namespace TestManager

def schedules (m : TestManager) : (String → Bool) × (Nat → Option String) × (String → Bool) :=
  (fun key => (m.active key).isSome, m.starting, m.scheduled)

@[simp]
theorem schedules_setExecution (m : TestManager) (rid : String) (execution : Execution) :
    (m.setExecution rid execution).schedules = m.schedules :=
  rfl

@[simp]
theorem schedules_setCancelling (m : TestManager) (call : Nat) (cancelling : Cancelling) :
    (m.setCancelling call cancelling).schedules = m.schedules :=
  rfl

@[simp]
theorem schedules_saveRun (m : TestManager) (rid : String) (run : Run) (ok : Bool) :
    (m.saveRun rid run ok).schedules = m.schedules := by
  cases ok <;> rfl

@[simp]
theorem schedules_forgetCancel (m : TestManager) (key rid : String) :
    (m.forgetCancel key rid).schedules = m.schedules := by
  have same : (fun other => ((m.forgetCancel key rid).active other).isSome) =
      fun other => (m.active other).isSome := by
    funext other
    by_cases here : other = key
    · subst here
      simp [forgetCancel]
    · simp [forgetCancel, here]
  exact Prod.ext same rfl

@[simp]
theorem schedules_contextDone (m : TestManager) (contextDone : String → Bool) :
    { m with contextDone }.schedules = m.schedules :=
  rfl

def Action.schedules : Action → Bool
  | .startTest .. | .saveTest .. | .stopTest .. | .launchRun .. => true
  | _ => false

theorem schedules_step {m : TestManager} {action : Action}
    (other : Action.schedules action = false) : (m.step action).schedules = m.schedules := by
  cases action with
  | startTest | saveTest | stopTest | launchRun => cases other
  | createRun pid tid rid =>
    simp only [step, createRun]
    split <;> rfl
  | loadRun rid ok =>
    simp only [step, loadRun]
    split
    · split <;> rfl
    · rfl
  | saveRunning rid ok now =>
    simp only [step, saveRunning]
    split <;> simp
  | execute rid failed =>
    simp only [step, execute]
    split <;> rfl
  | reloadRun rid ok =>
    simp only [step, reloadRun]
    split
    · split <;> rfl
    · rfl
  | decideStatus rid =>
    simp only [step, decideStatus]
    split
    · split <;> rfl
    · rfl
  | saveFinal rid ok =>
    simp only [step, saveFinal]
    split <;> simp
  | leave rid =>
    simp only [step, leave]
    split <;> simp
  | signalCancel call pid tid rid =>
    simp only [step, signalCancel]
    split
    · split <;> simp
    · rfl
  | loadCancel call ok =>
    simp only [step, loadCancel]
    split
    · split
      · rfl
      · split <;> rfl
    · rfl
  | saveCancel call ok =>
    simp only [step, saveCancel]
    split <;> simp

def BeingStarted (m : TestManager) (key : String) : Prop :=
  ∃ call, m.starting call = some key

/-- The step starts or stops no test that is being started, stops none with an active run, and
launches a run only of a test whose schedule runs or is being started. -/
def Orderly (m : TestManager) : Action → Prop
  | .startTest _ pid tid => ¬ m.BeingStarted (jobKey pid tid)
  | .stopTest pid tid =>
    ¬ m.BeingStarted (jobKey pid tid) ∧
      ∀ rid, m.testOf rid = jobKey pid tid → (m.execution rid).active = true →
        m.contextDone rid = true
  | .launchRun rid => m.scheduled (m.testOf rid) = true ∨ m.BeingStarted (m.testOf rid)
  | _ => True

/-- A call that starts a test is refused exactly if its schedule runs, and one that stops it cancels
all its active runs. -/
def Documented (m : TestManager) : Action → Prop
  | .startTest call pid tid =>
    m.startTest call (jobKey pid tid) = .error "test is already running" ↔
      m.scheduled (jobKey pid tid) = true
  | .stopTest pid tid =>
    ∀ rid, m.testOf rid = jobKey pid tid → (m.execution rid).active = true →
      (m.act (.stopTest pid tid)).contextDone rid = true
  | _ => True

/-- There is an entry for each test that has a schedule or is being started, and for no other. -/
structure Consistent (m : TestManager) : Prop where
  present : ∀ key, (m.active key).isSome = true ↔ m.scheduled key = true ∨ m.BeingStarted key
  apart : ∀ call key, m.starting call = some key → m.scheduled key = false
  single : ∀ call call' key, m.starting call = some key → m.starting call' = some key →
    call = call'

namespace Consistent

theorem initial : Consistent {} where
  present key := by simp [BeingStarted]
  apart call key started := by cases started
  single call call' key started := by cases started

theorem of_schedules {m next : TestManager} (consistent : m.Consistent)
    (same : next.schedules = m.schedules) : next.Consistent := by
  obtain ⟨entries, rest⟩ := Prod.ext_iff.mp same
  obtain ⟨starting, scheduled⟩ := Prod.ext_iff.mp rest
  have starting : next.starting = m.starting := starting
  have scheduled : next.scheduled = m.scheduled := scheduled
  constructor
  · intro key
    rw [show (next.active key).isSome = (m.active key).isSome from congrFun entries key,
      consistent.present key, BeingStarted, BeingStarted, starting, scheduled]
  · intro call key started
    rw [scheduled]
    exact consistent.apart call key (starting ▸ started)
  · intro call call' key started started'
    exact consistent.single call call' key (starting ▸ started) (starting ▸ started')

variable {m : TestManager}

section

variable (consistent : m.Consistent)

include consistent

theorem startTest {call : Nat} {key : String}
    (idle : m.starting call = none) (absent : m.active key = none) :
    Consistent
      { m with
        active := update m.active key (some { schedule := true })
        starting := update m.starting call (some key) } := by
  have free : ¬ (m.scheduled key = true ∨ m.BeingStarted key) := by
    rw [← consistent.present key, absent]
    exact Bool.false_ne_true
  obtain ⟨unscheduled, unstarted⟩ := not_or.mp free
  constructor
  · intro other
    by_cases here : other = key
    · subst here
      exact iff_of_true (by simp) (Or.inr ⟨call, by simp⟩)
    · have same : (∃ call', update m.starting call (some key) call' = some other) ↔
          m.BeingStarted other := by
        refine exists_congr fun call' => ?_
        by_cases now : call' = call
        · subst now
          simp [idle, Ne.symm here]
        · rw [update_of_ne now]
      simpa [here, BeingStarted, same] using consistent.present other
  · intro call' other started'
    by_cases now : call' = call
    · subst now
      obtain rfl : key = other := by simpa using started'
      exact Bool.eq_false_of_not_eq_true unscheduled
    · exact consistent.apart call' other (by simpa [now] using started')
  · -- no other call starts the test, for then there would be an entry
    intro first second other byFirst bySecond
    by_cases atFirst : first = call
    · by_cases atSecond : second = call
      · exact atFirst.trans atSecond.symm
      · obtain rfl : key = other := by simpa [atFirst] using byFirst
        exact absurd ⟨second, by simpa [atSecond] using bySecond⟩ unstarted
    · by_cases atSecond : second = call
      · obtain rfl : key = other := by simpa [atSecond] using bySecond
        exact absurd ⟨first, by simpa [atFirst] using byFirst⟩ unstarted
      · exact consistent.single first second other (by simpa [atFirst] using byFirst)
          (by simpa [atSecond] using bySecond)

theorem beingStarted_update {call : Nat} {key : String}
    (started : m.starting call = some key) (other : String) :
    (∃ call', update m.starting call none call' = some other) ↔
      other ≠ key ∧ m.BeingStarted other := by
  constructor
  · rintro ⟨call', started'⟩
    have elsewhere : call' ≠ call := by
      rintro rfl
      simp at started'
    rw [update_of_ne elsewhere] at started'
    refine ⟨?_, call', started'⟩
    rintro rfl
    exact elsewhere (consistent.single call' call other started' started)
  · rintro ⟨ne, call', started'⟩
    have elsewhere : call' ≠ call := by
      rintro rfl
      exact ne (Option.some.inj (started'.symm.trans started))
    exact ⟨call', by rw [update_of_ne elsewhere, started']⟩

theorem saveTest (call : Nat) (ok : Bool) : (m.saveTest call ok).Consistent := by
  rw [TestManager.saveTest]
  split
  · exact consistent
  next key started =>
    have remaining := consistent.beingStarted_update started
    have unscheduled := consistent.apart call key started
    have earlier {call' : Nat} {other : String}
        (started' : update m.starting call none call' = some other) :
        other ≠ key ∧ m.starting call' = some other := by
      have elsewhere : call' ≠ call := by
        rintro rfl
        simp at started'
      exact ⟨((remaining other).mp ⟨call', started'⟩).1,
        by rwa [update_of_ne elsewhere] at started'⟩
    cases ok with
    | true =>
      constructor
      · intro other
        by_cases here : other = key
        · subst here
          exact iff_of_true ((consistent.present other).mpr (Or.inr ⟨call, started⟩))
            (Or.inl (by simp))
        · simpa [BeingStarted, remaining, here] using consistent.present other
      · intro call' other started'
        obtain ⟨ne, before⟩ := earlier started'
        simpa [ne] using consistent.apart call' other before
      · intro first second other byFirst bySecond
        exact consistent.single first second other (earlier byFirst).2 (earlier bySecond).2
    | false =>
      constructor
      · intro other
        by_cases here : other = key
        · subst here
          simp [BeingStarted, remaining, unscheduled]
        · simpa [BeingStarted, remaining, here] using consistent.present other
      · intro call' other started'
        exact consistent.apart call' other (earlier started').2
      · intro first second other byFirst bySecond
        exact consistent.single first second other (earlier byFirst).2 (earlier bySecond).2

theorem stopTest {key : String} (idle : ¬ m.BeingStarted key) :
    (m.stopTest key).Consistent where
  present other := by
    by_cases here : other = key
    · subst here
      simpa [TestManager.stopTest, BeingStarted] using idle
    · simpa [TestManager.stopTest, BeingStarted, here] using consistent.present other
  apart call other started := by
    have ne : other ≠ key := by
      rintro rfl
      exact idle ⟨call, started⟩
    simpa [TestManager.stopTest, ne] using consistent.apart call other started
  single := consistent.single

theorem launchRun {rid : String}
    (expected : m.scheduled (m.testOf rid) = true ∨ m.BeingStarted (m.testOf rid)) :
    (m.launchRun rid).Consistent := by
  rw [TestManager.launchRun]
  split
  · refine ⟨fun other => ?_, consistent.apart, consistent.single⟩
    by_cases here : other = m.testOf rid
    · subst here
      exact iff_of_true (by simp) expected
    · simpa [BeingStarted, here] using consistent.present other
  · exact consistent

theorem act {action : Action} (orderly : m.Orderly action) : (m.act action).Consistent := by
  cases alive : m.panicked with
  | true =>
    rw [act_of_panicked alive]
    exact consistent
  | false =>
    rw [act_of_not_panicked alive]
    cases action with
    | startTest call pid tid =>
      rcases m.step_startTest call pid tid with same | ⟨idle, absent, same⟩
      · rw [same]
        exact consistent
      · rw [same]
        exact consistent.startTest idle absent
    | saveTest call ok => exact consistent.saveTest call ok
    | stopTest pid tid => exact consistent.stopTest orderly.1
    | launchRun rid => exact consistent.launchRun orderly
    | _ => exact consistent.of_schedules (schedules_step rfl)

theorem documented {action : Action} (orderly : m.Orderly action) : m.Documented action := by
  cases action with
  | startTest call pid tid =>
    have present := consistent.present (jobKey pid tid)
    rw [or_iff_left orderly] at present
    rw [Documented, ← present, TestManager.startTest]
    split
    next there => exact iff_of_true rfl there
    next absent => exact iff_of_false (fun refused => by cases refused) absent
  | stopTest pid tid =>
    intro rid ofTest active
    have cancelled := orderly.2 rid ofTest active
    rw [TestManager.act]
    split <;> exact cancelled
  | _ => trivial

end

end Consistent

/-- In every run of orderly steps, a test can be started exactly if its schedule does not run, and
stopping it leaves no active run that is not cancelled. -/
theorem documented_of_orderly (actions : List Action)
    (orderly : ∀ before action, before ++ [action] <+: actions →
      (({} : TestManager).run before).Orderly action) :
    ∀ before action, before ++ [action] <+: actions →
      (({} : TestManager).run before).Documented action := by
  intro before action inside
  have consistent : (({} : TestManager).run before).Consistent :=
    Run.foldl_of_conditions (motive := Consistent) Consistent.initial
      (fun _ _ kept meets => kept.act meets)
      fun earlier other isPre =>
        orderly earlier other (isPre.trans ((List.prefix_append _ _).trans inside))
  exact consistent.documented (orderly before action inside)

theorem documented_stop_after_cancel :
    let actions : List Action :=
      [.startTest 0 "p" "t", .saveTest 0 true, .createRun "p" "t" "r", .launchRun "r",
        .signalCancel 0 "p" "t" "r", .stopTest "p" "t"]
    (∀ before action, before ++ [action] <+: actions →
      (({} : TestManager).run before).Orderly action) ∧
      (({} : TestManager).run (actions.take 5)).Documented (.stopTest "p" "t") := by
  intro actions
  have orderly : ∀ before action, before ++ [action] <+: actions →
      (({} : TestManager).run before).Orderly action := by
    refine Run.forall_actions_iff_forall_fin.mpr fun position => ?_
    match position with
    | 0 => exact fun ⟨_, started⟩ => by cases started
    | 1 | 2 => trivial
    | 3 => exact Or.inl rfl
    | 4 => trivial
    | 5 =>
      refine ⟨?_, fun rid ofTest active => ?_⟩
      · rintro ⟨call, started⟩
        change Function.update (Function.update (fun _ => none) 0 (some (jobKey "p" "t"))) 0 none
          call = some (jobKey "p" "t") at started
        by_cases here : call = 0 <;> simp [here] at started
      · change Function.update (fun _ => "") "r" (jobKey "p" "t") rid = jobKey "p" "t" at ofTest
        by_cases here : rid = "r"
        · rw [here]
          rfl
        · rw [update_of_ne here] at ofTest
          exact absurd ofTest (by decide)
  exact ⟨orderly, documented_of_orderly actions orderly _ _ (List.prefix_refl _)⟩

/-- A run launched by hand keeps its test from being started, and stopping the test does not
cancel the run. -/
theorem start_refused_and_run_kept :
    let launched := ({} : TestManager).run [.createRun "p" "t" "r", .launchRun "r"]
    ¬ launched.Documented (.startTest 0 "p" "t") ∧ ¬ launched.Documented (.stopTest "p" "t") := by
  intro launched
  constructor
  · intro documented
    have scheduled : launched.scheduled (jobKey "p" "t") = true := documented.mp rfl
    cases scheduled
  · intro documented
    have cancelled := documented "r" rfl rfl
    cases cancelled

end TestManager

end OpenThesis.Api
