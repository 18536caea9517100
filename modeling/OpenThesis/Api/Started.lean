import OpenThesis.Api.Final

/-!
# The time at which a run started

The goroutine of a run loads the run again when the runner has returned (`executeRun`). The start
time may be missing there.
-/

namespace OpenThesis.Api

open List

namespace TestManager

variable {m : TestManager}

/-- The last step that stored a run stored the time at which it started. -/
inductive Timed : List Action → String → Prop
  | running {before : List Action} {rid : String} {run : Run} {now : Nat}
      (phase : (({} : TestManager).run before).execution rid = .loaded run) :
      Timed (before ++ [.saveRunning rid true now]) rid
  | cancel {before : List Action} {call : Nat} {rid : String} {run : Run}
      (phase : (({} : TestManager).run before).cancelling call = .loaded rid run)
      (found : run.status = .running) :
      Timed (before ++ [.saveCancel call true]) rid
  | later {before : List Action} {action : Action} {rid : String} (timed : Timed before rid)
      (other : ∀ run, ¬ (({} : TestManager).run before).Writes action rid run) :
      Timed (before ++ [action]) rid

def Reloads (m : TestManager) (action : Action) (rid : String) : Prop :=
  action = .reloadRun rid true ∧ ∃ failed, m.execution rid = .executed failed

/-- When the run was loaded for the second time, it had the time at which it started. -/
inductive Timely : List Action → String → Prop
  | reload {before : List Action} {rid : String}
      (reloads : (({} : TestManager).run before).Reloads (.reloadRun rid true) rid)
      (timed : Timed before rid) : Timely (before ++ [.reloadRun rid true]) rid
  | later {before : List Action} {action : Action} {rid : String} (timely : Timely before rid)
      (other : ¬ (({} : TestManager).run before).Reloads action rid) :
      Timely (before ++ [action]) rid

variable {before : List Action} {action : Action} {rid : String}

theorem timed_concat_iff : Timed (before ++ [action]) rid ↔
      (∃ run now, action = .saveRunning rid true now ∧
        (({} : TestManager).run before).execution rid = .loaded run) ∨
      (∃ call run, action = .saveCancel call true ∧
        (({} : TestManager).run before).cancelling call = .loaded rid run ∧ run.status = .running) ∨
      Timed before rid ∧ ∀ run, ¬ (({} : TestManager).run before).Writes action rid run := by
  constructor
  · intro timed
    generalize whole : before ++ [action] = actions at timed
    cases timed with
    | running phase =>
      obtain ⟨rfl, rfl⟩ := append_singleton_inj.mp whole
      exact Or.inl ⟨_, _, rfl, phase⟩
    | cancel phase found =>
      obtain ⟨rfl, rfl⟩ := append_singleton_inj.mp whole
      exact Or.inr (Or.inl ⟨_, _, rfl, phase, found⟩)
    | later timed other =>
      obtain ⟨rfl, rfl⟩ := append_singleton_inj.mp whole
      exact Or.inr (Or.inr ⟨timed, other⟩)
  · rintro (⟨run, now, rfl, phase⟩ | ⟨call, run, rfl, phase, found⟩ | ⟨timed, other⟩)
    · exact .running phase
    · exact .cancel phase found
    · exact .later timed other

theorem timely_concat_iff_of_reloads
    (reloads : (({} : TestManager).run before).Reloads action rid) :
    Timely (before ++ [action]) rid ↔ Timed before rid := by
  constructor
  · intro timely
    generalize whole : before ++ [action] = actions at timely
    cases timely with
    | reload _ timed =>
      obtain ⟨rfl, -⟩ := append_singleton_inj.mp whole
      exact timed
    | later _ other =>
      obtain ⟨rfl, rfl⟩ := append_singleton_inj.mp whole
      exact absurd reloads other
  · intro timed
    obtain ⟨rfl, -⟩ := id reloads
    exact .reload reloads timed

theorem timely_concat_iff_of_not_reloads
    (other : ¬ (({} : TestManager).run before).Reloads action rid) :
    Timely (before ++ [action]) rid ↔ Timely before rid := by
  constructor
  · intro timely
    generalize whole : before ++ [action] = actions at timely
    cases timely with
    | reload reloads _ =>
      obtain ⟨rfl, rfl⟩ := append_singleton_inj.mp whole
      exact absurd reloads other
    | later timely _ =>
      obtain ⟨rfl, -⟩ := append_singleton_inj.mp whole
      exact timely
  · exact fun timely => .later timely other

end TestManager

/-- A run that has not started has no time, and one that is running has one. -/
def Run.Dated (run : Run) : Prop :=
  (run.status = .pending → run.startedAt = none) ∧
    (run.status = .running → run.startedAt.isSome = true)

theorem Run.Dated.isSome_iff {run : Run} (dated : run.Dated)
    (unfinished : run.status.terminal = false) :
    run.startedAt.isSome = true ↔ run.status = .running := by
  obtain ⟨pending, running⟩ := dated
  cases same : run.status with
  | pending => simp [pending same]
  | running => simp [running same]
  | completed | failed | cancelled =>
    rw [same] at unfinished
    cases unfinished

theorem Run.dated_of_terminal {run : Run} (ended : run.status.terminal = true) : run.Dated := by
  constructor
  all_goals
    intro same
    rw [same] at ended
    cases ended

namespace TestManager

variable {m : TestManager} {before : List Action} {action : Action} {rid : String}

/-- All copies of runs have a time if they are running and none if they have not started. -/
structure Dated (m : TestManager) : Prop where
  stored : ∀ rid run, m.stored rid = some run → run.Dated
  loaded : ∀ call rid run, m.cancelling call = .loaded rid run →
    run.Dated ∧ run.status.terminal = false
  decided : ∀ rid run, m.execution rid = .decided run → run.status.terminal = true

theorem Writes.dated (dated : m.Dated) {run : Run} (writes : m.Writes action rid run) :
    run.Dated := by
  cases writes with
  | create => exact ⟨fun _ => rfl, by simp⟩
  | running => exact ⟨by simp, fun _ => rfl⟩
  | final phase => exact Run.dated_of_terminal (dated.decided _ _ phase)
  | cancel => exact Run.dated_of_terminal rfl

theorem stored_step_cases {run : Run} (stored : (m.step action).stored rid = some run) :
    m.Writes action rid run ∨ m.stored rid = some run ∧ ∀ run, ¬ m.Writes action rid run := by
  rw [stored_step] at stored
  cases written : m.written action with
  | none =>
    rw [written] at stored
    refine Or.inr ⟨stored, fun run writes => ?_⟩
    rw [written_eq_some_iff.mpr writes] at written
    cases written
  | some entry =>
    obtain ⟨there, run'⟩ := entry
    have writes := written_eq_some_iff.mp written
    rw [written, put] at stored
    by_cases here : rid = there
    · subst here
      rw [Function.update_self] at stored
      cases stored
      exact Or.inl writes
    · rw [Function.update_of_ne here] at stored
      refine Or.inr ⟨stored, fun run other => here ?_⟩
      rw [written_eq_some_iff.mpr other] at written
      exact congrArg Prod.fst (Option.some.inj written)

theorem Dated.step (dated : m.Dated) (action : Action) : (m.step action).Dated where
  stored rid run stored := by
    rcases stored_step_cases stored with writes | ⟨stored, -⟩
    · exact writes.dated dated
    · exact dated.stored rid run stored
  loaded call rid run loaded := by
    rcases m.cancelling_cases action call with same | proceeds
    · exact dated.loaded call rid run (same.symm.trans loaded)
    · rw [loaded] at proceeds
      cases proceeds with
      | load _ found unfinished => exact ⟨dated.stored _ _ found, unfinished⟩
  decided rid run phase := by
    rcases m.progresses_step action rid with same | advances
    · exact dated.decided rid run (same.symm.trans phase)
    · rw [phase] at advances
      cases advances with
      | @decide _ _ failed _ =>
        simp only [finalStatus]
        split_ifs <;> rfl

variable (actions : List Action)

theorem dated_run : (({} : TestManager).run actions).Dated := by
  refine foldlRecOn actions act ⟨?_, ?_, ?_⟩ fun m dated action _ => ?_
  · intro rid run stored
    cases stored
  · intro call rid run loaded
    cases loaded
  · intro rid run phase
    cases phase
  · cases alive : m.panicked with
    | true => rwa [act_of_panicked alive]
    | false =>
      rw [act_of_not_panicked alive]
      exact dated.step action

theorem alive_of_concat (alive : (({} : TestManager).run (before ++ [action])).panicked = false) :
    (({} : TestManager).run before).panicked = false := by
  cases gone : (({} : TestManager).run before).panicked with
  | false => rfl
  | true =>
    rw [run_concat, act_of_panicked gone, gone] at alive
    cases alive

theorem stored_timed_iff (alive : (({} : TestManager).run actions).panicked = false) {run : Run}
    (busy : ((({} : TestManager).run actions).execution rid).over = false)
    (stored : (({} : TestManager).run actions).stored rid = some run) :
    run.startedAt.isSome = true ↔ Timed actions rid := by
  induction actions using reverseRecOn generalizing run with
  | nil => cases stored
  | append_singleton before action ih =>
    have earlier := alive_of_concat alive
    rw [run_concat, act_of_not_panicked earlier] at busy stored
    rw [timed_concat_iff]
    rcases stored_step_cases stored with writes | ⟨stored, other⟩
    · cases writes with
      | create fresh =>
        refine iff_of_false (by simp) ?_
        rintro (⟨run, now, same, -⟩ | ⟨call, run, same, -⟩ | ⟨-, other⟩)
        · cases same
        · cases same
        · exact other _ (.create fresh)
      | running phase => exact iff_of_true rfl (Or.inl ⟨_, _, rfl, phase⟩)
      | final phase => simp [step, saveFinal, phase, setExecution, Execution.over] at busy
      | @cancel call _ found phase =>
        obtain ⟨dated, unfinished⟩ := (dated_run before).loaded _ _ _ phase
        refine (dated.isSome_iff unfinished).trans ⟨fun running => ?_, ?_⟩
        · exact Or.inr (Or.inl ⟨_, _, rfl, phase, running⟩)
        · rintro (⟨run, now, same, -⟩ | ⟨call', run, same, phase', running⟩ | ⟨-, other⟩)
          · cases same
          · cases same
            rw [phase] at phase'
            cases phase'
            exact running
          · exact absurd (Writes.cancel phase) (other _)
    · have unfinished : ((({} : TestManager).run before).execution rid).over = false := by
        by_contra ended
        rw [Bool.not_eq_false] at ended
        rw [over_step action ended] at busy
        cases busy
      rw [ih earlier unfinished stored]
      constructor
      · exact fun timed => Or.inr (Or.inr ⟨timed, other⟩)
      · rintro (⟨run, now, rfl, phase⟩ | ⟨call, run, rfl, phase, -⟩ | ⟨timed, -⟩)
        · exact absurd (Writes.running phase) (other _)
        · exact absurd (Writes.cancel phase) (other _)
        · exact timed

theorem reloaded_timely_iff (alive : (({} : TestManager).run actions).panicked = false)
    {run : Run} {failed : Bool}
    (phase : (({} : TestManager).run actions).execution rid = .reloaded run failed) :
    run.startedAt.isSome = true ↔ Timely actions rid := by
  induction actions using reverseRecOn with
  | nil => cases phase
  | append_singleton before action ih =>
    have earlier := alive_of_concat alive
    rw [run_concat, act_of_not_panicked earlier] at phase
    rcases TestManager.progresses_step _ action rid with same | advances
    · have before := same.symm.trans phase
      rw [timely_concat_iff_of_not_reloads]
      · exact ih earlier before
      · rintro ⟨-, failed, executed⟩
        rw [before] at executed
        cases executed
    · rw [phase] at advances
      cases advances with
      | reload executed found =>
        rw [timely_concat_iff_of_reloads ⟨rfl, failed, executed⟩]
        exact stored_timed_iff before earlier (by rw [executed]; rfl) found

def Computes (m : TestManager) (rid : String) (run : Run) : Prop :=
  m.panicked = false ∧ ∃ failed, m.execution rid = .reloaded run failed

/-- The time at which a run started is known whenever it is needed exactly if each time the run was
stored in time. -/
theorem start_known_iff (actions : List Action) :
    (∀ before rid run, before ++ [.decideStatus rid] <+: actions →
      (({} : TestManager).run before).Computes rid run → run.startedAt.isSome = true) ↔
      ∀ before rid run, before ++ [.decideStatus rid] <+: actions →
        (({} : TestManager).run before).Computes rid run → Timely before rid := by
  have agree {before : List Action} {rid : String} {run : Run}
      (computes : (({} : TestManager).run before).Computes rid run) :
      run.startedAt.isSome = true ↔ Timely before rid := by
    obtain ⟨alive, failed, phase⟩ := computes
    exact reloaded_timely_iff before alive phase
  constructor
  · exact fun known before rid run inside computes =>
      (agree computes).mp (known before rid run inside computes)
  · exact fun timely before rid run inside computes =>
      (agree computes).mpr (timely before rid run inside computes)

/-- The process is gone after a write that failed, and after a call that stored the run as it was
before the start. -/
theorem start_missing :
    let failing : List Action :=
      [.createRun "p" "t" "r", .launchRun "r", .loadRun "r" true, .saveRunning "r" false 0,
        .execute "r" false, .reloadRun "r" true, .decideStatus "r"]
    let stale : List Action :=
      [.createRun "p" "t" "r", .launchRun "r", .signalCancel 0 "p" "t" "r", .loadCancel 0 true,
        .loadRun "r" true, .saveRunning "r" true 0, .saveCancel 0 true, .execute "r" false,
        .reloadRun "r" true, .decideStatus "r"]
    (({} : TestManager).run (failing.take 6)).Computes "r" { status := .pending } ∧
      (({} : TestManager).run (stale.take 9)).Computes "r" { status := .cancelled } ∧
      (({} : TestManager).run failing).panicked = true ∧
        (({} : TestManager).run stale).panicked = true :=
  ⟨⟨by decide, false, by decide⟩, ⟨by decide, false, by decide⟩, by decide, by decide⟩

end TestManager

end OpenThesis.Api
