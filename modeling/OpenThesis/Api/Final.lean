import OpenThesis.Api.TestManager

/-!
# Runs that are over

A run that is over should stay so, but neither its goroutine nor a call that cancels it looks at the
stored status when it writes.
-/

namespace OpenThesis.Api

def Execution.over : Execution → Bool
  | leaving | returned => true
  | _ => false

namespace TestManager

variable {m : TestManager}

def status (m : TestManager) (rid : String) : Option RunStatus :=
  (m.stored rid).map Run.status

def written (m : TestManager) : Action → Option (String × Run)
  | .createRun _ _ rid =>
    if (m.stored rid).isSome then none else some (rid, { status := .pending })
  | .saveRunning rid true now =>
    match m.execution rid with
    | .loaded run => some (rid, { run with status := .running, startedAt := some now })
    | _ => none
  | .saveFinal rid true =>
    match m.execution rid with
    | .decided run => some (rid, run)
    | _ => none
  | .saveCancel call true =>
    match m.cancelling call with
    | .loaded rid run => some (rid, { run with status := .cancelled })
    | _ => none
  | _ => none

def put (stored : String → Option Run) : Option (String × Run) → String → Option Run
  | none => stored
  | some (rid, run) => Function.update stored rid (some run)

theorem stored_step (m : TestManager) (action : Action) :
    (m.step action).stored = put m.stored (m.written action) := by
  cases action with
  | startTest call pid tid =>
    rcases m.step_startTest call pid tid with same | ⟨-, -, same⟩ <;> rw [same] <;> rfl
  | saveTest call ok =>
    simp only [step, saveTest]
    split
    · rfl
    · split <;> rfl
  | stopTest => rfl
  | createRun pid tid rid =>
    simp only [step, createRun, written]
    split <;> rfl
  | launchRun rid =>
    simp only [step, launchRun]
    split <;> rfl
  | loadRun rid ok =>
    simp only [step, loadRun]
    split
    · split <;> rfl
    · rfl
  | saveRunning rid ok now =>
    cases ok <;> simp only [step, saveRunning, written] <;> cases m.execution rid <;> rfl
  | execute rid failed =>
    simp only [step, execute]
    split <;> rfl
  | reloadRun rid ok =>
    simp only [step, reloadRun]
    split
    · split <;> rfl
    · rfl
  | decideStatus rid =>
    simp only [step, decideStatus]
    split
    · split <;> rfl
    · rfl
  | saveFinal rid ok =>
    cases ok <;> simp only [step, saveFinal, written] <;> cases m.execution rid <;> rfl
  | leave rid =>
    simp only [step, leave]
    split <;> rfl
  | signalCancel call pid tid rid =>
    simp only [step, signalCancel]
    split
    · split <;> rfl
    · rfl
  | loadCancel call ok =>
    simp only [step, loadCancel]
    split
    · split
      · rfl
      · split <;> rfl
    · rfl
  | saveCancel call ok =>
    cases ok <;> simp only [step, saveCancel, written] <;> cases m.cancelling call <;> rfl

inductive Advances (m : TestManager) : Action → String → Execution → Prop
  | launch {rid : String} (fresh : m.execution rid = .notLaunched) :
      Advances m (.launchRun rid) rid .launched
  | load {rid : String} {run : Run} (phase : m.execution rid = .launched)
      (found : m.stored rid = some run) : Advances m (.loadRun rid true) rid (.loaded run)
  | loadFails {rid : String} {ok : Bool} (phase : m.execution rid = .launched) :
      Advances m (.loadRun rid ok) rid .leaving
  | running {rid : String} {run : Run} {ok : Bool} {now : Nat}
      (phase : m.execution rid = .loaded run) : Advances m (.saveRunning rid ok now) rid .executing
  | execute {rid : String} {failed : Bool} (phase : m.execution rid = .executing) :
      Advances m (.execute rid failed) rid (.executed failed)
  | reload {rid : String} {run : Run} {failed : Bool} (phase : m.execution rid = .executed failed)
      (found : m.stored rid = some run) :
      Advances m (.reloadRun rid true) rid (.reloaded run failed)
  | reloadFails {rid : String} {ok failed : Bool} (phase : m.execution rid = .executed failed) :
      Advances m (.reloadRun rid ok) rid .leaving
  | decide {rid : String} {run : Run} {failed : Bool}
      (phase : m.execution rid = .reloaded run failed) :
      Advances m (.decideStatus rid) rid
        (.decided { run with status := finalStatus (m.contextDone rid) failed })
  | final {rid : String} {run : Run} {ok : Bool} (phase : m.execution rid = .decided run) :
      Advances m (.saveFinal rid ok) rid .leaving
  | leave {rid : String} (phase : m.execution rid = .leaving) :
      Advances m (.leave rid) rid .returned

variable {action : Action} {rid : String}

theorem execution_setExecution {m' : TestManager} (same : m'.execution = m.execution)
    {there : String} {next : Execution} (advances : m.Advances action there next) (rid : String) :
    (m'.setExecution there next).execution rid = m.execution rid ∨
      m.Advances action rid ((m'.setExecution there next).execution rid) := by
  by_cases here : rid = there
  · subst here
    right
    simpa [setExecution] using advances
  · left
    simp [setExecution, here, same]

@[simp]
theorem execution_saveRun (m : TestManager) (rid : String) (run : Run) (ok : Bool) :
    (m.saveRun rid run ok).execution = m.execution := by
  cases ok <;> rfl

/-- The step leaves a run in its phase, or advances it. -/
def Progresses (m : TestManager) (action : Action) (rid : String) : Prop :=
  (m.step action).execution rid = m.execution rid ∨
    m.Advances action rid ((m.step action).execution rid)

theorem progresses_loadRun (there : String) (ok : Bool) (rid : String) :
    m.Progresses (.loadRun there ok) rid := by
  simp only [Progresses, step, loadRun]
  split
  next phase =>
    cases ok with
    | false => exact execution_setExecution rfl (.loadFails phase) rid
    | true =>
      cases found : m.stored there with
      | none => simpa [found] using execution_setExecution rfl (.loadFails phase) rid
      | some run => simpa [found] using execution_setExecution rfl (.load phase found) rid
  · exact Or.inl rfl

theorem progresses_reloadRun (there : String) (ok : Bool) (rid : String) :
    m.Progresses (.reloadRun there ok) rid := by
  simp only [Progresses, step, reloadRun]
  split
  next failed phase =>
    cases ok with
    | false => exact execution_setExecution rfl (.reloadFails phase) rid
    | true =>
      cases found : m.stored there with
      | none => simpa [found] using execution_setExecution rfl (.reloadFails phase) rid
      | some run => simpa [found] using execution_setExecution rfl (.reload phase found) rid
  · exact Or.inl rfl

theorem progresses_decideStatus (there rid : String) : m.Progresses (.decideStatus there) rid := by
  simp only [Progresses, step, decideStatus]
  split
  next phase =>
    split
    · exact Or.inl rfl
    · exact execution_setExecution rfl (.decide phase) rid
  · exact Or.inl rfl

theorem progresses_step (m : TestManager) (action : Action) (rid : String) :
    m.Progresses action rid := by
  rw [Progresses]
  cases action with
  | startTest call pid tid =>
    rcases m.step_startTest call pid tid with same | ⟨-, -, same⟩ <;> rw [same] <;>
      exact Or.inl rfl
  | saveTest | createRun | signalCancel | loadCancel =>
    left
    simp only [step, saveTest, createRun, signalCancel, loadCancel]
    repeat' split
    all_goals rfl
  | stopTest => exact Or.inl rfl
  | saveCancel call ok =>
    left
    simp only [step, saveCancel]
    split <;> simp [setCancelling]
  | launchRun there =>
    simp only [step, launchRun]
    split
    next fresh => exact execution_setExecution rfl (.launch fresh.2) rid
    · exact Or.inl rfl
  | loadRun there ok => exact progresses_loadRun there ok rid
  | saveRunning there ok now =>
    simp only [step, saveRunning]
    split
    next phase =>
      exact execution_setExecution (execution_saveRun _ _ _ _) (.running phase) rid
    · exact Or.inl rfl
  | execute there failed =>
    simp only [step, execute]
    split
    next phase => exact execution_setExecution rfl (.execute phase) rid
    · exact Or.inl rfl
  | reloadRun there ok => exact progresses_reloadRun there ok rid
  | decideStatus there => exact progresses_decideStatus there rid
  | saveFinal there ok =>
    simp only [step, saveFinal]
    split
    next phase => exact execution_setExecution (execution_saveRun _ _ _ _) (.final phase) rid
    · exact Or.inl rfl
  | leave there =>
    simp only [step, leave]
    split
    next phase => exact execution_setExecution rfl (.leave phase) rid
    · exact Or.inl rfl

theorem over_step (action : Action) (ended : (m.execution rid).over = true) :
    ((m.step action).execution rid).over = true := by
  rcases m.progresses_step action rid with same | advances
  · rwa [same]
  · generalize (m.step action).execution rid = next at advances
    cases advances with
    | loadFails | reloadFails | final | leave => rfl
    | launch phase | load phase | running phase | execute phase | reload phase | decide phase =>
      rw [phase] at ended
      cases ended

inductive Writes (m : TestManager) : Action → String → Run → Prop
  | create {pid tid rid : String} (fresh : m.stored rid = none) :
      Writes m (.createRun pid tid rid) rid { status := .pending }
  | running {rid : String} {run : Run} {now : Nat} (phase : m.execution rid = .loaded run) :
      Writes m (.saveRunning rid true now) rid
        { run with status := .running, startedAt := some now }
  | final {rid : String} {run : Run} (phase : m.execution rid = .decided run) :
      Writes m (.saveFinal rid true) rid run
  | cancel {call : Nat} {rid : String} {run : Run} (phase : m.cancelling call = .loaded rid run) :
      Writes m (.saveCancel call true) rid { run with status := .cancelled }

theorem written_eq_some_iff {run : Run} :
    m.written action = some (rid, run) ↔ m.Writes action rid run := by
  constructor
  · intro written
    unfold TestManager.written at written
    split at written
    · split at written
      · cases written
      next fresh =>
        cases written
        exact .create (Option.not_isSome_iff_eq_none.mp fresh)
    · split at written
      next phase =>
        cases written
        exact .running phase
      · cases written
    · split at written
      next phase =>
        cases written
        exact .final phase
      · cases written
    · split at written
      next phase =>
        cases written
        exact .cancel phase
      · cases written
    · cases written
  · rintro (fresh | phase | phase | phase)
    · simp [written, fresh]
    · simp [written, phase]
    · simp [written, phase]
    · simp [written, phase]

theorem Writes.status_step {run : Run} (writes : m.Writes action rid run) :
    (m.step action).status rid = some run.status := by
  rw [status, stored_step, written_eq_some_iff.mpr writes, put, Function.update_self,
    Option.map_some]

theorem status_step_of_not_writes (other : ∀ run, ¬ m.Writes action rid run) :
    (m.step action).status rid = m.status rid := by
  rw [status, stored_step]
  cases written : m.written action with
  | none => rfl
  | some entry =>
    obtain ⟨there, run⟩ := entry
    have ne : rid ≠ there := by
      rintro rfl
      exact other run (written_eq_some_iff.mp written)
    rw [put, Function.update_of_ne ne, status]

/-- A run is stored as completed or failed only by the last write of its goroutine. -/
def Ended (m : TestManager) : Prop :=
  ∀ rid, m.status rid = some .completed ∨ m.status rid = some .failed →
    (m.execution rid).over = true

theorem Ended.act (ended : m.Ended) (action : Action) : (m.act action).Ended := by
  cases alive : m.panicked with
  | true =>
    rw [act_of_panicked alive]
    exact ended
  | false =>
    rw [act_of_not_panicked alive]
    intro rid stored
    by_cases written : ∃ run, m.Writes action rid run
    · obtain ⟨run, writes⟩ := written
      rw [writes.status_step] at stored
      cases writes with
      | create | running | cancel => simp at stored
      | final phase => simp [step, saveFinal, phase, setExecution, Execution.over]
    · rw [status_step_of_not_writes (not_exists.mp written)] at stored
      exact over_step action (ended rid stored)

theorem Ended.cancelled_of_terminal (ended : m.Ended) {final : RunStatus}
    (busy : (m.execution rid).over = false) (stored : m.status rid = some final)
    (terminal : final.terminal = true) : final = .cancelled := by
  cases final with
  | pending | running => cases terminal
  | completed => exact absurd (ended rid (Or.inl stored)) (by simp [busy])
  | failed => exact absurd (ended rid (Or.inr stored)) (by simp [busy])
  | cancelled => rfl

def Action.cancels : Action → Bool
  | .signalCancel .. | .loadCancel .. | .saveCancel .. => true
  | _ => false

inductive Proceeds (m : TestManager) : Action → Nat → Cancelling → Prop
  | signal {call : Nat} {pid tid rid : String} (phase : m.cancelling call = .notCalled) :
      Proceeds m (.signalCancel call pid tid rid) call (.signalled (jobKey pid tid) rid)
  | load {call : Nat} {key rid : String} {run : Run}
      (phase : m.cancelling call = .signalled key rid)
      (found : m.stored rid = some run) (unfinished : run.status.terminal = false) :
      Proceeds m (.loadCancel call true) call (.loaded rid run)
  | refuse {call : Nat} {key rid : String} {ok : Bool}
      (phase : m.cancelling call = .signalled key rid) :
      Proceeds m (.loadCancel call ok) call .refused
  | save {call : Nat} {rid : String} {run : Run} (phase : m.cancelling call = .loaded rid run) :
      Proceeds m (.saveCancel call true) call (.succeeded rid)
  | saveFails {call : Nat} {rid : String} {run : Run}
      (phase : m.cancelling call = .loaded rid run) :
      Proceeds m (.saveCancel call false) call .refused

theorem cancelling_setCancelling {m' : TestManager} (same : m'.cancelling = m.cancelling)
    {there : Nat} {next : Cancelling} (proceeds : m.Proceeds action there next) (call : Nat) :
    (m'.setCancelling there next).cancelling call = m.cancelling call ∨
      m.Proceeds action call ((m'.setCancelling there next).cancelling call) := by
  by_cases here : call = there
  · subst here
    right
    simpa [setCancelling] using proceeds
  · left
    simp [setCancelling, here, same]

@[simp]
theorem cancelling_saveRun (m : TestManager) (rid : String) (run : Run) (ok : Bool) :
    (m.saveRun rid run ok).cancelling = m.cancelling := by
  cases ok <;> rfl

theorem cancelling_step (other : Action.cancels action = false) :
    (m.step action).cancelling = m.cancelling := by
  cases action with
  | signalCancel | loadCancel | saveCancel => cases other
  | startTest call pid tid =>
    rcases m.step_startTest call pid tid with same | ⟨-, -, same⟩ <;> rw [same]
  | stopTest => rfl
  | saveTest | createRun | launchRun | execute =>
    simp only [step, saveTest, createRun, launchRun, execute]
    repeat' split
    all_goals rfl
  | loadRun | reloadRun | decideStatus =>
    simp only [step, loadRun, reloadRun, decideStatus]
    repeat' split
    all_goals rfl
  | saveRunning | saveFinal | leave =>
    simp only [step, saveRunning, saveFinal, leave]
    split <;> simp [setExecution, forgetCancel]

theorem cancelling_cases (m : TestManager) (action : Action) (call : Nat) :
    (m.step action).cancelling call = m.cancelling call ∨
      m.Proceeds action call ((m.step action).cancelling call) := by
  cases action with
  | signalCancel there pid tid rid =>
    simp only [step, signalCancel]
    split
    next phase =>
      split <;> exact cancelling_setCancelling rfl (.signal phase) call
    · exact Or.inl rfl
  | loadCancel there ok =>
    simp only [step, loadCancel]
    split
    next key rid phase =>
      split
      · exact cancelling_setCancelling rfl (.refuse phase) call
      next run found =>
        split
        · exact cancelling_setCancelling rfl (.refuse phase) call
        next unfinished =>
          have loadable : ok = true ∧ m.testOf rid = key := by
            by_contra other
            simp [other] at found
          rw [if_pos loadable] at found
          obtain ⟨rfl, -⟩ := loadable
          exact cancelling_setCancelling rfl (.load phase found (by simpa using unfinished)) call
    · exact Or.inl rfl
  | saveCancel there ok =>
    simp only [step, saveCancel]
    split
    next rid run phase =>
      cases ok with
      | false => exact cancelling_setCancelling rfl (.saveFails phase) call
      | true => exact cancelling_setCancelling rfl (.save phase) call
    · exact Or.inl rfl
  | _ => exact Or.inl (congrFun (cancelling_step rfl) call)

theorem succeeded_step {call : Nat} (succeeded : (m.step action).cancelling call = .succeeded rid) :
    m.cancelling call = .succeeded rid ∨ (m.step action).status rid = some .cancelled := by
  rcases m.cancelling_cases action call with same | proceeds
  · exact Or.inl (same.symm.trans succeeded)
  · rw [succeeded] at proceeds
    cases proceeds with
    | save phase => exact Or.inr (Writes.cancel phase).status_step

/-- The step does not store a run that is cancelled as anything else or a run as running, and
cancels no run that has ended since the call looked. -/
def Undisturbed (m : TestManager) (action : Action) : Prop :=
  m.panicked = false →
    match action with
    | .saveRunning rid true _ =>
      ∀ run, m.execution rid = .loaded run → m.status rid ≠ some .cancelled
    | .saveFinal rid true =>
      ∀ run, m.execution rid = .decided run → m.status rid = some .cancelled →
        run.status = .cancelled
    | .saveCancel call true =>
      ∀ rid run, m.cancelling call = .loaded rid run →
        m.status rid ≠ some .completed ∧ m.status rid ≠ some .failed
    | _ => True

theorem Ended.keeps_iff (ended : m.Ended) (action : Action) :
    (∀ rid final, m.status rid = some final → final.terminal = true →
      (m.act action).status rid = some final) ↔ m.Undisturbed action := by
  cases alive : m.panicked with
  | true =>
    rw [act_of_panicked alive]
    exact iff_of_true (fun _ _ stored _ => stored) fun alive' => by simp [alive] at alive'
  | false =>
    rw [act_of_not_panicked alive]
    constructor
    · intro keeps _
      cases action with
      | saveRunning rid ok now =>
        cases ok with
        | false => trivial
        | true =>
          intro run phase cancelled
          have kept := keeps rid _ cancelled rfl
          rw [(Writes.running phase).status_step] at kept
          simp at kept
      | saveFinal rid ok =>
        cases ok with
        | false => trivial
        | true =>
          intro run phase cancelled
          have kept := keeps rid _ cancelled rfl
          rw [(Writes.final phase).status_step] at kept
          exact Option.some.inj kept
      | saveCancel call ok =>
        cases ok with
        | false => trivial
        | true =>
          intro rid run phase
          constructor
          all_goals
            intro other
            have kept := keeps rid _ other rfl
            rw [(Writes.cancel phase).status_step] at kept
            simp at kept
      | _ => trivial
    · intro undisturbed rid final stored terminal
      have undisturbed := undisturbed alive
      by_cases written : ∃ run, m.Writes action rid run
      · obtain ⟨run, writes⟩ := written
        rw [writes.status_step]
        cases writes with
        | create fresh => simp [status, fresh] at stored
        | running phase =>
          obtain rfl := ended.cancelled_of_terminal (by simp [phase, Execution.over]) stored
            terminal
          exact absurd stored (undisturbed _ phase)
        | final phase =>
          obtain rfl := ended.cancelled_of_terminal (by simp [phase, Execution.over]) stored
            terminal
          rw [undisturbed _ phase stored]
        | cancel phase =>
          obtain ⟨notCompleted, notFailed⟩ := undisturbed _ _ phase
          cases final with
          | pending | running => cases terminal
          | completed => exact absurd stored notCompleted
          | failed => exact absurd stored notFailed
          | cancelled => rfl
      · rw [status_step_of_not_writes (not_exists.mp written), stored]

/-- A status that is terminal stays, and the runs of all calls that succeeded are cancelled at the
end. -/
def Final (m : TestManager) (actions : List Action) : Prop :=
  (∀ earlier later rid final, earlier <+: later → later <+: actions →
    (m.run earlier).status rid = some final → final.terminal = true →
      (m.run later).status rid = some final) ∧
    ∀ call rid, (m.run actions).cancelling call = .succeeded rid →
      (m.run actions).status rid = some .cancelled

theorem ended_run (actions : List Action) : (({} : TestManager).run actions).Ended :=
  List.foldlRecOn actions act (fun _ stored => by simp [status] at stored)
    fun _ ended action _ => ended.act action

theorem run_concat (m : TestManager) (actions : List Action) (action : Action) :
    m.run (actions ++ [action]) = (m.run actions).act action :=
  List.foldl_concat ..

theorem cancelled_act (keeps : ∀ rid final, m.status rid = some final → final.terminal = true →
      (m.act action).status rid = some final)
    (cancelled : ∀ call rid, m.cancelling call = .succeeded rid →
      m.status rid = some .cancelled) {call : Nat}
    (succeeded : (m.act action).cancelling call = .succeeded rid) :
    (m.act action).status rid = some .cancelled := by
  cases alive : m.panicked with
  | true =>
    rw [act_of_panicked alive] at succeeded ⊢
    exact cancelled call rid succeeded
  | false =>
    rw [act_of_not_panicked alive] at succeeded
    rcases succeeded_step succeeded with before | now
    · exact keeps rid _ (cancelled call rid before) rfl
    · rw [act_of_not_panicked alive]
      exact now

/-- Terminal statuses are final exactly in the runs in which no step disturbs one. -/
theorem final_iff (actions : List Action) :
    ({} : TestManager).Final actions ↔
      ∀ before action, before ++ [action] <+: actions →
        (({} : TestManager).run before).Undisturbed action := by
  constructor
  · intro final before action inside
    rw [← (ended_run before).keeps_iff action, ← run_concat]
    intro rid status stored terminal
    exact final.1 before (before ++ [action]) rid status (List.prefix_append _ _) inside stored
      terminal
  · intro undisturbed
    have keeps (before : List Action) (action : Action) (inside : before ++ [action] <+: actions) :=
      ((ended_run before).keeps_iff action).mpr (undisturbed before action inside)
    constructor
    · rintro earlier later rid final ⟨rest, rfl⟩ inside stored terminal
      induction rest using List.reverseRecOn with
      | nil => simpa using stored
      | append_singleton rest action ih =>
        rw [← List.append_assoc] at inside ⊢
        rw [run_concat]
        exact keeps _ action inside rid final (ih ((List.prefix_append _ _).trans inside)) terminal
    · refine Run.holds_of_conditions
        (motive := fun actions => ∀ call rid,
          (({} : TestManager).run actions).cancelling call = .succeeded rid →
            (({} : TestManager).run actions).status rid = some .cancelled)
        (fun call rid succeeded => by simp [run] at succeeded)
        (fun before action cancelled kept call rid succeeded => ?_) keeps
      rw [run_concat] at succeeded ⊢
      exact cancelled_act kept cancelled succeeded

/-- The run is completed after the call that cancels it has succeeded. -/
theorem completed_after_cancelled :
    let actions : List Action :=
      [.createRun "p" "t" "r", .launchRun "r", .loadRun "r" true, .saveRunning "r" true 0,
        .execute "r" false, .reloadRun "r" true, .decideStatus "r", .signalCancel 0 "p" "t" "r",
        .loadCancel 0 true, .saveCancel 0 true, .saveFinal "r" true]
    let final := ({} : TestManager).run actions
    (({} : TestManager).run (actions.take 10)).status "r" = some .cancelled ∧
      final.cancelling 0 = .succeeded "r" ∧ final.status "r" = some .completed ∧
        ¬ ({} : TestManager).Final actions := by
  refine ⟨by decide, by decide, by decide, fun final => ?_⟩
  have cancelled := final.2 0 "r" (by decide)
  revert cancelled
  decide

end TestManager

end OpenThesis.Api
