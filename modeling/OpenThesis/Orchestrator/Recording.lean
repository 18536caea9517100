import OpenThesis.Orchestrator.Pool

/-!
# Recording from many workers

Workers draw step numbers in one order and record their faults in another.
-/

namespace OpenThesis.Orchestrator.VMPool

open Fault List

universe u

variable {W : Type u} [DecidableEq W]

def recorded (p : VMPool W) (w : W) : WorkerAction → List ScheduleEntry
  | .hit kind target targetB params =>
    if (p.workers w).bursting then [(p.workers w).entry kind target targetB params] else []
  | _ => []

def RecordsInOrder (p : VMPool W) (w : W) : WorkerAction → Prop
  | .hit .. => (p.workers w).bursting = true →
      ∀ e ∈ p.faultSchedule.entries, e.step ≤ (p.workers w).stepHint
  | _ => True

instance (p : VMPool W) (w : W) : (action : WorkerAction) → Decidable (p.RecordsInOrder w action)
  | .hit .. => inferInstanceAs (Decidable ((p.workers w).bursting = true →
      ∀ e ∈ p.faultSchedule.entries, e.step ≤ (p.workers w).stepHint))
  | .setupRootSnapshot .. | .takeStep | .restoreVM .. | .runForInstructions .. |
    .childSnapshot .. | .runGC .. => inferInstanceAs (Decidable True)

def RunsInOrder (maxDepth : UInt32) (p : VMPool W) : List (W × WorkerAction) → Prop
  | [] => True
  | (w, action) :: actions =>
    p.RecordsInOrder w action ∧ (p.act maxDepth w action).RunsInOrder maxDepth actions

instance decidableRunsInOrder (maxDepth : UInt32) (p : VMPool W) :
    (actions : List (W × WorkerAction)) → Decidable (p.RunsInOrder maxDepth actions)
  | [] => inferInstanceAs (Decidable True)
  | (w, action) :: actions =>
    have := decidableRunsInOrder maxDepth (p.act maxDepth w action) actions
    inferInstanceAs (Decidable (p.RecordsInOrder w action ∧
      (p.act maxDepth w action).RunsInOrder maxDepth actions))

section

variable {p : VMPool W} (recording : p.faultSchedule.replay = false) (maxDepth : UInt32)

include recording maxDepth

theorem act_faultSchedule (w : W) (action : WorkerAction) :
    (p.act maxDepth w action).faultSchedule =
      { p.faultSchedule with entries := p.faultSchedule.entries ++ p.recorded w action } := by
  cases action with
  | hit kind target targetB params =>
    by_cases bursting : (p.workers w).bursting = true
    · simp only [act, recorded, bursting, if_true]
      exact Schedule.record_of_recording recording _
    · simp only [act, recorded, bursting, Bool.false_eq_true, if_false, append_nil]
  | childSnapshot childHypID coverage rngState =>
    by_cases bursting : (p.workers w).bursting = true
    · simp only [act, recorded, bursting, if_true, append_nil]
      rfl
    · simp only [act, recorded, bursting, Bool.false_eq_true, if_false, append_nil]
  | _ =>
    simp only [act, recorded, append_nil]
    rfl

theorem act_stepSorted_iff (w : W) (action : WorkerAction) :
    StepSorted (p.act maxDepth w action).faultSchedule.entries ↔
      StepSorted p.faultSchedule.entries ∧ p.RecordsInOrder w action := by
  rw [act_faultSchedule recording, StepSorted, pairwise_append]
  cases action with
  | hit kind target targetB params =>
    by_cases bursting : (p.workers w).bursting = true
    · simp only [recorded, bursting, if_true, RecordsInOrder, StepSorted, PoolWorker.entry,
        pairwise_singleton, mem_singleton, forall_eq, true_and, true_implies]
    · simp only [recorded, bursting, Bool.false_eq_true, if_false, RecordsInOrder, StepSorted,
        Pairwise.nil, not_mem_nil, false_implies, implies_true, and_true]
  | _ =>
    simp only [recorded, RecordsInOrder, StepSorted, Pairwise.nil, not_mem_nil,
      false_implies, implies_true, and_true]

theorem run_stepSorted_iff (actions : List (W × WorkerAction)) :
    StepSorted (p.run maxDepth actions).faultSchedule.entries ↔
      StepSorted p.faultSchedule.entries ∧ p.RunsInOrder maxDepth actions := by
  induction actions generalizing p with
  | nil => simp only [run_nil, RunsInOrder, and_true]
  | cons step actions ih =>
    rcases step with ⟨w, action⟩
    have recording' : (p.act maxDepth w action).faultSchedule.replay = false := by
      rw [act_faultSchedule recording]
      exact recording
    rw [run_cons, ih recording', act_stepSorted_iff recording, RunsInOrder, and_assoc]

end

/-- The saved schedule is replayed completely, every entry once and at its own step, exactly when no
worker recorded a fault after a fault of a later step. -/
theorem replays_all_iff_in_order (maxDepth : UInt32) (actions : List (W × WorkerAction))
    (last : Nat)
    (covered : ∀ e ∈ (run maxDepth ({} : VMPool W) actions).faultSchedule.entries, e.step ≤ last) :
    (∃ answers, (run maxDepth ({} : VMPool W) actions).faultSchedule.replayed last = .ok answers ∧
      ReplaysAll ((run maxDepth ({} : VMPool W) actions).faultSchedule.entries.map (·.reload))
        answers) ↔
      RunsInOrder maxDepth ({} : VMPool W) actions := by
  rw [Schedule.replays_iff_sorted covered, run_stepSorted_iff rfl]
  exact and_iff_right Pairwise.nil

def bothStarted : List (Bool × WorkerAction) :=
  [(false, .setupRootSnapshot 10 0 0), (true, .setupRootSnapshot 20 0 0),
   (false, .takeStep), (true, .takeStep),
   (false, .restoreVM 1 true), (true, .restoreVM 1 true)]

/-- The worker of step 2 records its fault first: the fault of step 1 is then
never replayed. -/
theorem replay_loses_overtaken_fault :
    let s := (run 5 ({} : VMPool Bool) (bothStarted ++
      [(true, .hit .hang "db" "" []), (false, .hit .hang "db" "" [])])).faultSchedule
    s.entries.map (·.step) = [2, 1] ∧
      (s.replayed 2).map (·.map (·.map (·.step))) = .ok [[], [], [2]] ∧
      ¬ ∃ answers, s.replayed 2 = .ok answers ∧
        ReplaysAll (s.entries.map (·.reload)) answers := by
  intro s
  have covered : ∀ e ∈ s.entries, e.step ≤ 2 := by decide
  rw [Schedule.replays_iff_sorted covered, Schedule.replayed_eq]
  exact ⟨by decide, by rfl, by decide⟩

theorem replays_all_in_turn :
    let s := (run 5 ({} : VMPool Bool) (bothStarted ++
      [(false, .hit .hang "db" "" []), (true, .hit .hang "db" "" [])])).faultSchedule
    ∃ answers, s.replayed 2 = .ok answers ∧ ReplaysAll (s.entries.map (·.reload)) answers :=
  (replays_all_iff_in_order 5 _ 2 (by decide)).mpr (by decide)

end OpenThesis.Orchestrator.VMPool
