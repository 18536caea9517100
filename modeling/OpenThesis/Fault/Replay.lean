import OpenThesis.Fault.Schedule

/-!
# Replaying a schedule step by step

The cursor of a schedule only moves forward, so replay returns all entries exactly when the order of
recording and that of the steps agree.
-/

namespace OpenThesis.Fault

open List

def StepSorted (entries : List ScheduleEntry) : Prop :=
  entries.Pairwise fun first second => first.step ≤ second.step

instance (entries : List ScheduleEntry) : Decidable (StepSorted entries) :=
  inferInstanceAs (Decidable (entries.Pairwise fun first second => first.step ≤ second.step))

def Schedule.answers (s : Schedule) : List Nat → List (List ScheduleEntry)
  | [] => []
  | step :: steps => (s.faultsAt step).1 :: (s.faultsAt step).2.answers steps

def passed (step : Nat) (entries : List ScheduleEntry) : List ScheduleEntry :=
  entries.takeWhile fun e => e.step ≤ step

def ahead (step : Nat) (entries : List ScheduleEntry) : List ScheduleEntry :=
  entries.dropWhile fun e => e.step ≤ step

def atStep (step : Nat) (entries : List ScheduleEntry) : List ScheduleEntry :=
  entries.filter fun e => e.step = step

theorem atStep_append (step : Nat) (entries more : List ScheduleEntry) :
    atStep step (entries ++ more) = atStep step entries ++ atStep step more :=
  filter_append _ _

theorem atStep_eq_nil {step : Nat} {entries : List ScheduleEntry}
    (others : ∀ e ∈ entries, e.step ≠ step) : atStep step entries = [] := by
  apply filter_eq_nil_iff.mpr
  intro e member
  simpa using others e member

theorem atStep_eq_self {step : Nat} {entries : List ScheduleEntry}
    (all : ∀ e ∈ entries, e.step = step) : atStep step entries = entries := by
  apply filter_eq_self.mpr
  intro e member
  simpa using all e member

theorem passed_append_ahead (step : Nat) (entries : List ScheduleEntry) :
    passed step entries ++ ahead step entries = entries :=
  takeWhile_append_dropWhile

theorem drop_passed (step : Nat) (entries : List ScheduleEntry) :
    entries.drop (passed step entries).length = ahead step entries := by
  have dropped : (passed step entries ++ ahead step entries).drop
      (passed step entries).length = ahead step entries := drop_left
  rw [passed_append_ahead] at dropped
  exact dropped

theorem dueFrom_eq (step : Nat) (entries : List ScheduleEntry) :
    dueFrom step entries = (atStep step (passed step entries), (passed step entries).length) := by
  induction entries with
  | nil => rfl
  | cons e rest ih =>
    by_cases later : e.step > step
    · have notYet : ¬ e.step ≤ step := Nat.not_le.mpr later
      simp [dueFrom, later, passed, atStep, notYet]
    · have now : e.step ≤ step := Nat.le_of_not_lt later
      by_cases due : e.step = step
      · simp [dueFrom, ih, passed, atStep, due]
      · simp [dueFrom, ih, later, passed, atStep, due, now]

def answersFrom : List ScheduleEntry → List Nat → List (List ScheduleEntry)
  | _, [] => []
  | entries, step :: steps =>
    atStep step (passed step entries) :: answersFrom (ahead step entries) steps

theorem Schedule.answers_eq {s : Schedule} (replaying : s.replay = true) (steps : List Nat) :
    s.answers steps = answersFrom (s.entries.drop s.cursor) steps := by
  induction steps generalizing s with
  | nil => rfl
  | cons step steps ih =>
    simp only [answers, answersFrom, faultsAt, replaying, if_true, dueFrom_eq]
    rw [ih rfl, ← drop_drop, drop_passed]

theorem answersFrom_sublist (entries : List ScheduleEntry) (steps : List Nat) :
    (answersFrom entries steps).flatten.Sublist entries := by
  induction steps generalizing entries with
  | nil => exact nil_sublist _
  | cons step steps ih =>
    have now : (atStep step (passed step entries)).Sublist (passed step entries) :=
      filter_sublist
    have joined := now.append (ih (ahead step entries))
    rw [passed_append_ahead] at joined
    exact joined

variable {steps : List Nat}

theorem step_of_mem_answersFrom {entries : List ScheduleEntry} {k : Nat}
    {answer : List ScheduleEntry} (called : (answersFrom entries steps)[k]? = some answer)
    {e : ScheduleEntry} (returned : e ∈ answer) : steps[k]? = some e.step := by
  induction steps generalizing entries k with
  | nil => simp [answersFrom] at called
  | cons step steps ih =>
    cases k with
    | zero =>
      simp only [answersFrom, List.getElem?_cons_zero, Option.some.injEq] at called
      rw [← called, atStep, mem_filter, decide_eq_true_eq] at returned
      rw [List.getElem?_cons_zero, returned.2]
    | succ k =>
      simp only [answersFrom, List.getElem?_cons_succ] at called
      rw [List.getElem?_cons_succ]
      exact ih called

theorem step_mem_of_mem_flatten {entries : List ScheduleEntry} {e : ScheduleEntry}
    (returned : e ∈ (answersFrom entries steps).flatten) : e.step ∈ steps := by
  rcases mem_flatten.mp returned with ⟨answer, member, inside⟩
  rcases List.getElem?_of_mem member with ⟨k, called⟩
  exact mem_of_getElem? (step_of_mem_answersFrom called inside)

theorem stepSorted_answersFrom (entries : List ScheduleEntry)
    (increasing : steps.Pairwise (· < ·)) : StepSorted (answersFrom entries steps).flatten := by
  induction steps generalizing entries with
  | nil => exact Pairwise.nil
  | cons step steps ih =>
    rcases pairwise_cons.mp increasing with ⟨below, rest⟩
    simp only [answersFrom, flatten_cons, StepSorted]
    apply pairwise_append.mpr
    refine ⟨?_, ih _ rest, ?_⟩
    · apply pairwise_of_forall_mem_list
      intro first firstMem second secondMem
      have firstStep := (mem_filter.mp firstMem).2
      have secondStep := (mem_filter.mp secondMem).2
      simp only [decide_eq_true_eq] at firstStep secondStep
      rw [firstStep, secondStep]
    · intro first firstMem second secondMem
      have firstStep := (mem_filter.mp firstMem).2
      simp only [decide_eq_true_eq] at firstStep
      rw [firstStep]
      exact Nat.le_of_lt (below _ (step_mem_of_mem_flatten secondMem))

section

variable {entries : List ScheduleEntry} {step : Nat}

theorem StepSorted.ahead_gt (sorted : StepSorted entries) (step : Nat) :
    ∀ e ∈ ahead step entries, step < e.step := by
  induction entries with
  | nil => simp [ahead]
  | cons first rest ih =>
    rcases pairwise_cons.mp sorted with ⟨smallest, restSorted⟩
    by_cases due : first.step ≤ step
    · simp only [ahead, dropWhile_cons, due, decide_true, if_true]
      exact ih restSorted
    · simp only [ahead, dropWhile_cons, due, decide_false, Bool.false_eq_true, if_false]
      intro e member
      rcases mem_cons.mp member with rfl | later
      · exact Nat.lt_of_not_le due
      · exact Nat.lt_of_lt_of_le (Nat.lt_of_not_le due) (smallest e later)

theorem StepSorted.sorted_ahead (sorted : StepSorted entries) (step : Nat) :
    StepSorted (ahead step entries) :=
  List.Pairwise.sublist (dropWhile_sublist _) sorted

theorem le_of_mem_passed {e : ScheduleEntry} (member : e ∈ passed step entries) :
    e.step ≤ step := by
  simpa using all_eq_true.mp all_takeWhile e member

theorem answersFrom_of_sorted (sorted : StepSorted entries) (first count : Nat)
    (above : ∀ e ∈ entries, first ≤ e.step) : answersFrom entries (range' first count) =
      (range' first count).map fun step => atStep step entries := by
  induction count generalizing entries first with
  | zero => rfl
  | succ count ih =>
    have later := sorted.ahead_gt first
    have split : ∀ step, atStep step entries =
        atStep step (passed first entries) ++ atStep step (ahead first entries) := by
      intro step
      rw [← atStep_append, passed_append_ahead]
    rw [List.range'_succ, map_cons, answersFrom]
    congr 1
    · rw [split first]
      have none : atStep first (ahead first entries) = [] :=
        atStep_eq_nil fun e member => Nat.ne_of_gt (later e member)
      rw [none, append_nil]
    · rw [ih (sorted.sorted_ahead first) (first + 1) later]
      apply map_congr_left
      intro step member
      have beyond : first < step := by
        have bounds := mem_range'_1.mp member
        omega
      rw [split step]
      have none : atStep step (passed first entries) = [] :=
        atStep_eq_nil fun e member =>
          Nat.ne_of_lt (Nat.lt_of_le_of_lt (le_of_mem_passed member) beyond)
      rw [none, nil_append]

theorem flatten_answersFrom (sorted : StepSorted entries) (first count : Nat)
    (above : ∀ e ∈ entries, first ≤ e.step) (below : ∀ e ∈ entries, e.step < first + count) :
    (answersFrom entries (range' first count)).flatten = entries := by
  induction count generalizing entries first with
  | zero =>
    have empty : entries = [] := by
      apply eq_nil_iff_forall_not_mem.mpr
      intro e member
      exact absurd (above e member) (Nat.not_le.mpr (below e member))
    rw [empty]
    rfl
  | succ count ih =>
    have whole : atStep first (passed first entries) = passed first entries := by
      apply atStep_eq_self
      intro e member
      have now := le_of_mem_passed member
      have start := above e ((takeWhile_sublist _).mem member)
      exact Nat.le_antisymm now start
    have rest := ih (sorted.sorted_ahead first) (first + 1) (sorted.ahead_gt first) (by
      intro e member
      have bound := below e ((dropWhile_sublist _).mem member)
      omega)
    rw [List.range'_succ, answersFrom, flatten_cons, whole, rest, passed_append_ahead]

end

/-- Every entry is returned exactly once, by the call for its step. -/
structure ReplaysAll (entries : List ScheduleEntry) (answers : List (List ScheduleEntry)) :
    Prop where
  once : answers.flatten.Perm entries
  ownStep : ∀ ⦃k : Nat⦄ ⦃answer : List ScheduleEntry⦄, answers[k]? = some answer →
    ∀ e ∈ answer, e.step = k

def Schedule.replayed (s : Schedule) (last : Nat) : Except String (List (List ScheduleEntry)) :=
  (newReplaySchedule s.save).map fun loaded => loaded.answers (range (last + 1))

theorem Schedule.replayed_eq (s : Schedule) (last : Nat) : s.replayed last =
      .ok (answersFrom (s.entries.map (·.reload)) (range (last + 1))) := by
  rw [replayed, newReplaySchedule_save, Except.map, answers_eq rfl, drop_zero]

theorem Schedule.exists_replayed_iff {s : Schedule} {last : Nat}
    {answers : List (List ScheduleEntry)} (replayed : s.replayed last = .ok answers)
    (p : List (List ScheduleEntry) → Prop) :
    (∃ given, s.replayed last = .ok given ∧ p given) ↔ p answers := by
  constructor
  · rintro ⟨given, same, holds⟩
    rw [replayed, Except.ok.injEq] at same
    rw [same]
    exact holds
  · intro holds
    exact ⟨answers, replayed, holds⟩

theorem forall_step_map_reload {entries : List ScheduleEntry} {p : Nat → Prop}
    (all : ∀ e ∈ entries, p e.step) : ∀ e ∈ entries.map (·.reload), p e.step :=
  forall_mem_map.mpr all

theorem stepSorted_map_reload (entries : List ScheduleEntry) :
    StepSorted (entries.map (·.reload)) ↔ StepSorted entries :=
  pairwise_map

theorem replaysAll_iff {entries : List ScheduleEntry} {last : Nat}
    (covered : ∀ e ∈ entries, e.step ≤ last) :
    ReplaysAll entries (answersFrom entries (range (last + 1))) ↔ StepSorted entries := by
  constructor
  · intro replays
    have sublist := answersFrom_sublist entries (range (last + 1))
    have whole := sublist.eq_of_length replays.once.length_eq
    rw [← whole]
    exact stepSorted_answersFrom entries pairwise_lt_range
  · intro sorted
    constructor
    · rw [range_eq_range', flatten_answersFrom sorted 0 (last + 1)]
      · exact fun e _ => Nat.zero_le e.step
      · intro e member
        rw [Nat.zero_add]
        exact Nat.lt_succ_of_le (covered e member)
    · intro k answer called e returned
      have asked := step_of_mem_answersFrom called returned
      rcases List.getElem?_eq_some_iff.mp asked with ⟨inside, stepEq⟩
      rw [List.getElem_range] at stepEq
      exact stepEq.symm

theorem Schedule.replays_iff_sorted {s : Schedule} {last : Nat}
    (covered : ∀ e ∈ s.entries, e.step ≤ last) :
    (∃ answers, s.replayed last = .ok answers ∧ ReplaysAll (s.entries.map (·.reload)) answers) ↔
      StepSorted s.entries := by
  have reloadCovered : ∀ e ∈ s.entries.map (·.reload), e.step ≤ last :=
    forall_step_map_reload (p := (· ≤ last)) covered
  rw [← stepSorted_map_reload, ← replaysAll_iff reloadCovered]
  exact exists_replayed_iff (s.replayed_eq last) _

end OpenThesis.Fault
