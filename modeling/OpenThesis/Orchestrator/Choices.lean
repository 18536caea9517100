import OpenThesis.Explorer.InputTree
import OpenThesis.Orchestrator.Pool
import OpenThesis.Slices.Core
import OpenThesis.Text.Digits

/-!
# Choices of the pool

The workers share one tracker of random choices (`internal/orchestrator/pool.go`). A worker collects
the choices of a burst in a slice that it uses again for the next one, and the tracker stores the
slice, not a copy. The list of what was stored is not in the program.
-/

namespace OpenThesis.Orchestrator

open SnapshotTree Explorer Slices List Function

universe u

/-- The choices of one burst. -/
structure Recording (W : Type u) where
  worker : W
  snapshotID : ID
  choices : List ChoiceEvent

/-- A recording with the cells that the tracker got for it. -/
structure Stored (W : Type u) extends Recording W where
  cells : List Nat

/-- Workers that record the choices in shared buffers. -/
structure ChoicePool (W : Type u) where
  pool : VMPool W := {}
  stepChoiceEvents : W → Reused ChoiceEvent := fun _ => .empty ⟨0, 0, ""⟩
  inputTree : InputTreeTracker (W × Nat) := newInputTreeTracker
  stored : List (Stored W) := []

/-- An action of a worker, with the choices of the burst that it ends. -/
structure ChoiceStep (W : Type u) where
  worker : W
  action : WorkerAction
  choices : List ChoiceEvent := []

def childTakenFrom (before after : PoolWorker) : WorkerAction → Option ID
  | .childSnapshot .. => if before.tree.nextID < after.tree.nextID then before.fe else none
  | _ => none

namespace ChoicePool

variable {W : Type u}

/-- What stands in a cell of a worker's memory. -/
def memory (p : ChoicePool W) (cell : W × Nat) : ChoiceEvent :=
  (p.stepChoiceEvents cell.1).memory cell.2

def recorded (p : ChoicePool W) : List (Recording W) :=
  p.stored.map (·.toRecording)

/-- The recordings as their cells read now. -/
def current (p : ChoicePool W) : List (Recording W) :=
  p.stored.map fun r =>
    { r.toRecording with choices := r.cells.map (p.stepChoiceEvents r.worker).memory }

def overrides (p : ChoicePool W) (snapshotID : ID) : List Int :=
  p.inputTree.nextOverrides p.memory (toString snapshotID)

variable [DecidableEq W]

/-- The slice of the worker is cut, and the choices are appended. -/
def collect (grow : Nat → Nat) (p : ChoicePool W) (s : ChoiceStep W) : ChoicePool W :=
  { p with
    stepChoiceEvents := update p.stepChoiceEvents s.worker
      ((p.stepChoiceEvents s.worker).fill grow s.choices) }

/-- The choices are collected before the action. A child that it takes is recorded. -/
def step (maxDepth : UInt32) (grow : Nat → Nat) (p : ChoicePool W) (s : ChoiceStep W) :
    ChoicePool W :=
  let p := p.collect grow s
  let pool := p.pool.act maxDepth s.worker s.action
  match childTakenFrom (p.pool.workers s.worker) (pool.workers s.worker) s.action with
  | none => { p with pool }
  | some snapshotID =>
    let cells := (p.stepChoiceEvents s.worker).cells
    let seq := newChoiceSequence p.memory (cells.map (s.worker, ·))
    { p with
      pool
      inputTree :=
        (p.inputTree.recordSequence seq).2.recordFromSnapshot (toString snapshotID) seq
      stored :=
        p.stored ++ [{ worker := s.worker, snapshotID, choices := s.choices, cells }] }

def run (maxDepth : UInt32) (grow : Nat → Nat) (p : ChoicePool W) (steps : List (ChoiceStep W)) :
    ChoicePool W :=
  steps.foldl (step maxDepth grow) p

end ChoicePool

section

variable {W : Type u}

/-- The sequences that are not empty, which are the ones that the tracker keeps. -/
def sequencesOf (recordings : List (Recording W)) : List (List ChoiceEvent) :=
  (recordings.map (·.choices)).filter (· ≠ [])

def recordedFrom (snapshotID : ID) (recordings : List (Recording W)) : List (Recording W) :=
  recordings.filter (·.snapshotID = snapshotID)

variable {recordings : List (Recording W)}

theorem sequencesOf_cons {r : Recording W} (nonempty : r.choices ≠ []) :
    sequencesOf (r :: recordings) = r.choices :: sequencesOf recordings := by
  simp [sequencesOf, nonempty]

variable [DecidableEq W]

def ownSequences (w : W) (recordings : List (Recording W)) : List (List ChoiceEvent) :=
  sequencesOf (recordings.filter (·.worker = w))

def concerning (w : W) (snapshotID : ID) (recordings : List (Recording W)) :
    List (Recording W) :=
  (recordedFrom snapshotID recordings).filter fun r => r.worker ≠ w ∨ r.choices ≠ []

/-- No other worker recorded anything, or the worker was first and tried everything itself. -/
def Undisturbed (w : W) (recordings : List (Recording W)) : Prop :=
  (∀ r ∈ recordings, r.worker = w) ∨
    recordings.head?.map (·.worker) = some w ∧ overridesFor (ownSequences w recordings) = []

variable {w : W} {snapshotID : ID}

theorem sequencesOf_concerning : sequencesOf (concerning w snapshotID recordings) =
      sequencesOf (recordedFrom snapshotID recordings) := by
  unfold sequencesOf concerning
  rw [filter_map, filter_map, filter_filter]
  congr 1
  apply filter_congr
  intro r _
  by_cases empty : r.choices = [] <;> simp [empty]

theorem ownSequences_concerning : ownSequences w (concerning w snapshotID recordings) =
      ownSequences w (recordedFrom snapshotID recordings) := by
  unfold ownSequences sequencesOf concerning
  rw [filter_map, filter_map, filter_filter, filter_filter, filter_filter]
  congr 1
  apply filter_congr
  intro r _
  by_cases empty : r.choices = [] <;> simp [empty]

theorem ownSequences_subset : ownSequences w recordings ⊆ sequencesOf recordings := by
  unfold ownSequences sequencesOf
  exact ((filter_sublist.map _).filter _).subset

theorem ownSequences_cons (r : Recording W) :
    ownSequences w (r :: recordings) =
      (if r.worker = w ∧ r.choices ≠ [] then [r.choices] else []) ++
        ownSequences w recordings := by
  unfold ownSequences sequencesOf
  by_cases own : r.worker = w <;> by_cases empty : r.choices = [] <;>
    simp [own, empty]

end

namespace ChoicePool

variable {W : Type u} [DecidableEq W] {maxDepth : UInt32} {grow : Nat → Nat} {p : ChoicePool W}

/-- The child that a step records. -/
def taken (maxDepth : UInt32) (p : ChoicePool W) (s : ChoiceStep W) : Option ID :=
  childTakenFrom (p.pool.workers s.worker)
    ((p.pool.act maxDepth s.worker s.action).workers s.worker) s.action

theorem pool_step (s : ChoiceStep W) :
    (p.step maxDepth grow s).pool = p.pool.act maxDepth s.worker s.action := by
  unfold step
  dsimp only
  split <;> rfl

theorem stepChoiceEvents_step (s : ChoiceStep W) : (p.step maxDepth grow s).stepChoiceEvents =
    update p.stepChoiceEvents s.worker
      ((p.stepChoiceEvents s.worker).fill grow s.choices) := by
  unfold step
  dsimp only
  split <;> rfl

theorem stored_step (s : ChoiceStep W) : (p.step maxDepth grow s).stored =
    p.stored ++ (taken maxDepth p s).toList.map fun snapshotID =>
      { worker := s.worker, snapshotID, choices := s.choices,
        cells := ((p.stepChoiceEvents s.worker).fill grow s.choices).cells } := by
  unfold step
  dsimp only
  split
  · next none =>
    rw [show taken maxDepth p s = _ from none]
    exact (append_nil _).symm
  · next snapshotID some =>
    rw [show taken maxDepth p s = _ from some]
    simp only [collect, update_self]
    rfl

/-- A recording reads as the choices of its burst, until the worker collects those of another. -/
theorem current_step (s : ChoiceStep W) {snapshotID : ID}
    (isTaken : taken maxDepth p s = some snapshotID) :
    (p.step maxDepth grow s).current.getLast? = some ⟨s.worker, snapshotID, s.choices⟩ := by
  rw [current, getLast?_map, stored_step, isTaken, stepChoiceEvents_step]
  simp [update_self, Reused.map_cells_fill]

/-- The tracker has the cells of the recordings under each number, from all workers. -/
def Tracks (p : ChoicePool W) : Prop :=
  ∀ snapshotID, (p.inputTree.sequences (toString snapshotID)).map (·.choices) =
    ((p.stored.filter (·.snapshotID = snapshotID)).map fun r => r.cells.map (r.worker, ·)).filter
      (· ≠ [])

theorem tracks_step (tracks : p.Tracks) (s : ChoiceStep W) :
    (p.step maxDepth grow s).Tracks := by
  unfold step
  dsimp only
  split
  case h_1 => exact tracks
  case h_2 from' _ =>
    intro snapshotID
    have before := tracks snapshotID
    have sameNumber : toString from' = toString snapshotID ↔ from' = snapshotID := Text.repr_inj
    rw [InputTreeTracker.sequences_recordFromSnapshot, InputTreeTracker.sequences_recordSequence,
      map_append, filter_append, map_append, filter_append]
    refine congrArg₂ _ before ?_
    simp only [newChoiceSequence, sameNumber]
    by_cases here : from' = snapshotID <;>
      by_cases empty : ((p.collect grow s).stepChoiceEvents s.worker).cells = [] <;>
        simp [here, empty]

theorem tracks_run (steps : List (ChoiceStep W)) :
    (run maxDepth grow ({} : ChoicePool W) steps).Tracks := by
  refine foldlRecOn (motive := Tracks) steps _ ?_ fun _ tracks s _ => tracks_step tracks s
  intro snapshotID
  rw [InputTreeTracker.sequences_newInputTreeTracker]
  rfl

omit [DecidableEq W] in
theorem Tracks.overrides (tracks : p.Tracks) (snapshotID : ID) : p.overrides snapshotID =
    overridesFor (sequencesOf (recordedFrom snapshotID p.current)) := by
  have read : (p.inputTree.sequences (toString snapshotID)).map
        (fun seq => seq.choices.map p.memory) =
      ((p.inputTree.sequences (toString snapshotID)).map (·.choices)).map (List.map p.memory) :=
    (map_map).symm
  rw [ChoicePool.overrides, InputTreeTracker.nextOverrides, read, tracks]
  simp only [sequencesOf, recordedFrom, current, filter_map, map_map]
  congr 2
  · funext r
    exact map_map
  · apply filter_congr
    intro r _
    simp

/-- The same actions of the same workers. The worker `w` makes the same choices. -/
def VariesOthers (w : W) : List (ChoiceStep W) → List (ChoiceStep W) → Prop :=
  Forall₂ fun s s' =>
    s.worker = s'.worker ∧ s.action = s'.action ∧ (s.worker = w → s.choices = s'.choices)

/-- Recordings of the same workers for the same snapshots. Those of `w` are the same. -/
def SameOwn (w : W) : List (Recording W) → List (Recording W) → Prop :=
  Forall₂ fun r r' =>
    r.worker = r'.worker ∧ r.snapshotID = r'.snapshotID ∧ (r.worker = w → r.choices = r'.choices)

/-- Runs that differ in the choices of workers other than `w` only. -/
structure Agrees (w : W) (p p' : ChoicePool W) : Prop where
  pool : p.pool = p'.pool
  slice : p.stepChoiceEvents w = p'.stepChoiceEvents w
  stored : Forall₂ (fun r r' : Stored W => r.worker = r'.worker ∧
    r.snapshotID = r'.snapshotID ∧ (r.worker = w → r.cells = r'.cells)) p.stored p'.stored

variable {w : W} {p' : ChoicePool W}

theorem Agrees.step (agrees : Agrees w p p') {s s' : ChoiceStep W}
    (sameWorker : s.worker = s'.worker) (sameAction : s.action = s'.action)
    (sameChoices : s.worker = w → s.choices = s'.choices) :
    Agrees w (p.step maxDepth grow s) (p'.step maxDepth grow s') where
  pool := by rw [pool_step, pool_step, agrees.pool, sameWorker, sameAction]
  slice := by
    rw [stepChoiceEvents_step, stepChoiceEvents_step, ← sameWorker]
    by_cases own : w = s.worker
    · rw [← own, update_self, update_self, agrees.slice, sameChoices own.symm]
    · rw [update_of_ne own, update_of_ne own, agrees.slice]
  stored := by
    have sameTaken : taken maxDepth p s = taken maxDepth p' s' := by
      rw [taken, taken, agrees.pool, sameWorker, sameAction]
    rw [stored_step, stored_step, ← sameTaken]
    refine rel_append agrees.stored ?_
    cases taken maxDepth p s with
    | none => exact .nil
    | some snapshotID =>
      refine .cons ⟨sameWorker, rfl, fun own => ?_⟩ .nil
      simp only at own
      rw [← sameWorker, own, agrees.slice, sameChoices own]

theorem Agrees.run {steps steps' : List (ChoiceStep W)} (agrees : Agrees w p p')
    (varies : VariesOthers w steps steps') :
    Agrees w (p.run maxDepth grow steps) (p'.run maxDepth grow steps') := by
  induction varies generalizing p p' with
  | nil => exact agrees
  | cons related _ ih => exact ih (agrees.step related.1 related.2.1 related.2.2)

omit [DecidableEq W] in
theorem Agrees.current (agrees : Agrees w p p') : SameOwn w p.current p'.current := by
  refine forall₂_map_left_iff.mpr (forall₂_map_right_iff.mpr ?_)
  refine agrees.stored.imp fun r r' related => ⟨related.1, related.2.1, fun own => ?_⟩
  simp only at own ⊢
  rw [related.2.2 own, ← related.1, own, agrees.slice]

end ChoicePool

section

variable {W : Type u} [DecidableEq W] {w : W} {c c' : List (Recording W)}

def AllConcerning (w : W) (recordings : List (Recording W)) : Prop :=
  ∀ r ∈ recordings, r.worker = w → r.choices ≠ []

theorem own_eq_of_sameOwn (related : ChoicePool.SameOwn w c c') :
    ownSequences w c = ownSequences w c' := by
  induction related with
  | nil => rfl
  | cons relatedHead _ ih =>
    obtain ⟨sameWorker, _, sameChoices⟩ := relatedHead
    rw [ownSequences_cons, ownSequences_cons, ih, ← sameWorker]
    congr 1
    split
    case isTrue own => rw [← sameChoices own.1, if_pos own]
    case isFalse other =>
      rw [if_neg]
      rintro ⟨own, nonempty⟩
      exact other ⟨own, sameChoices own ▸ nonempty⟩

omit [DecidableEq W] in
theorem worker_eq_of_sameOwn (related : ChoicePool.SameOwn w c c')
    (alone : ∀ r ∈ c, r.worker = w) : ∀ r ∈ c', r.worker = w := by
  induction related with
  | nil => exact alone
  | cons relatedHead _ ih =>
    rw [forall_mem_cons] at alone ⊢
    exact ⟨relatedHead.1 ▸ alone.1, ih alone.2⟩

theorem overridesFor_of_undisturbed (related : ChoicePool.SameOwn w c c')
    (concerning : AllConcerning w c) (undisturbed : Undisturbed w c) :
    overridesFor (sequencesOf c') = overridesFor (ownSequences w c) := by
  have sameOwn := own_eq_of_sameOwn related
  rcases undisturbed with alone | ⟨first, exhausted⟩
  · have alone' : c'.filter (·.worker = w) = c' := by
      rw [filter_eq_self]
      intro r mem
      exact decide_eq_true (worker_eq_of_sameOwn related alone r mem)
    rw [sameOwn, ownSequences, alone']
  · cases related with
    | nil => cases first
    | @cons r _ _ _ relatedHead _ =>
      obtain ⟨sameWorker, _, sameChoices⟩ := relatedHead
      have own : r.worker = w := Option.some.inj first
      have nonempty := concerning r mem_cons_self own
      rw [sameOwn, ownSequences_cons, if_pos ⟨sameWorker ▸ own, sameChoices own ▸ nonempty⟩,
        singleton_append] at exhausted ⊢
      rw [exhausted, sequencesOf_cons (sameChoices own ▸ nonempty)]
      exact overridesFor_eq_nil_of_subset exhausted (cons_subset_cons _ ownSequences_subset)

end

namespace ChoicePool

variable {W : Type u} [DecidableEq W] {maxDepth : UInt32} {grow : Nat → Nat} {p : ChoicePool W}
  {w : W}

theorem allConcerning (w : W) (snapshotID : ID) (recordings : List (Recording W)) :
    AllConcerning w (concerning w snapshotID recordings) := by
  intro r mem own
  have matters := of_decide_eq_true (mem_filter.mp mem).2
  exact matters.resolve_left (not_not_intro own)

theorem sameOwn_concerning {recordings recordings' : List (Recording W)}
    (related : SameOwn w recordings recordings') (snapshotID : ID) :
    SameOwn w (concerning w snapshotID recordings) (concerning w snapshotID recordings') := by
  unfold concerning recordedFrom
  apply rel_filter (R := fun r r' => _) _ (rel_filter (R := fun r r' => _) _ related)
  · rintro r r' ⟨sameWorker, _, sameChoices⟩
    dsimp only
    rw [decide_eq_true_iff, decide_eq_true_iff, sameWorker]
    refine or_congr_right' fun own => ?_
    rw [sameChoices (sameWorker.trans (not_not.mp own))]
  · rintro r r' ⟨_, sameNumber, _⟩
    dsimp only
    rw [decide_eq_true_iff, decide_eq_true_iff, sameNumber]

end ChoicePool

end OpenThesis.Orchestrator
