import Mathlib.Data.List.Basic
import Mathlib.Data.List.Induction
import Mathlib.Order.Basic

/-!
# Runs of a state machine

A run is the fold of a step function over a list of actions.
-/

namespace OpenThesis.Run

open List

universe u v w

variable {σ : Type u} {α : Type v} {step : σ → α → σ}

theorem view_foldl {β : Type w} (view : σ → β) (keeps : ∀ s action, view (step s action) = view s)
    (s : σ) (actions : List α) : view (actions.foldl step s) = view s :=
  foldlRecOn (motive := fun next => view next = view s) actions step rfl
    fun next same action _ => (keeps next action).trans same

variable {actions : List α}

/-- What holds at the start, and is kept by every action that meets a condition, holds
after a run whose actions all meet it. -/
theorem holds_of_conditions {motive : List α → Prop} {condition : List α → α → Prop}
    (initially : motive []) (keeps : ∀ before action, motive before → condition before action →
      motive (before ++ [action]))
    (conditions : ∀ before action, before ++ [action] <+: actions → condition before action) :
    motive actions := by
  induction actions using reverseRecOn with
  | nil => exact initially
  | append_singleton actions action ih =>
    have earlier := ih fun before other inside =>
      conditions before other (inside.trans (prefix_append _ _))
    exact keeps actions action earlier (conditions actions action (prefix_refl _))

theorem foldl_of_conditions {motive : σ → Prop} {condition : σ → α → Prop} {s : σ}
    (initially : motive s)
    (keeps : ∀ s action, motive s → condition s action → motive (step s action))
    (conditions : ∀ before action, before ++ [action] <+: actions →
      condition (before.foldl step s) action) : motive (actions.foldl step s) := by
  refine holds_of_conditions (motive := fun run => motive (run.foldl step s)) initially
    (fun before action now meets => ?_) conditions
  rw [foldl_concat]
  exact keeps _ action now meets

/-- If a step keeps a property exactly under a condition, all states of a run have it exactly when
all steps meet the condition. -/
theorem forall_states_iff {invariant property : σ → Prop} {condition : σ → α → Prop} {s : σ}
    (reached : ∀ actions : List α, invariant (actions.foldl step s)) (initially : property s)
    (keeps : ∀ s action, invariant s → property s →
      (property (step s action) ↔ condition s action)) (actions : List α) :
    (∀ before, before <+: actions → property (before.foldl step s)) ↔
      ∀ before action, before ++ [action] <+: actions → condition (before.foldl step s) action := by
  constructor
  · intro holds before action inside
    have now := holds before ((prefix_append _ _).trans inside)
    have after := holds (before ++ [action]) inside
    rw [foldl_concat] at after
    exact (keeps _ action (reached before) now).mp after
  · intro conditions before isPre
    refine holds_of_conditions (motive := fun run => property (run.foldl step s)) initially
      (fun earlier action now meets => ?_)
      fun earlier action inside => conditions earlier action (inside.trans isPre)
    rw [foldl_concat]
    exact (keeps _ action (reached earlier) now).mpr meets

/-- If a property of each action agrees with a condition as long as all earlier actions meet it,
then the two agree on whole runs. -/
theorem forall_actions_iff {property condition : List α → α → Prop}
    (agree : ∀ before action, before ++ [action] <+: actions →
      (∀ earlier other, earlier ++ [other] <+: before → condition earlier other) →
      (property before action ↔ condition before action)) :
    (∀ before action, before ++ [action] <+: actions → property before action) ↔
      ∀ before action, before ++ [action] <+: actions → condition before action := by
  constructor
  · intro holds before
    induction size : before.length using Nat.strongRecOn generalizing before with
    | ind size ih =>
      intro action inside
      refine (agree before action inside fun earlier other isPre => ?_).mp
        (holds before action inside)
      have shorter : earlier.length < before.length := by
        have bound := isPre.length_le
        rw [length_append] at bound
        exact bound
      exact ih earlier.length (size ▸ shorter) earlier rfl other
        (isPre.trans ((prefix_append _ _).trans inside))
  · intro conditions before action inside
    refine (agree before action inside fun earlier other isPre => ?_).mpr
      (conditions before action inside)
    exact conditions earlier other (isPre.trans ((prefix_append _ _).trans inside))

theorem rank_foldl_eq_iff {ρ : Type w} [PartialOrder ρ] {invariant : σ → Prop} (rank : σ → ρ)
    {s : σ} (reached : ∀ actions : List α, invariant (actions.foldl step s))
    (grows : ∀ s action, invariant s → rank s ≤ rank (step s action)) (actions : List α) :
    rank (actions.foldl step s) = rank s ↔ ∀ before action, before ++ [action] <+: actions →
        rank (step (before.foldl step s) action) = rank (before.foldl step s) := by
  have atLeast (actions : List α) : rank s ≤ rank (actions.foldl step s) := by
    induction actions using reverseRecOn with
    | nil => exact le_refl _
    | append_singleton actions action ih =>
      rw [foldl_concat]
      exact ih.trans (grows _ action (reached actions))
  induction actions using reverseRecOn with
  | nil => simp
  | append_singleton actions action ih =>
    have last := grows _ action (reached actions)
    rw [foldl_concat]
    constructor
    · intro same before other inside
      have settled : rank (actions.foldl step s) = rank s :=
        le_antisymm (last.trans same.le) (atLeast actions)
      rcases prefix_concat_iff.mp inside with whole | earlier
      · obtain ⟨rfl, rfl⟩ := append_singleton_inj.mp whole
        exact same.trans settled.symm
      · exact ih.mp settled before other earlier
    · intro kept
      have settled : rank (actions.foldl step s) = rank s :=
        ih.mpr fun before other inside =>
          kept before other (inside.trans (prefix_append _ _))
      exact (kept actions action (prefix_refl _)).trans settled

theorem forall_actions_iff_forall_fin {property : List α → α → Prop} :
    (∀ before action, before ++ [action] <+: actions → property before action) ↔
      ∀ position : Fin actions.length, property (actions.take position) (actions.get position) := by
  constructor
  · intro holds position
    refine holds _ _ ?_
    rw [get_eq_getElem, take_append_getElem]
    exact take_prefix _ _
  · rintro holds before action ⟨rest, rfl⟩
    have inside : before.length < (before ++ [action] ++ rest).length := by
      rw [length_append, length_append]
      exact Nat.lt_of_lt_of_le (Nat.lt_succ_self _) (Nat.le_add_right _ _)
    simpa using holds ⟨before.length, inside⟩

end OpenThesis.Run
