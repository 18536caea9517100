import Mathlib.Algebra.BigOperators.Group.Finset.Basic
import Mathlib.Data.Fintype.Basic
import Mathlib.Data.List.Induction

/-!
# Threads that read and then write

An update reads a part of a store and later writes what follows from it.
-/

namespace OpenThesis.Threads

open List

universe u v w x

/-- How updates of a store read and write. A write also takes something from outside, such as the
time. -/
structure Updates (σ : Type u) (υ : Type v) (ω : Type w) where
  Seen : υ → Type x
  read : (update : υ) → σ → Seen update
  write : (update : υ) → Seen update → ω → σ → σ

variable {σ : Type u} {υ : Type v} {ω : Type w} {ι : Type*} [DecidableEq ι]

def Updates.perform (k : Updates σ υ ω) (store : σ) (done : υ × ω) : σ :=
  k.write done.1 (k.read done.1 store) done.2 store

structure Updater (k : Updates σ υ ω) where
  remaining : List υ
  pending : Option ((update : υ) × k.Seen update) := none

/-- Threads that update one store. -/
structure Machine (k : Updates σ υ ω) (ι : Type*) where
  store : σ
  threads : ι → Updater k

variable {k : Updates σ υ ω}

namespace Machine

/-- A thread reads the cell, or writes what it made of it. -/
def step (m : Machine k ι) (action : ι × ω) : Machine k ι :=
  match (m.threads action.1).pending with
  | some ⟨update, seen⟩ =>
    { store := k.write update seen action.2 m.store
      threads := Function.update m.threads action.1
        { remaining := (m.threads action.1).remaining } }
  | none =>
    match (m.threads action.1).remaining with
    | [] => m
    | update :: rest =>
      { m with
        threads := Function.update m.threads action.1
          { remaining := rest, pending := some ⟨update, k.read update m.store⟩ } }

def run (m : Machine k ι) (actions : List (ι × ω)) : Machine k ι :=
  actions.foldl step m

def performs (m : Machine k ι) (action : ι × ω) : List (υ × ω) :=
  match (m.threads action.1).pending with
  | some ⟨update, _⟩ => [(update, action.2)]
  | none => []

def performed (m : Machine k ι) : List (ι × ω) → List (υ × ω)
  | [] => []
  | action :: rest => m.performs action ++ (m.step action).performed rest

/-- What the next write of a thread was computed from is still in the store. -/
def Undisturbed (m : Machine k ι) (action : ι × ω) : Prop :=
  ∀ update seen, (m.threads action.1).pending = some ⟨update, seen⟩ → seen = k.read update m.store

instance [∀ update, DecidableEq (k.Seen update)] (m : Machine k ι) (action : ι × ω) :
    Decidable (m.Undisturbed action) :=
  match pending : (m.threads action.1).pending with
  | none => .isTrue (by simp [Undisturbed, pending])
  | some ⟨update, seen⟩ =>
    decidable_of_iff (seen = k.read update m.store) (by
      rw [Undisturbed, pending]
      exact ⟨fun same _ _ other => by cases other; exact same, fun all => all update seen rfl⟩)

theorem run_concat (m : Machine k ι) (actions : List (ι × ω)) (action : ι × ω) :
    m.run (actions ++ [action]) = (m.run actions).step action :=
  foldl_concat ..

theorem performed_concat (m : Machine k ι) (actions : List (ι × ω)) (action : ι × ω) :
    m.performed (actions ++ [action]) = m.performed actions ++ (m.run actions).performs action := by
  induction actions generalizing m with
  | nil => simp [performed, run]
  | cons first rest ih =>
    rw [cons_append, performed, performed, ih, append_assoc]
    rfl

theorem store_step {m : Machine k ι} {action : ι × ω} (undisturbed : m.Undisturbed action) :
    (m.step action).store = (m.performs action).foldl k.perform m.store := by
  rw [step, performs]
  cases pending : (m.threads action.1).pending with
  | none => cases (m.threads action.1).remaining <;> rfl
  | some entry =>
    obtain ⟨update, seen⟩ := entry
    obtain rfl := undisturbed update seen pending
    rfl

theorem store_run {m : Machine k ι} {actions : List (ι × ω)}
    (undisturbed : ∀ before action, before ++ [action] <+: actions →
      (m.run before).Undisturbed action) :
    (m.run actions).store = (m.performed actions).foldl k.perform m.store := by
  induction actions using reverseRecOn with
  | nil => rfl
  | append_singleton actions action ih =>
    rw [run_concat, performed_concat, foldl_append,
      store_step (undisturbed actions action (prefix_refl _)),
      ih fun before other inside =>
        undisturbed before other (inside.trans (prefix_append _ _))]

end Machine

def Updater.outstanding (thread : Updater k) : Multiset υ :=
  (thread.pending.toList.map Sigma.fst : List υ) + (thread.remaining : Multiset υ)

namespace Machine

variable [Fintype ι]

def outstanding (m : Machine k ι) : Multiset υ :=
  ∑ i, (m.threads i).outstanding

theorem sum_update {f : ι → Updater k} {i : ι} {thread : Updater k} {done : Multiset υ}
    (same : (f i).outstanding = thread.outstanding + done) :
    ∑ j, (f j).outstanding = ∑ j, (Function.update f i thread j).outstanding + done := by
  rw [← Finset.add_sum_erase _ _ (Finset.mem_univ i),
    ← Finset.add_sum_erase _ (fun j => (Function.update f i thread j).outstanding)
      (Finset.mem_univ i), Function.update_self, same]
  have others : ∑ j ∈ Finset.univ.erase i, (Function.update f i thread j).outstanding =
      ∑ j ∈ Finset.univ.erase i, (f j).outstanding := by
    refine Finset.sum_congr rfl fun j mem => ?_
    rw [Function.update_of_ne (Finset.ne_of_mem_erase mem)]
  rw [others, add_right_comm]

theorem outstanding_step (m : Machine k ι) (action : ι × ω) :
    m.outstanding = (m.step action).outstanding + ((m.performs action).map Prod.fst : List υ) := by
  rw [step, performs, outstanding]
  cases pending : (m.threads action.1).pending with
  | some entry =>
    obtain ⟨update, seen⟩ := entry
    refine sum_update ?_
    simp [Updater.outstanding, pending, add_comm]
  | none =>
    cases remaining : (m.threads action.1).remaining with
    | nil => simp [outstanding]
    | cons update rest =>
      refine sum_update ?_
      simp [Updater.outstanding, pending, remaining]

theorem outstanding_run (m : Machine k ι) (actions : List (ι × ω)) : m.outstanding =
      (m.run actions).outstanding + ((m.performed actions).map Prod.fst : List υ) := by
  induction actions using reverseRecOn with
  | nil => simp [run, performed]
  | append_singleton actions action ih =>
    rw [run_concat, performed_concat, map_append, ← Multiset.coe_add, ← add_assoc,
      add_right_comm, ← outstanding_step, ih]

def Finished (m : Machine k ι) : Prop :=
  ∀ i, (m.threads i).remaining = [] ∧ (m.threads i).pending = none

theorem performed_of_finished {m : Machine k ι} {actions : List (ι × ω)}
    (finished : (m.run actions).Finished) :
    ((m.performed actions).map Prod.fst : Multiset υ) = m.outstanding := by
  have nothing : (m.run actions).outstanding = 0 := by
    refine Finset.sum_eq_zero fun i _ => ?_
    simp [Updater.outstanding, finished i]
  rw [outstanding_run m actions, nothing, zero_add]

end Machine

end OpenThesis.Threads
