import Mathlib.Data.List.Basic

/-!
# Minimal accepted lists

A fallible test of lists, and what it means for a list to be reduced as far as the test allows.
-/

namespace OpenThesis.Minimize

universe u v

variable {α : Type u} {ε : Type v}

def accepts (test : List α → Except ε Bool) (items : List α) : Bool :=
  match test items with
  | .ok answer => answer
  | .error _ => false

theorem accepts_eq_true_iff {test : List α → Except ε Bool} {items : List α} :
    accepts test items = true ↔ test items = .ok true := by
  unfold accepts
  cases test items with
  | error e | ok answer => simp

/-- No single item can be removed, unless the list would become empty. -/
def OneMinimal (accepted : List α → Prop) (items : List α) : Prop :=
  2 ≤ items.length → ∀ i < items.length, ¬ accepted (items.eraseIdx i)

def Monotone (accepted : List α → Prop) : Prop :=
  ∀ ⦃part whole : List α⦄, part.Sublist whole → accepted part → accepted whole

theorem exists_sublist_eraseIdx {part whole : List α} (sublist : part.Sublist whole)
    (proper : part ≠ whole) : ∃ i < whole.length, part.Sublist (whole.eraseIdx i) := by
  induction sublist with
  | slnil => contradiction
  | @cons part whole item sublist _ => exact ⟨0, Nat.succ_pos _, sublist⟩
  | @cons_cons part whole item sublist ih =>
    have properTail : part ≠ whole := by
      rintro rfl
      exact proper rfl
    rcases ih properTail with ⟨i, inside, rest⟩
    exact ⟨i + 1, Nat.succ_lt_succ inside, rest.cons_cons item⟩

theorem OneMinimal.not_accepted {accepted : List α → Prop} {part whole : List α}
    (minimal : OneMinimal accepted whole) (monotone : Monotone accepted)
    (sublist : part.Sublist whole) (nonempty : part ≠ []) (proper : part ≠ whole) :
    ¬ accepted part := by
  rcases exists_sublist_eraseIdx sublist proper with ⟨i, inside, rest⟩
  have short := rest.length_le
  have positive := List.length_pos_of_ne_nil nonempty
  rw [List.length_eraseIdx_of_lt inside] at short
  have two : 2 ≤ whole.length := by omega
  intro acceptedPart
  exact minimal two i inside (monotone rest acceptedPart)

end OpenThesis.Minimize
