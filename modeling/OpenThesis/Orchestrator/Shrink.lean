import Mathlib.Data.Prod.Lex
import Mathlib.Data.List.Range
import OpenThesis.Loop.Core
import OpenThesis.Minimize.Core

/-!
# Delta debugging of fault schedules

The minimiser for fault schedules (`internal/orchestrator/shrink.go`). A subset is a window of the
current slice, which the program tracks by element addresses.
-/

namespace OpenThesis.Orchestrator

open Loop Minimize List

universe u v

variable {α : Type u} {ε : Type v}

structure Window where
  start : Nat
  length : Nat
  deriving DecidableEq, Repr

def Window.items (entries : List α) (window : Window) : List α :=
  (entries.drop window.start).take window.length

def chunks (size remainder : Nat) : (left p i : Nat) → List Window
  | 0, _, _ => []
  | left + 1, p, i =>
    let chunkSize := if p < remainder then size + 1 else size
    if chunkSize = 0 then []
    else ⟨i, chunkSize⟩ :: chunks size remainder left (p + 1) (i + chunkSize)

def partition (entries : List α) (n : Nat) : List Window :=
  let n := if n > entries.length then entries.length else n
  chunks (entries.length / n) (entries.length % n) n 0 0

def setMinus (a : List α) (b : Window) : List α :=
  if b.length = 0 then a
  else
    match (range a.length).find? fun i => i = b.start with
    | none => a
    | some start => a.take start ++ a.drop (start + b.length)

structure DdminState (α : Type u) where
  entries : List α
  n : Nat
  passes : Nat

def ddminPass (cancelled : Nat → Bool) (testFn : List α → Except ε Bool) (state : DdminState α) :
    Pass (DdminState α) (List α) :=
  let entries := state.entries
  if entries.length ≤ 1 then .leave entries
  else if cancelled state.passes then .leave entries
  else
    let subsets := partition entries state.n
    match (subsets.map (Window.items entries)).find? (accepts testFn) with
    | some s => .again ⟨s, 2, state.passes + 1⟩
    | none =>
      match (subsets.map (setMinus entries)).find?
        (fun complement => !complement.isEmpty && accepts testFn complement) with
      | some complement => .again ⟨complement, max (state.n - 1) 2, state.passes + 1⟩
      | none =>
        if state.n ≥ entries.length then .leave entries
        else .again ⟨entries, min (state.n * 2) entries.length, state.passes + 1⟩

def ddmin (cancelled : Nat → Bool) (entries : List α) (testFn : List α → Except ε Bool)
    (fuel : Nat) : Option (List α) :=
  run (ddminPass cancelled testFn) fuel ⟨entries, 2, 0⟩

theorem of_mem_chunks {size remainder left p i : Nat} {window : Window}
    (member : window ∈ chunks size remainder left p i) :
    0 < window.length ∧ window.length ≤ size + 1 ∧ (remainder ≤ p → window.length = size) ∧
      window.start + window.length ≤ i + left * size + (remainder - p) := by
  induction left generalizing p i with
  | zero => exact absurd member not_mem_nil
  | succ left ih =>
    have whole : (left + 1) * size = left * size + size := Nat.succ_mul left size
    by_cases extra : p < remainder
    · simp only [chunks, extra, if_true, Nat.add_one_ne_zero, if_false,
        mem_cons] at member
      rcases member with rfl | later
      · exact ⟨Nat.succ_pos _, le_rfl, fun done => absurd extra (Nat.not_lt.mpr done),
          by simp only; omega⟩
      · rcases ih later with ⟨positive, small, exact_, inside⟩
        exact ⟨positive, small, fun done => absurd extra (Nat.not_lt.mpr done), by omega⟩
    · by_cases empty : size = 0
      · simp [chunks, extra, empty] at member
      · simp only [chunks, extra, if_false, empty, mem_cons] at member
        rcases member with rfl | later
        · exact ⟨Nat.pos_of_ne_zero empty, Nat.le_succ _, fun _ => rfl, by simp only; omega⟩
        · rcases ih later with ⟨positive, small, exact_, inside⟩
          have done : remainder ≤ p + 1 := by omega
          exact ⟨positive, small, fun _ => exact_ done, by omega⟩

theorem of_mem_partition {entries : List α} {n : Nat} (two : 2 ≤ n)
    (long : 2 ≤ entries.length) {window : Window} (member : window ∈ partition entries n) :
    0 < window.length ∧ window.length < entries.length ∧
      window.start + window.length ≤ entries.length := by
  unfold partition at member
  set count := if n > entries.length then entries.length else n with countEq
  have countTwo : 2 ≤ count := by
    rw [countEq]
    split <;> assumption
  rcases of_mem_chunks member with ⟨positive, small, exact_, inside⟩
  have divided := Nat.div_add_mod entries.length count
  have doubled : 2 * (entries.length / count) ≤ count * (entries.length / count) :=
    Nat.mul_le_mul_right _ countTwo
  refine ⟨positive, ?_, ?_⟩
  · by_cases even : entries.length % count = 0
    · have length := exact_ (Nat.le_of_eq even)
      omega
    · omega
  · omega

theorem chunks_one (left p i : Nat) :
    chunks 1 0 left p i = (range left).map fun j => ⟨i + j, 1⟩ := by
  induction left generalizing p i with
  | zero => rfl
  | succ left ih =>
    simp only [chunks, Nat.not_lt_zero, if_false, Nat.one_ne_zero, ih, range_succ_eq_map,
      map_cons, map_map, Nat.add_zero]
    congr 1
    apply map_congr_left
    intro j _
    simp only [Function.comp_apply, Nat.succ_eq_add_one, Window.mk.injEq, and_true]
    omega

theorem partition_finest {entries : List α} {n : Nat} (finest : entries.length ≤ n)
    (nonempty : 0 < entries.length) :
    partition entries n = (range entries.length).map fun i => ⟨i, 1⟩ := by
  have count : (if n > entries.length then entries.length else n) = entries.length := by
    split <;> omega
  simp only [partition, count, Nat.div_self nonempty, Nat.mod_self, chunks_one, Nat.zero_add]

variable (entries : List α)

theorem Window.items_sublist (window : Window) : (window.items entries).Sublist entries :=
  (take_sublist _ _).trans (drop_sublist _ _)

theorem setMinus_eq {a : List α} {b : Window} (positive : 0 < b.length)
    (inside : b.start < a.length) :
    setMinus a b = a.take b.start ++ a.drop (b.start + b.length) := by
  have located : ((range a.length).find? fun i => i = b.start) = some b.start := by
    cases found : (range a.length).find? fun i => i = b.start with
    | none =>
      have absent := find?_eq_none.mp found b.start (mem_range.mpr inside)
      simp at absent
    | some i =>
      have equal : i = b.start := by simpa using find?_some found
      rw [equal]
  unfold setMinus
  rw [if_neg (Nat.ne_of_gt positive), located]

section

variable {a : List α} {b : Window} (positive : 0 < b.length)
  (inside : b.start + b.length ≤ a.length)

include positive inside

theorem setMinus_sublist : (setMinus a b).Sublist a := by
  rw [setMinus_eq positive (by omega)]
  have dropped : (a.drop (b.start + b.length)).Sublist (a.drop b.start) := by
    rw [← drop_drop]
    exact drop_sublist _ _
  have joined := (Sublist.refl (a.take b.start)).append dropped
  rw [take_append_drop] at joined
  exact joined

theorem length_setMinus_lt : (setMinus a b).length < a.length := by
  rw [setMinus_eq positive (by omega), length_append, length_take, length_drop]
  omega

end

theorem setMinus_single {a : List α} {i : Nat} (inside : i < a.length) :
    setMinus a ⟨i, 1⟩ = a.eraseIdx i := by
  rw [setMinus_eq Nat.one_pos inside, eraseIdx_eq_take_drop_succ]

section

variable {cancelled : Nat → Bool} {testFn : List α → Except ε Bool}
  {state next : DdminState α} {result : List α}

theorem ddminPass_again (two : 2 ≤ state.n)
    (pass : ddminPass cancelled testFn state = .again next) :
    (next.entries.Sublist state.entries ∧ accepts testFn next.entries = true ∧
        next.entries.length < state.entries.length ∧ 2 ≤ next.n) ∨
      (next.entries = state.entries ∧ state.n < next.n ∧ next.n ≤ state.entries.length) := by
  unfold ddminPass at pass
  by_cases short : state.entries.length ≤ 1
  · simp [short] at pass
  by_cases stop : cancelled state.passes = true
  · simp [short, stop] at pass
  have long : 2 ≤ state.entries.length := by omega
  simp only [short, stop, Bool.false_eq_true, if_false] at pass
  cases subset : ((partition state.entries state.n).map (Window.items state.entries)).find?
      (accepts testFn) with
  | some s =>
    simp only [subset, Pass.again.injEq] at pass
    subst pass
    left
    have accepted := find?_some subset
    rcases mem_map.mp (mem_of_find?_eq_some subset) with ⟨window, member, rfl⟩
    rcases of_mem_partition two long member with ⟨-, proper, -⟩
    exact ⟨window.items_sublist _, accepted,
      lt_of_le_of_lt (length_take_le _ _) proper, le_rfl⟩
  | none =>
    simp only [subset] at pass
    cases rest : ((partition state.entries state.n).map (setMinus state.entries)).find?
        (fun complement => !complement.isEmpty && accepts testFn complement) with
    | some complement =>
      simp only [rest, Pass.again.injEq] at pass
      subst pass
      left
      have chosen := find?_some rest
      rw [Bool.and_eq_true] at chosen
      rcases mem_map.mp (mem_of_find?_eq_some rest) with ⟨window, member, rfl⟩
      rcases of_mem_partition two long member with ⟨positive, -, inside⟩
      exact ⟨setMinus_sublist positive inside, chosen.2,
        length_setMinus_lt positive inside, le_max_right _ _⟩
    | none =>
      simp only [rest] at pass
      by_cases finest : state.n ≥ state.entries.length
      · simp [finest] at pass
      · simp only [finest, if_false, Pass.again.injEq] at pass
        subst pass
        right
        refine ⟨rfl, ?_, min_le_right _ _⟩
        apply Nat.lt_min.mpr
        omega

theorem ddminPass_leave (running : cancelled state.passes = false)
    (pass : ddminPass cancelled testFn state = .leave result) :
    result = state.entries ∧ OneMinimal (fun items => accepts testFn items = true) result := by
  unfold ddminPass at pass
  by_cases short : state.entries.length ≤ 1
  · simp only [short, if_true, Pass.leave.injEq] at pass
    subst pass
    exact ⟨rfl, fun long => absurd long (by omega)⟩
  simp only [short, running, Bool.false_eq_true, if_false] at pass
  cases subset : ((partition state.entries state.n).map (Window.items state.entries)).find?
      (accepts testFn) with
  | some s => simp [subset] at pass
  | none =>
    simp only [subset] at pass
    cases rest : ((partition state.entries state.n).map (setMinus state.entries)).find?
        (fun complement => !complement.isEmpty && accepts testFn complement) with
    | some complement => simp [rest] at pass
    | none =>
      simp only [rest] at pass
      by_cases finest : state.n ≥ state.entries.length
      · simp only [finest, if_true, Pass.leave.injEq] at pass
        subst pass
        refine ⟨rfl, ?_⟩
        intro long i inside accepted
        have member : state.entries.eraseIdx i ∈
            (partition state.entries state.n).map (setMinus state.entries) := by
          rw [partition_finest finest (by omega), map_map]
          apply mem_map.mpr
          exact ⟨i, mem_range.mpr inside, setMinus_single inside⟩
        have rejected := find?_eq_none.mp rest _ member
        have nonempty : (state.entries.eraseIdx i).isEmpty = false := by
          rw [isEmpty_eq_false_iff, ← length_pos_iff, length_eraseIdx_of_lt inside]
          omega
        rw [nonempty, accepted] at rejected
        exact rejected rfl
      · simp [finest] at pass

end

/-- The loop stops, as a pass shortens the list or refines the granularity. -/
theorem exists_yields_ddmin {testFn : List α → Except ε Bool}
    (accepted : accepts testFn entries = true) :
    ∃ result, Yields (ddmin (fun _ => false) entries testFn) result ∧
      result.Sublist entries ∧ accepts testFn result = true ∧
      OneMinimal (fun items => accepts testFn items = true) result := by
  have wellFounded := (wellFounded_lt (α := Nat)).prod_lex (wellFounded_lt (α := Nat))
  apply exists_yields_of_variant wellFounded
    (fun state => (state.entries.length, state.entries.length - state.n))
    (fun state => state.entries.Sublist entries ∧ accepts testFn state.entries = true ∧
      2 ≤ state.n)
  · rintro state next ⟨sublist, stillAccepted, two⟩ pass
    rcases ddminPass_again two pass with
      ⟨shorter, nextAccepted, less, nextTwo⟩ | ⟨same, finer, bounded⟩
    · exact ⟨⟨shorter.trans sublist, nextAccepted, nextTwo⟩, Prod.Lex.left _ _ less⟩
    · rw [same]
      have lower : state.entries.length - next.n < state.entries.length - state.n := by
        omega
      exact ⟨⟨sublist, stillAccepted, by omega⟩, Prod.Lex.right _ lower⟩
  · rintro state result ⟨sublist, stillAccepted, -⟩ pass
    rcases ddminPass_leave rfl pass with ⟨rfl, minimal⟩
    exact ⟨sublist, stillAccepted, minimal⟩
  · exact ⟨Sublist.refl _, accepted, le_rfl⟩

/-- Without cancellation `ddmin` returns an accepted sublist of an accepted list, from which no
single entry can be removed, and no proper part of which is accepted when the test is monotone. -/
theorem ddmin_minimizes (entries : List α) (testFn : List α → Except ε Bool)
    (accepted : testFn entries = .ok true) :
    ∃ result, Yields (ddmin (fun _ => false) entries testFn) result ∧
      result.Sublist entries ∧ testFn result = .ok true ∧
      (2 ≤ result.length → ∀ i < result.length, testFn (result.eraseIdx i) ≠ .ok true) ∧
      ((∀ part whole, part.Sublist whole → testFn part = .ok true → testFn whole = .ok true) →
        ∀ part, part.Sublist result → part ≠ [] → part ≠ result →
          testFn part ≠ .ok true) := by
  rcases exists_yields_ddmin entries (accepts_eq_true_iff.mpr accepted) with
    ⟨result, returned, sublist, stillAccepted, minimal⟩
  have oneMinimal : OneMinimal (fun items => testFn items = .ok true) result := by
    intro long i inside removable
    exact minimal long i inside (accepts_eq_true_iff.mpr removable)
  refine ⟨result, returned, sublist, accepts_eq_true_iff.mp stillAccepted, oneMinimal, ?_⟩
  intro monotone part partSublist nonempty proper
  exact oneMinimal.not_accepted (fun _ _ => monotone _ _) partSublist nonempty proper

theorem ddmin_minimizes_duplicates :
    ∃ result, Yields (ddmin (fun _ => false) [3, 1, 4, 1, 5, 9, 2]
        (fun items => (.ok (decide (2 ≤ items.count 1)) : Except Unit Bool))) result ∧
      result.Sublist [3, 1, 4, 1, 5, 9, 2] := by
  rcases ddmin_minimizes [3, 1, 4, 1, 5, 9, 2]
    (fun items => (.ok (decide (2 ≤ items.count 1)) : Except Unit Bool)) (by decide) with
    ⟨result, returned, sublist, -⟩
  exact ⟨result, returned, sublist⟩

example : ddmin (fun _ => false) [3, 1, 4, 1, 5, 9, 2]
    (fun items => (.ok (decide (2 ≤ items.count 1)) : Except Unit Bool)) 20 = some [1, 1] := by
  decide

end OpenThesis.Orchestrator
