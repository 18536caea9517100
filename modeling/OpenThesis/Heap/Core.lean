import Mathlib.Data.List.Basic
import Mathlib.Data.List.Induction
import Mathlib.Tactic.Common

/-!
# Binary heaps in arrays

The operations of Go's `container/heap` for an arbitrary comparison.
-/

namespace OpenThesis.Heap

open List

universe u

variable {α : Type u}

section

variable (less : α → α → Bool)

def lessAt (h : Array α) (i j : Nat) : Bool :=
  match h[i]?, h[j]? with
  | some a, some b => less a b
  | _, _ => false

def up : Nat → Array α → Nat → Array α
  | 0, h, _ => h
  | fuel + 1, h, j =>
    let i := (j - 1) / 2
    if i = j ∨ lessAt less h j i = false then h else up fuel (h.swapIfInBounds i j) i

def firstChild (h : Array α) (i n : Nat) : Nat :=
  let j1 := 2 * i + 1
  if j1 + 1 < n ∧ lessAt less h (j1 + 1) j1 = true then j1 + 1 else j1

def down : Nat → Array α → Nat → Nat → Array α
  | 0, h, _, _ => h
  | fuel + 1, h, i, n =>
    let j := firstChild less h i n
    if 2 * i + 1 ≥ n ∨ lessAt less h j i = false then h
    else down fuel (h.swapIfInBounds i j) j n

def init (h : Array α) : Array α :=
  (range (h.size / 2)).reverse.foldl (fun h i => down less h.size h i h.size) h

def push (h : Array α) (x : α) : Array α :=
  up less (h.size + 1) (h.push x) h.size

def pop (h : Array α) : Option (α × Array α) :=
  let n := h.size - 1
  let h := down less n (h.swapIfInBounds 0 n) 0 n
  h.back?.map fun x => (x, h.pop)

end

theorem swapIfInBounds_perm (h : Array α) (i j : Nat) : (h.swapIfInBounds i j).Perm h := by
  rw [Array.swapIfInBounds_def]
  split
  · split
    · exact Array.swap_perm _ _
    · exact .rfl
  · exact .rfl

variable {less : α → α → Bool}

theorem up_perm (fuel : Nat) (h : Array α) (j : Nat) : (up less fuel h j).Perm h := by
  induction fuel generalizing h j with
  | zero => exact .rfl
  | succ fuel ih =>
    unfold up
    dsimp only
    split
    · exact .rfl
    · exact (ih _ _).trans (swapIfInBounds_perm h _ _)

theorem down_perm (fuel : Nat) (h : Array α) (i n : Nat) : (down less fuel h i n).Perm h := by
  induction fuel generalizing h i with
  | zero => exact .rfl
  | succ fuel ih =>
    unfold down
    dsimp only
    split
    · exact .rfl
    · exact (ih _ _).trans (swapIfInBounds_perm h _ _)

theorem init_perm (h : Array α) : (init less h).Perm h := by
  unfold init
  generalize (range (h.size / 2)).reverse = indices
  induction indices using reverseRecOn with
  | nil => exact .rfl
  | append_singleton indices i ih =>
    rw [foldl_append, foldl_cons, foldl_nil]
    exact (down_perm _ _ _ _).trans ih

theorem push_perm (h : Array α) (x : α) : (push less h x).toList.Perm (x :: h.toList) := by
  have moved := (up_perm (h.size + 1) (h.push x) h.size : (push less h x).Perm (h.push x)).toList
  rw [Array.toList_push] at moved
  exact moved.trans (perm_append_singleton x h.toList)

theorem last_cons_pop_perm {h : Array α} {x : α} (last : h.back? = some x) :
    (x :: h.pop.toList).Perm h.toList := by
  rw [← Array.getLast?_toList] at last
  rw [Array.toList_pop]
  have whole := dropLast_append_getLast? x last
  exact (perm_append_singleton x _).symm.trans (Perm.of_eq whole)

theorem perm_of_pop {h rest : Array α} {x : α} (popped : pop less h = some (x, rest)) :
    (x :: rest.toList).Perm h.toList := by
  let moved := down less (h.size - 1) (h.swapIfInBounds 0 (h.size - 1)) 0 (h.size - 1)
  have same : moved.Perm h := (down_perm _ _ _ _).trans (swapIfInBounds_perm h _ _)
  rcases Option.map_eq_some_iff.mp popped with ⟨last, back, equal⟩
  rcases Prod.mk.inj equal with ⟨rfl, rfl⟩
  exact (last_cons_pop_perm back).trans same.toList

end OpenThesis.Heap
