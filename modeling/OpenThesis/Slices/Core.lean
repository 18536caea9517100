import Mathlib.Data.Nat.Basic
import Mathlib.Logic.Function.Basic
import Mathlib.Order.Lattice

/-!
# Slices that are used again

A slice is cut to length zero and appended to again, in the same array while that has room. What was
taken of it earlier are cells of the array, which may be written again.
-/

namespace OpenThesis.Slices

open List

universe u

variable {α : Type u}

/-- Memory with one slice. Its array are `cap` cells from `base` on; the cells after them are
free. -/
structure Reused (α : Type u) where
  memory : Nat → α
  base : Nat
  cap : Nat
  len : Nat
  bound : len ≤ cap

namespace Reused

/-- The slice before anything was appended. -/
def empty (zero : α) : Reused α where
  memory _ := zero
  base := 0
  cap := 0
  len := 0
  bound := le_rfl

/-- The cells of the elements. -/
def cells (s : Reused α) : List Nat :=
  range' s.base s.len

def truncate (s : Reused α) : Reused α :=
  { s with len := 0, bound := Nat.zero_le _ }

/-- Without room the elements move to a new array, with the capacity that `grow` says or more. -/
def append (grow : Nat → Nat) (s : Reused α) (x : α) : Reused α :=
  if room : s.len < s.cap then
    { s with
      memory := Function.update s.memory (s.base + s.len) x
      len := s.len + 1
      bound := room }
  else
    let base := s.base + s.cap
    { memory := fun cell =>
        if cell < base then s.memory cell
        else if cell = base + s.len then x
        else s.memory (s.base + (cell - base))
      base
      cap := max (grow s.cap) (s.len + 1)
      len := s.len + 1
      bound := le_max_right _ _ }

/-- Cut to length zero, and filled with other elements. -/
def fill (grow : Nat → Nat) (s : Reused α) (xs : List α) : Reused α :=
  xs.foldl (append grow) s.truncate

variable (grow : Nat → Nat) (s : Reused α)

theorem map_cells_append (x : α) : (append grow s x).cells.map (append grow s x).memory =
    s.cells.map s.memory ++ [x] := by
  by_cases room : s.len < s.cap
  · rw [append, dif_pos room]
    simp only [cells, range'_1_concat, map_append, map_singleton, Function.update_self]
    congr 1
    apply map_congr_left
    intro cell mem
    have inside := mem_range'_1.mp mem
    exact Function.update_of_ne (by omega) _ _
  · rw [append, dif_neg room]
    simp only [cells, range'_1_concat, map_append, map_singleton]
    congr 1
    · rw [range'_eq_map_range, range'_eq_map_range, map_map, map_map]
      apply map_congr_left
      intro i mem
      have inside := mem_range.mp mem
      simp only [Function.comp_apply]
      rw [if_neg (by omega), if_neg (by omega), Nat.add_sub_cancel_left]
    · rw [if_neg (by omega), if_true]

theorem map_cells_foldl (xs : List α) :
    (xs.foldl (append grow) s).cells.map (xs.foldl (append grow) s).memory =
      s.cells.map s.memory ++ xs := by
  induction xs generalizing s with
  | nil => exact (append_nil _).symm
  | cons x xs ih =>
    rw [foldl_cons, ih, map_cells_append, append_assoc, singleton_append]

theorem map_cells_fill (xs : List α) :
    (fill grow s xs).cells.map (fill grow s xs).memory = xs :=
  map_cells_foldl grow s.truncate xs

end Reused

end OpenThesis.Slices
