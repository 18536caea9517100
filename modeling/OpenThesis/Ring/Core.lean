import Mathlib.Data.List.Rotate

/-!
# Ring buffers

The value number `pos` is written to the slot `pos % length`. Turned by `pos`, the list shows the
latest values from the oldest to the newest.
-/

namespace OpenThesis.Ring

open List

universe u

variable {α : Type u} {window values : List α}

theorem rotate_set_succ (inhabited : 0 < window.length) (pos : Nat) (value : α) :
    (window.set (pos % window.length) value).rotate (pos + 1) =
      (window.rotate pos).tail ++ [value] := by
  have inside := Nat.mod_lt pos inhabited
  obtain ⟨before, old, after, whole, at_pos⟩ : ∃ before old after,
      window = before ++ old :: after ∧ before.length = pos % window.length :=
    ⟨window.take (pos % window.length), window[pos % window.length],
      window.drop (pos % window.length + 1), by simp, length_take_of_le inside.le⟩
  have turned (first : α) : (before ++ first :: after).rotate pos = first :: (after ++ before) := by
    have same : before.length = pos % (before ++ first :: after).length := by
      rw [at_pos, whole, length_append, length_append, length_cons, length_cons]
    rw [← rotate_mod, ← same, rotate_append_length_eq, cons_append]
  rw [← at_pos, whole, set_append_right _ _ le_rfl, Nat.sub_self, set_cons_zero,
    ← rotate_rotate, turned, turned, rotate_cons_succ, rotate_zero, tail_cons]

theorem turned_concat {start : List α} {pos : Nat} (inhabited : 0 < window.length)
    (length : start.length = window.length)
    (turned : window.rotate pos = (start ++ values).drop values.length) (value : α) :
    (window.set (pos % window.length) value).rotate (pos + 1) =
      (start ++ (values ++ [value])).drop (values ++ [value]).length := by
  have room : values.length + 1 ≤ (start ++ values).length := by
    rw [length_append, length]
    omega
  rw [rotate_set_succ inhabited, turned, tail_drop, ← append_assoc, length_append, length_singleton]
  exact (drop_append_of_le_length room).symm

theorem take_perm_drop {empty : α} {size : Nat} (length : window.length = size)
    (turned : window.rotate values.length =
      (replicate size empty ++ values).drop values.length) :
    (window.take (min values.length size)).Perm (values.drop (values.length - size)) := by
  rcases le_total values.length size with early | full
  · rw [min_eq_left early, Nat.sub_eq_zero_of_le early, drop_zero]
    rw [rotate_eq_drop_append_take (length ▸ early), drop_append_of_le_length
      (by simpa using early)] at turned
    exact .of_eq (append_inj turned (by simp [length])).2
  · rw [min_eq_right full, ← length, take_length, length]
    rw [drop_append, drop_eq_nil_of_le (by simpa using full), nil_append,
      length_replicate] at turned
    exact turned ▸ (rotate_perm window _).symm

end OpenThesis.Ring
