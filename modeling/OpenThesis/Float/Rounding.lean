import Mathlib.Algebra.Group.Nat.Defs
import Mathlib.Logic.Basic

/-!
# Integers as floating-point numbers

An integer as a `float64`: the nearest number with 53 significant bits. The exponent is taken to be
in range, as it is for every `int64`.
-/

namespace OpenThesis.Float

/-- The nearest number with 53 significant bits; of two that are as near, the one that is even. -/
def round (n : Nat) : Nat :=
  let unit := 2 ^ (n.log2 - 52)
  if unit < 2 * (n % unit) ∨ unit = 2 * (n % unit) ∧ n / unit % 2 = 1 then (n / unit + 1) * unit
  else n / unit * unit

/-- The sign is kept. -/
def float64 (value : Int) : Int :=
  if value < 0 then -round value.natAbs else round value.natAbs

theorem round_of_dvd {n : Nat} (divides : 2 ^ (n.log2 - 52) ∣ n) : round n = n := by
  have positive : 0 < 2 ^ (n.log2 - 52) := Nat.two_pow_pos _
  have down : ¬ (2 ^ (n.log2 - 52) < 2 * 0 ∨
      2 ^ (n.log2 - 52) = 2 * 0 ∧ n / 2 ^ (n.log2 - 52) % 2 = 1) := by omega
  simp only [round, Nat.mod_eq_zero_of_dvd divides, if_neg down]
  exact Nat.div_mul_cancel divides

theorem exists_round (n : Nat) : ∃ k ≤ 2 ^ 53, round n = k * 2 ^ (n.log2 - 52) := by
  have below : n / 2 ^ (n.log2 - 52) < 2 ^ 53 := by
    rw [Nat.div_lt_iff_lt_mul (Nat.two_pow_pos _), ← Nat.pow_add]
    have log : n.log2 + 1 ≤ 53 + (n.log2 - 52) := by omega
    exact Nat.lt_of_lt_of_le Nat.lt_log2_self (Nat.pow_le_pow_right Nat.two_pos log)
  rw [round]
  split
  · exact ⟨_, below, rfl⟩
  · exact ⟨_, Nat.le_of_lt below, rfl⟩

-- rounding up may reach the next power of two, whose unit is twice as large
theorem dvd_of_le {k : Nat} (bound : k ≤ 2 ^ 53) (e : Nat) :
    2 ^ ((k * 2 ^ e).log2 - 52) ∣ k * 2 ^ e := by
  have le : k * 2 ^ e ≤ 2 ^ (53 + e) := by
    rw [Nat.pow_add]
    exact Nat.mul_le_mul_right _ bound
  rcases Nat.lt_or_eq_of_le le with less | same
  · have log : (k * 2 ^ e).log2 - 52 ≤ e := by
      rcases eq_or_ne (k * 2 ^ e) 0 with zero | nonzero
      · rw [zero, Nat.log2_zero]
        omega
      · have := (Nat.log2_lt nonzero).mpr less
        omega
    exact Nat.dvd_trans (Nat.pow_dvd_pow 2 log) (Nat.dvd_mul_left _ k)
  · rw [same, Nat.log2_two_pow]
    exact Nat.pow_dvd_pow 2 (by omega)

theorem round_round (n : Nat) : round (round n) = round n := by
  obtain ⟨k, bound, rounded⟩ := exists_round n
  rw [rounded]
  exact round_of_dvd (dvd_of_le bound _)

theorem float64_float64 (value : Int) : float64 (float64 value) = float64 value := by
  by_cases negative : value < 0
  · have rounded : float64 value = -round value.natAbs := if_pos negative
    rw [rounded, float64, Int.natAbs_neg, Int.natAbs_natCast, round_round]
    split
    · rfl
    · omega
  · have rounded : float64 value = round value.natAbs := if_neg negative
    rw [rounded, float64, if_neg (by omega), Int.natAbs_natCast, round_round]

end OpenThesis.Float
