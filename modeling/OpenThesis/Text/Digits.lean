import Mathlib.Data.List.Basic

/-!
# Numbers as text

What the digits of a number are read as.
-/

namespace OpenThesis.Text

/-- An integer in base ten. -/
def formatInt : Int → List Char
  | .ofNat n => Nat.toDigits 10 n
  | .negSucc n => '-' :: Nat.toDigits 10 (n + 1)

/-- A nonempty text of digits. -/
def parseNat (digits : List Char) : Option Nat :=
  if digits ≠ [] ∧ digits.all Char.isDigit then some (Nat.ofDigitChars 10 digits 0) else none

/-- Digits with or without a minus sign. -/
def parseInt : List Char → Option Int
  | '-' :: digits => (parseNat digits).map Int.negOfNat
  | digits => (parseNat digits).map Int.ofNat

theorem isDigit_of_mem_toDigits {n : Nat} {c : Char} (mem : c ∈ Nat.toDigits 10 n) :
    c.isDigit = true :=
  Nat.isDigit_of_mem_toDigits (by decide) (by decide) mem

theorem parseNat_toDigits (n : Nat) : parseNat (Nat.toDigits 10 n) = some n := by
  unfold parseNat
  rw [if_pos, Nat.ofDigitChars_ten_toDigits]
  exact ⟨Nat.toDigits_ne_nil, List.all_eq_true.mpr fun _ mem => isDigit_of_mem_toDigits mem⟩

theorem repr_inj {m n : Nat} : Nat.repr m = Nat.repr n ↔ m = n := by
  refine ⟨fun same => ?_, congrArg Nat.repr⟩
  have digits := congrArg (parseNat ∘ String.toList) same
  simpa [Nat.repr, parseNat_toDigits] using digits

theorem parseInt_formatInt (n : Int) : parseInt (formatInt n) = some n := by
  cases n with
  | ofNat n =>
    change parseInt (Nat.toDigits 10 n) = some (Int.ofNat n)
    unfold parseInt
    split
    case h_1 digits cut =>
      -- A text of digits does not begin with a minus sign.
      have minus : '-' ∈ Nat.toDigits 10 n := cut ▸ List.mem_cons_self
      exact absurd (isDigit_of_mem_toDigits minus) (by decide)
    case h_2 => rw [parseNat_toDigits, Option.map_some]
  | negSucc n =>
    change (parseNat (Nat.toDigits 10 (n + 1))).map Int.negOfNat = some (Int.negSucc n)
    rw [parseNat_toDigits]
    rfl

end OpenThesis.Text
