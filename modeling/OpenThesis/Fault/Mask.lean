import Mathlib.Data.List.Basic
import OpenThesis.Fault.Kind

/-!
# Masks of fault kinds

Sixteen of the nineteen kinds have a bit of their own in the mask of a burst.
-/

namespace OpenThesis.Fault

namespace Kind

theorem mem_all (kind : Kind) : kind ∈ all := by
  cases kind <;> decide

theorem name_injective : Function.Injective name := by
  intro first second equal
  have same := congrArg ofName equal
  rw [ofName_name, ofName_name] at same
  exact Option.some.inj same

def hasMask (kind : Kind) : Bool :=
  kindToMask kind ≠ 0

end Kind

def kindsMask (kinds : List Kind) : UInt16 :=
  kinds.foldl (fun mask kind => mask ||| kindToMask kind) 0

def decodeMask (pairs : List Kind) (mask : UInt16) : List String :=
  (pairs.filter fun kind => mask &&& kindToMask kind ≠ 0).map Kind.name

theorem or_and_ne_zero_iff (a b bit : UInt16) :
    (a ||| b) &&& bit ≠ 0 ↔ a &&& bit ≠ 0 ∨ b &&& bit ≠ 0 := by
  have distrib : (a ||| b) &&& bit = a &&& bit ||| b &&& bit := by
    rw [← UInt16.toBitVec_inj]
    exact BitVec.and_or_distrib_right
  rw [distrib, ne_eq, UInt16.or_eq_zero_iff, not_and_or]

theorem kindToMask_and_ne_zero_iff (kind other : Kind) :
    kindToMask kind &&& kindToMask other ≠ 0 ↔ kind = other ∧ other.hasMask = true := by
  have table : ∀ kind ∈ Kind.all, ∀ other ∈ Kind.all,
      (kindToMask kind &&& kindToMask other ≠ 0 ↔ kind = other ∧ other.hasMask = true) := by
    decide
  exact table kind kind.mem_all other other.mem_all

variable (kinds : List Kind)

theorem foldl_mask_and_ne_zero_iff (mask bit : UInt16) :
    kinds.foldl (fun mask kind => mask ||| kindToMask kind) mask &&& bit ≠ 0 ↔
      mask &&& bit ≠ 0 ∨ ∃ kind ∈ kinds, kindToMask kind &&& bit ≠ 0 := by
  induction kinds generalizing mask with
  | nil => simp
  | cons kind kinds ih =>
    rw [List.foldl_cons, ih, or_and_ne_zero_iff, or_assoc]
    simp only [List.mem_cons, exists_eq_or_imp]

theorem kindsMask_and_ne_zero_iff (kind : Kind) :
    kindsMask kinds &&& kindToMask kind ≠ 0 ↔ kind ∈ kinds ∧ kind.hasMask = true := by
  rw [kindsMask, foldl_mask_and_ne_zero_iff]
  simp only [kindToMask_and_ne_zero_iff]
  constructor
  · rintro (zero | ⟨other, member, rfl, masked⟩)
    · exact absurd UInt16.zero_and zero
    · exact ⟨member, masked⟩
  · rintro ⟨member, masked⟩
    exact Or.inr ⟨kind, member, rfl, masked⟩

theorem kindsMask_eq_zero_iff : kindsMask kinds = 0 ↔ ∀ kind ∈ kinds, kind.hasMask = false := by
  have bits := foldl_mask_and_ne_zero_iff kinds 0 (-1)
  have whole : ∀ mask : UInt16, mask &&& -1 = mask := fun mask => UInt16.and_neg_one
  simp only [whole] at bits
  rw [← not_iff_not]
  refine bits.trans ?_
  simp [Kind.hasMask]

theorem mem_decodeMask_iff (pairs kinds : List Kind) (kind : Kind) :
    kind.name ∈ decodeMask pairs (kindsMask kinds) ↔
      kind ∈ pairs ∧ kind ∈ kinds ∧ kind.hasMask = true := by
  rw [decodeMask, List.mem_map_of_injective Kind.name_injective, List.mem_filter,
    decide_eq_true_eq, kindsMask_and_ne_zero_iff]

end OpenThesis.Fault
