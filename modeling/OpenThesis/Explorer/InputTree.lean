import OpenThesis.Keyed.Core

/-!
# The input tree

The tracker of random choices (`internal/explorer/input_tree.go`): the sequences of each snapshot
and the first untried index. A sequence is stored as the slice that it came in, and is read when
overrides are asked for.
-/

namespace OpenThesis.Explorer

open Keyed List

universe u

structure ChoiceEvent where
  chosenIndex : Int
  totalChoices : Int
  valueType : String := ""
  deriving DecidableEq, Repr

/-- The cells of a slice of choices, and the hash of what they held. -/
structure ChoiceSequence (κ : Type u) where
  choices : List κ
  hash : UInt64

def hashChoiceSequence (choices : List ChoiceEvent) : UInt64 :=
  choices.foldl
    (fun h c =>
      let h := (h ^^^ UInt64.ofInt c.chosenIndex) * 1099511628211
      (h ^^^ UInt64.ofInt c.totalChoices) * 1099511628211)
    14695981039346656037

variable {κ : Type u}

def newChoiceSequence (memory : κ → ChoiceEvent) (choices : List κ) : ChoiceSequence κ where
  choices := choices
  hash := hashChoiceSequence (choices.map memory)

structure InputTreeTracker (κ : Type u) where
  seen : Std.ExtTreeSet UInt64 := ∅
  history : Std.ExtTreeMap String (List (ChoiceSequence κ)) := ∅

def newInputTreeTracker : InputTreeTracker κ := {}

def tried (seqs : List (List ChoiceEvent)) (pos : Nat) (idx : Int) : Bool :=
  seqs.any fun seq => seq[pos]?.any (·.chosenIndex == idx)

def untried (seqs : List (List ChoiceEvent)) (pos : Nat) (ev : ChoiceEvent) : Option Int :=
  if ev.totalChoices ≤ 1 then none
  else
    ((range ev.totalChoices.toNat).map Int.ofNat).find? fun idx => !tried seqs pos idx

def overrideAt (length pos : Nat) (idx : Int) : List Int :=
  (replicate length (-1)).set pos idx

/-- The first untried index at the first position of the first sequence that has one. -/
def overridesFor (seqs : List (List ChoiceEvent)) : List Int :=
  match seqs with
  | [] => []
  | ref :: _ =>
    match ref.zipIdx.findSome? fun (ev, pos) => (untried seqs pos ev).map (pos, ·) with
    | none => []
    | some (pos, idx) => overrideAt ref.length pos idx

namespace InputTreeTracker

def recordSequence (t : InputTreeTracker κ) (seq : ChoiceSequence κ) :
    Bool × InputTreeTracker κ :=
  if seq.choices.isEmpty then (false, t)
  else if seq.hash ∈ t.seen then (false, t)
  else (true, { t with seen := t.seen.insert seq.hash })

def sequences (t : InputTreeTracker κ) (snapID : String) : List (ChoiceSequence κ) :=
  (t.history[snapID]?).getD []

def recordFromSnapshot (t : InputTreeTracker κ) (snapID : String) (seq : ChoiceSequence κ) :
    InputTreeTracker κ :=
  if seq.choices.isEmpty then t
  else { t with history := t.history.insert snapID (t.sequences snapID ++ [seq]) }

def nextOverrides (t : InputTreeTracker κ) (memory : κ → ChoiceEvent) (snapID : String) :
    List Int :=
  overridesFor ((t.sequences snapID).map fun seq => seq.choices.map memory)

end InputTreeTracker

variable {seqs : List (List ChoiceEvent)} {seq ref : List ChoiceEvent} {pos : Nat} {idx : Int}

theorem tried_iff : tried seqs pos idx = true ↔
      ∃ seq ∈ seqs, ∃ ev, seq[pos]? = some ev ∧ ev.chosenIndex = idx := by
  simp [tried, Option.any_eq_true]

theorem tried_of_subset {seqs' : List (List ChoiceEvent)} (subset : seqs ⊆ seqs')
    (was : tried seqs pos idx = true) : tried seqs' pos idx = true := by
  obtain ⟨seq, mem, found⟩ := tried_iff.mp was
  exact tried_iff.mpr ⟨seq, subset mem, found⟩

variable {ev : ChoiceEvent}

theorem untried_eq_none_iff : untried seqs pos ev = none ↔
      (1 < ev.totalChoices → ∀ idx, 0 ≤ idx → idx < ev.totalChoices →
        tried seqs pos idx = true) := by
  unfold untried
  split
  case isTrue single => simp [Int.not_lt.mpr single]
  case isFalse several =>
    rw [Int.not_le] at several
    simp only [find?_eq_none, mem_map, mem_range, Bool.not_eq_true',
      Bool.not_eq_false, several, forall_const]
    constructor
    · intro all idx nonneg bound
      exact all idx ⟨idx.toNat, by omega, Int.toNat_of_nonneg nonneg⟩
    · rintro all _ ⟨i, bound, rfl⟩
      exact all i (Int.natCast_nonneg i) (by omega)

variable {rest rest' : List (List ChoiceEvent)}

def Exhausted (ref : List ChoiceEvent) (seqs : List (List ChoiceEvent)) : Prop :=
  ∀ pos ev, ref[pos]? = some ev → untried seqs pos ev = none

theorem overridesFor_eq_nil_iff :
    overridesFor (ref :: rest) = [] ↔ Exhausted ref (ref :: rest) := by
  unfold overridesFor
  dsimp only
  split
  case h_1 exhausted =>
    refine iff_of_true rfl fun pos ev found => ?_
    rw [findSome?_eq_none_iff] at exhausted
    have none := exhausted (ev, pos) (mem_zipIdx_iff_getElem?.mpr found)
    exact Option.map_eq_none_iff.mp none
  case h_2 pos idx found =>
    obtain ⟨⟨ev, at'⟩, mem, some⟩ := exists_of_findSome?_eq_some found
    obtain ⟨index, isUntried, -⟩ := Option.map_eq_some_iff.mp some
    have entry := mem_zipIdx_iff_getElem?.mp mem
    refine iff_of_false (fun nil => ?_) fun exhausted => ?_
    · rw [overrideAt, set_eq_nil_iff, replicate_eq_nil_iff] at nil
      exact absurd (List.getElem?_eq_some_iff.mp entry).1 (nil ▸ Nat.not_lt_zero at')
    · exact Option.some_ne_none _ (isUntried.symm.trans (exhausted at' ev entry))

theorem overridesFor_eq_nil_of_subset (exhausted : overridesFor (ref :: rest) = [])
    (subset : ref :: rest ⊆ ref :: rest') : overridesFor (ref :: rest') = [] := by
  rw [overridesFor_eq_nil_iff] at exhausted ⊢
  intro pos ev found
  have before := untried_eq_none_iff.mp (exhausted pos ev found)
  rw [untried_eq_none_iff]
  intro several idx nonneg bound
  exact tried_of_subset subset (before several idx nonneg bound)

namespace InputTreeTracker

variable (t : InputTreeTracker κ)

@[simp]
theorem sequences_newInputTreeTracker (snapID : String) :
    (newInputTreeTracker : InputTreeTracker κ).sequences snapID = [] := by
  simp [sequences, newInputTreeTracker]

@[simp]
theorem sequences_recordSequence (seq : ChoiceSequence κ) (snapID : String) :
    (t.recordSequence seq).2.sequences snapID = t.sequences snapID := by
  unfold recordSequence
  split
  · rfl
  · split <;> rfl

theorem sequences_recordFromSnapshot (snapID other : String) (seq : ChoiceSequence κ) :
    (t.recordFromSnapshot snapID seq).sequences other =
      t.sequences other ++ if snapID = other ∧ seq.choices ≠ [] then [seq] else [] := by
  unfold recordFromSnapshot
  by_cases empty : seq.choices = []
  · simp [empty]
  · simp only [List.isEmpty_iff, empty, if_false, sequences, lookup_insert]
    split
    case isTrue same => simp [same, empty]
    case isFalse different => simp [Ne.symm different]

end InputTreeTracker

end OpenThesis.Explorer
