import OpenThesis.EventStore.Log
import OpenThesis.Run.Core

/-!
# Debug sessions

A session (`internal/debugger/session.go`) has a cursor in the steps of a completed run and shows
the events up to it.
-/

namespace OpenThesis.Debugger.Cursor

open Text EventStore List

/-- A cursor that is never beyond the last step of the run. -/
structure Session where
  currentStep : UInt64
  maxStep : UInt64
  inside : currentStep ≤ maxStep

inductive CursorMove where
  | advance (n : UInt64)
  | rewind (n : UInt64)
  | jumpToStep (step : UInt64)

namespace Session

variable (s : Session)

def capped (step : UInt64) : Session where
  currentStep := if step > s.maxStep then s.maxStep else step
  maxStep := s.maxStep
  inside := by
    split_ifs with beyond
    · exact UInt64.le_refl _
    · exact UInt64.not_lt.mp beyond

def rewind (n : UInt64) : Session where
  currentStep := if n ≥ s.currentStep then 0 else s.currentStep - n
  maxStep := s.maxStep
  inside := by
    split_ifs with far
    · exact UInt64.zero_le
    · exact UInt64.le_trans (UInt64.sub_le (UInt64.le_of_lt (UInt64.not_le.mp far))) s.inside

def move : CursorMove → Session
  | .advance n => s.capped (s.currentStep + n)
  | .rewind n => s.rewind n
  | .jumpToStep step => s.capped step

def storeFilter (extra : Filter) : Filter where
  types := extra.types
  container := extra.container
  limit := extra.limit

def events (fits : Bytes → Bool) (file : Option Bytes) (extra : Filter) : List Event :=
  (query fits file (storeFilter extra)).filter (·.step ≤ s.currentStep)

def cursor (maxStep step : Nat) : CursorMove → Nat
  | .advance n => min (step + n.toNat) maxStep
  | .rewind n => step - n.toNat
  | .jumpToStep n => min n.toNat maxStep

def wanted (extra : Filter) (e : Event) : Bool :=
  e.step ≤ s.currentStep && extra.matches e

/-- What a session is to show: the wanted events of the log up to the cursor. -/
def past (fits : Bytes → Bool) (file : Option Bytes) (extra : Filter) : List Event :=
  extra.capped ((logged fits file).filter (s.wanted extra))

def Unwrapped : CursorMove → Prop
  | .advance n => s.currentStep.toNat + n.toNat < 2 ^ 64
  | _ => True

theorem toNat_capped (step : UInt64) :
    (s.capped step).currentStep.toNat = min step.toNat s.maxStep.toNat := by
  rw [capped]
  split_ifs with beyond
  · exact (Nat.min_eq_right (UInt64.lt_iff_toNat_lt.mp beyond).le).symm
  · exact (Nat.min_eq_left (UInt64.le_iff_toNat_le.mp (UInt64.not_lt.mp beyond))).symm

theorem toNat_move_iff (m : CursorMove) :
    (s.move m).currentStep.toNat = cursor s.maxStep.toNat s.currentStep.toNat m ↔
      s.Unwrapped m := by
  have inside := UInt64.le_iff_toNat_le.mp s.inside
  cases m with
  | advance n =>
    have bound := n.toNat_lt
    rw [move, toNat_capped, UInt64.toNat_add, cursor, Unwrapped]
    constructor
    · intro same
      by_contra wraps
      omega
    · intro fitting
      rw [Nat.mod_eq_of_lt fitting]
  | rewind n =>
    refine iff_of_true ?_ trivial
    rw [move, rewind, cursor]
    split_ifs with far
    · exact (Nat.sub_eq_zero_of_le (UInt64.le_iff_toNat_le.mp far)).symm
    · exact UInt64.toNat_sub_of_le _ _ (UInt64.le_of_lt (UInt64.not_le.mp far))
  | jumpToStep step => exact iff_of_true (s.toNat_capped step) trivial

variable (fits : Bytes → Bool) (file : Option Bytes) (extra : Filter)

/-- The logged events of the types and the container that are asked for. -/
def scanned : List Event :=
  (logged fits file).filter (storeFilter extra).matches

/-- The scanned events of the past that are within the limit satisfy the whole filter; and all that
are within the limit are of the past, or none is wanted that is behind it. -/
structure Covered : Prop where
  fields : ∀ e ∈ extra.capped (scanned fits file extra), e.step ≤ s.currentStep → s.wanted extra e
  limit : (∀ e ∈ extra.capped (scanned fits file extra), e.step ≤ s.currentStep) ∨
    ∀ e ∈ (scanned fits file extra).drop (extra.capped (scanned fits file extra)).length,
      ¬ s.wanted extra e

theorem filter_take_eq_iff {α : Type} {p r : α → Bool} {items : List α} {n : Nat}
    (narrower : ∀ a, r a = true → p a = true) : (items.take n).filter p = (items.filter r).take n ↔
      (∀ a ∈ items.take n, p a → r a) ∧
        ((∀ a ∈ items.take n, p a) ∨ ∀ a ∈ items.drop n, ¬ r a) := by
  have split : (items.filter r).take n = (items.take n).filter r ++
      ((items.drop n).filter r).take (n - ((items.take n).filter r).length) := by
    have short : ((items.take n).filter r).length ≤ n :=
      (length_filter_le _ _).trans (length_take_le _ _)
    nth_rewrite 1 [← take_append_drop n items]
    rw [filter_append, take_append, take_of_length_le short]
  have narrowed (fields : ∀ a ∈ items.take n, p a → r a) :
      (items.take n).filter p = (items.take n).filter r :=
    filter_congr fun a inside => Bool.eq_iff_iff.mpr ⟨fields a inside, narrower a⟩
  constructor
  · intro same
    have fields : ∀ a ∈ items.take n, p a → r a := by
      intro a inside isPast
      have kept := mem_filter.mpr ⟨inside, isPast⟩
      rw [same] at kept
      exact (mem_filter.mp (mem_of_mem_take kept)).2
    rw [split, narrowed fields, self_eq_append_right, take_eq_nil_iff,
      Nat.sub_eq_zero_iff_le] at same
    refine ⟨fields, same.imp (fun full a inside => narrower a ?_) filter_eq_nil_iff.mp⟩
    have all := length_filter_eq_length_iff.mp
      (le_antisymm (length_filter_le _ _) ((length_take_le _ _).trans full))
    exact all a inside
  · rintro ⟨fields, limit⟩
    rw [split, narrowed fields, self_eq_append_right, take_eq_nil_iff, Nat.sub_eq_zero_iff_le]
    rcases limit with all | none
    · rw [filter_eq_self.mpr fun a inside => fields a inside (all a inside), length_take]
      rcases le_total n items.length with full | short
      · exact Or.inl (Nat.le_min_of_le_of_le le_rfl full)
      · exact Or.inr (by rw [drop_eq_nil_of_le short, filter_nil])
    · exact Or.inr (filter_eq_nil_iff.mpr none)

theorem capped_eq_take {f : Filter} {events others : List Event}
    (shorter : others.length ≤ events.length) :
    f.capped others = others.take (f.capped events).length := by
  rw [Filter.capped, Filter.capped]
  split_ifs
  · rw [length_take, take_eq_take_iff]
    omega
  · exact (take_of_length_le shorter).symm

theorem storeFilter_matches {e : Event} (whole : extra.matches e = true) :
    (storeFilter extra).matches e = true := by
  simp only [Filter.matches, storeFilter, Bool.and_eq_true] at whole ⊢
  obtain ⟨⟨⟨⟨-, types⟩, container⟩, -⟩, -⟩ := whole
  exact ⟨⟨⟨⟨rfl, types⟩, container⟩, rfl⟩, rfl⟩

theorem events_eq_past_iff :
    s.events fits file extra = s.past fits file extra ↔ s.Covered fits file extra := by
  have wanted : (logged fits file).filter (s.wanted extra) =
      (scanned fits file extra).filter (s.wanted extra) := by
    rw [scanned, filter_filter]
    refine filter_congr fun e _ => ?_
    cases isWanted : s.wanted extra e with
    | false => rfl
    | true => exact (storeFilter_matches extra (Bool.and_eq_true_iff.mp isWanted).2).symm
  have found : s.events fits file extra = ((scanned fits file extra).take
      (extra.capped (scanned fits file extra)).length).filter (·.step ≤ s.currentStep) := by
    rw [← capped_eq_take le_rfl, events, query_eq]
    rfl
  have shown : s.past fits file extra = ((scanned fits file extra).filter (s.wanted extra)).take
      (extra.capped (scanned fits file extra)).length := by
    rw [past, wanted]
    exact capped_eq_take (length_filter_le _ _)
  have narrower (e : Event) (isWanted : s.wanted extra e = true) :
      decide (e.step ≤ s.currentStep) = true :=
    (Bool.and_eq_true_iff.mp isWanted).1
  rw [found, shown, filter_take_eq_iff narrower, ← capped_eq_take le_rfl]
  simp only [decide_eq_true_eq]
  exact ⟨fun ⟨fields, limit⟩ => ⟨fields, limit⟩, fun covered => ⟨covered.fields, covered.limit⟩⟩

def run (moves : List CursorMove) : Session :=
  moves.foldl move s

theorem maxStep_run (moves : List CursorMove) : (s.run moves).maxStep = s.maxStep :=
  Run.view_foldl maxStep (fun _ m => by cases m <;> rfl) s moves

theorem toNat_run_concat_iff {before : List CursorMove} (m : CursorMove)
    (earlier : (s.run before).currentStep.toNat =
      before.foldl (cursor s.maxStep.toNat) s.currentStep.toNat) :
    (s.run (before ++ [m])).currentStep.toNat =
        (before ++ [m]).foldl (cursor s.maxStep.toNat) s.currentStep.toNat ↔
      (s.run before).Unwrapped m := by
  rw [run, foldl_concat, ← run, foldl_concat, ← earlier, ← s.maxStep_run before]
  exact (s.run before).toNat_move_iff m

/-- After each move the cursor is the clamped one if and only if no sum wraps, and the events are
those of the past if and only if the store finds them. -/
theorem shows_past_iff (moves : List CursorMove) :
    (∀ before, before <+: moves → (s.run before).currentStep.toNat =
          before.foldl (cursor s.maxStep.toNat) s.currentStep.toNat) ∧
        (s.run moves).events fits file extra = (s.run moves).past fits file extra ↔
      (∀ before m, before ++ [m] <+: moves → (s.run before).Unwrapped m) ∧
        (s.run moves).Covered fits file extra := by
  refine and_congr ?_ ((s.run moves).events_eq_past_iff fits file extra)
  constructor
  · intro clamped before m inside
    have earlier := clamped before ((prefix_append before [m]).trans inside)
    exact (s.toNat_run_concat_iff m earlier).mp (clamped _ inside)
  · intro unwrapped before inside
    refine Run.holds_of_conditions (motive := fun before => (s.run before).currentStep.toNat =
      before.foldl (cursor s.maxStep.toNat) s.currentStep.toNat) rfl ?_
      fun earlier m part => unwrapped earlier m (part.trans inside)
    exact fun before m earlier => (s.toNat_run_concat_iff m earlier).mpr

/-- A large advance goes back by one step, and an event behind the cursor uses up the limit. -/
theorem advance_wraps :
    let s : Session := ⟨3, 5, by decide⟩
    let file := some (bytes "\x7b\"step\":9\x7d\n\x7b\"step\":1\x7d")
    let moves := [CursorMove.advance (2 ^ 64 - 1)]
    (s.run moves).currentStep = 2 ∧ moves.foldl (cursor 5) 3 = 5 ∧
      (s.events (fun _ => true) file { limit := 1 }).map (·.step) = [] ∧
      (s.past (fun _ => true) file { limit := 1 }).map (·.step) = [1] := by
  decide +kernel

end Session

end OpenThesis.Debugger.Cursor
