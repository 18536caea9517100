import OpenThesis.Explorer.Coverage
import OpenThesis.Run.Core

/-!
# Consistency of the coverage tracker

Along a run a slot is flagged as seen exactly when it has hits, and the edge counter counts such
slots.
-/

namespace OpenThesis.Explorer

open Slots

/-- The operation only adds to the map. -/
def CoverageOp.isUpdate : CoverageOp → Bool
  | .importCorpus _ | .resetBitmap => false
  | _ => true

namespace CoverageTracker

variable {n : Nat} {c : CoverageTracker n}

/-- The maps and the counters agree. -/
structure Consistent (c : CoverageTracker n) : Prop where
  virgin : ∀ i : Fin n, c.virgin.get i = if c.bitmap.get i = 0 then 0xFF else 0
  totalEdges : c.totalEdges.toNat = occupied c.bitmap
  newEdges : c.newEdges ≤ c.totalEdges

namespace Consistent

section

variable (consistent : c.Consistent)

include consistent

theorem virgin_ne_zero_iff (i : Fin n) : c.virgin.get i ≠ 0 ↔ c.bitmap.get i = 0 := by
  rw [consistent.virgin i]
  split
  · rename_i free
    exact iff_of_true (by decide) free
  · rename_i taken
    exact iff_of_false (fun nonzero => nonzero rfl) taken

theorem virgin_eq_iff (i : Fin n) : c.virgin.get i = 0xFF ↔ c.bitmap.get i = 0 := by
  rw [consistent.virgin i]
  split
  · rename_i free
    exact iff_of_true rfl free
  · rename_i taken
    exact iff_of_false (by decide) taken

theorem totalEdges_lt : c.totalEdges.toNat < 2 ^ 63 := by
  rw [consistent.totalEdges]
  exact lt_of_le_of_lt (occupied_le c.bitmap) c.fits

theorem toNat_totalEdges_succ : (c.totalEdges + 1).toNat = c.totalEdges.toNat + 1 := by
  have bound := consistent.totalEdges_lt
  rw [UInt64.toNat_add, UInt64.toNat_one]
  exact Nat.mod_eq_of_lt (by omega)

theorem toNat_newEdges_succ : (c.newEdges + 1).toNat = c.newEdges.toNat + 1 := by
  have bound := consistent.totalEdges_lt
  have below := UInt64.le_iff_toNat_le.mp consistent.newEdges
  rw [UInt64.toNat_add, UInt64.toNat_one]
  exact Nat.mod_eq_of_lt (by omega)

theorem write {next : CoverageTracker n} (i : Fin n)
    {byte : UInt8} (nonzero : byte ≠ 0) (bitmap : next.bitmap = setSlot c.bitmap i byte)
    (virgin : next.virgin = setSlot c.virgin i 0)
    (total : next.totalEdges = if c.bitmap.get i = 0 then c.totalEdges + 1 else c.totalEdges)
    (new : next.newEdges = c.newEdges ∨
      c.bitmap.get i = 0 ∧ next.newEdges = c.newEdges + 1) : next.Consistent := by
  constructor
  case virgin =>
    intro j
    rw [bitmap, virgin, get_setSlot, get_setSlot]
    by_cases written : j = i
    · rw [if_pos written, if_pos written, if_neg nonzero]
    · rw [if_neg written, if_neg written]
      exact consistent.virgin j
  case totalEdges =>
    rw [total, bitmap]
    split
    · rename_i free
      rw [consistent.toNat_totalEdges_succ, consistent.totalEdges,
        occupied_set_of_zero i free nonzero]
    · rename_i taken
      rw [consistent.totalEdges, occupied_set_of_nonzero i taken nonzero]
  case newEdges =>
    have below := UInt64.le_iff_toNat_le.mp consistent.newEdges
    have totalLe : c.totalEdges.toNat ≤ next.totalEdges.toNat := by
      rw [total]
      split
      · rw [consistent.toNat_totalEdges_succ]
        exact Nat.le_succ _
      · exact le_rfl
    rw [UInt64.le_iff_toNat_le]
    rcases new with same | ⟨free, counted⟩
    · rw [same]
      exact le_trans below totalLe
    · rw [counted, total, if_pos free, consistent.toNat_newEdges_succ,
        consistent.toNat_totalEdges_succ]
      exact Nat.succ_le_succ below

theorem congr {next : CoverageTracker n}
    (bitmap : next.bitmap = c.bitmap) (virgin : next.virgin = c.virgin)
    (total : next.totalEdges = c.totalEdges) (new : next.newEdges = c.newEdges) :
    next.Consistent := by
  constructor
  · rw [bitmap, virgin]
    exact consistent.virgin
  · rw [bitmap, total]
    exact consistent.totalEdges
  · rw [total, new]
    exact consistent.newEdges

end

end Consistent

theorem consistent_of_empty (bitmap : c.bitmap = Vector.replicate _ 0)
    (virgin : c.virgin = Vector.replicate _ 0xFF) (total : c.totalEdges = 0)
    (new : c.newEdges = 0) : c.Consistent := by
  constructor
  · intro i
    simp [bitmap, virgin, Vector.get]
  · rw [total, bitmap, occupied_replicate_zero]
    rfl
  · rw [total, new]
    exact UInt64.le_refl 0

theorem consistent_new (size : Int64) : (newCoverageTracker size).Consistent :=
  consistent_of_empty rfl rfl rfl rfl

section

variable (consistent : c.Consistent)

include consistent

theorem hitEdge_of_free {i : Fin n} (free : c.bitmap.get i = 0) (v : UInt8) (foundNew : Bool) :
    hitEdge i v (c, foundNew) =
      ({ c with
         totalEdges := c.totalEdges + 1
         bitmap := setSlot c.bitmap i (saturatingAdd 0 v)
         edgeHits := setSlot c.edgeHits i (c.edgeHits.get i + 1)
         virgin := setSlot c.virgin i 0
         newEdges := c.newEdges + 1
         stepEdgeRarity := c.stepEdgeRarity +
           1 / ((setSlot c.edgeHits i (c.edgeHits.get i + 1)).get i).toFloat }, true) := by
  have unseen : c.virgin.get i ≠ 0 := (consistent.virgin_ne_zero_iff i).mpr free
  simp only [hitEdge, free, if_true, unseen, ne_eq, not_false_eq_true, or_true, and_self]

theorem hitEdge_of_taken {i : Fin n} (taken : c.bitmap.get i ≠ 0) (v : UInt8) (foundNew : Bool) :
    hitEdge i v (c, foundNew) =
      ({ c with
         bitmap := setSlot c.bitmap i (saturatingAdd (c.bitmap.get i) v)
         edgeHits := setSlot c.edgeHits i (c.edgeHits.get i + 1) }, foundNew) := by
  have seen : ¬ c.virgin.get i ≠ 0 := fun unseen =>
    taken ((consistent.virgin_ne_zero_iff i).mp unseen)
  simp only [hitEdge, taken, if_false, seen, false_and]

theorem Consistent.set_virgin {i : Fin n}
    (taken : c.bitmap.get i ≠ 0) : c.virgin = setSlot c.virgin i 0 := by
  have seen := consistent.virgin i
  rw [if_neg taken] at seen
  apply eq_of_get
  intro j
  rw [get_setSlot]
  split
  · rename_i same
    rw [same, seen]
  · rfl

theorem Consistent.le_succ : c.totalEdges ≤ c.totalEdges + 1 := by
  rw [UInt64.le_iff_toNat_le, consistent.toNat_totalEdges_succ]
  exact Nat.le_succ _

end

/-- The next state is consistent and has lost no edges. -/
structure Gains (c next : CoverageTracker n) : Prop where
  consistent : next.Consistent
  corpusEdges : next.corpusEdges = c.corpusEdges
  totalEdges : c.totalEdges ≤ next.totalEdges

theorem Gains.trans {between next : CoverageTracker n} (first : Gains c between)
    (second : Gains between next) : Gains c next :=
  ⟨second.consistent, second.corpusEdges.trans first.corpusEdges,
    UInt64.le_trans first.totalEdges second.totalEdges⟩

theorem Gains.countExplored {answer : CoverageTracker n × Bool} (gains : Gains c answer.1) :
    Gains c (countExplored answer).1 := by
  rcases answer with ⟨next, novel⟩
  cases novel with
  | true => exact ⟨gains.consistent.congr rfl rfl rfl rfl, gains.corpusEdges, gains.totalEdges⟩
  | false => exact gains

section

variable (consistent : c.Consistent)

include consistent

theorem gains_self : Gains c c :=
  ⟨consistent, rfl, UInt64.le_refl _⟩

theorem gains_hitEdge (i : Fin n) {v : UInt8} (nonzero : v ≠ 0) (foundNew : Bool) :
    Gains c (hitEdge i v (c, foundNew)).1 := by
  by_cases free : c.bitmap.get i = 0
  · rw [hitEdge_of_free consistent free]
    refine ⟨?_, rfl, consistent.le_succ⟩
    exact consistent.write i (saturatingAdd_ne_zero 0 nonzero) rfl rfl (if_pos free).symm
      (Or.inr ⟨free, rfl⟩)
  · rw [hitEdge_of_taken consistent free]
    refine ⟨?_, rfl, UInt64.le_refl _⟩
    exact consistent.write i (saturatingAdd_ne_zero _ nonzero) rfl (consistent.set_virgin free)
      (if_neg free).symm (Or.inl rfl)

theorem gains_update (edges : List UInt8) : Gains c (c.update edges).1 := by
  apply @sweep_invariant _ _ hitEdge fun s : CoverageTracker n × Bool => Gains c s.1
  · rintro slot byte ⟨between, foundNew⟩ nonzero gains
    exact gains.trans (gains_hitEdge gains.consistent slot nonzero foundNew)
  · exact gains_self consistent

theorem gains_markNovel (hash : UInt64) : Gains c (c.markNovel hash).1 := by
  simp only [markNovel]
  split
  · rename_i unseen
    have free := (consistent.virgin_eq_iff _).mp unseen
    refine ⟨?_, rfl, consistent.le_succ⟩
    exact consistent.write (c.slotOf hash) (by decide) rfl rfl (if_pos free).symm
      (Or.inr ⟨free, rfl⟩)
  · exact gains_self consistent

theorem gains_updateGuidance (guidanceType name : String) (value : Int64) :
    Gains c (c.updateGuidance guidanceType name value).1 := by
  simp only [updateGuidance]
  split
  · exact (gains_markNovel consistent _).countExplored
  · split
    · split
      · exact gains_self consistent
      · refine Gains.trans ?_ (gains_markNovel ?_ _)
        · exact ⟨consistent.congr rfl rfl rfl rfl, rfl, UInt64.le_refl _⟩
        · exact consistent.congr rfl rfl rfl rfl
    · exact gains_self consistent

theorem gains_recordAssertionNovelty (key : String) :
    Gains c (c.recordAssertionNovelty key).1 := by
  simp only [recordAssertionNovelty]
  split
  · exact gains_self consistent
  · refine Gains.trans ?_ (gains_markNovel ?_ _)
    · exact ⟨consistent.congr rfl rfl rfl rfl, rfl, UInt64.le_refl _⟩
    · exact consistent.congr rfl rfl rfl rfl

theorem gains_apply {op : CoverageOp} (isUpdate : op.isUpdate) : Gains c (c.apply op) := by
  cases op with
  | update edges => exact gains_update consistent edges
  | updateGuidance guidanceType name value =>
    exact gains_updateGuidance consistent guidanceType name value
  | recordRandomBranch => exact (gains_markNovel consistent _).countExplored
  | recordAssertionNovelty key => exact gains_recordAssertionNovelty consistent key
  | importCorpus | resetBitmap => contradiction
  | resetStepNovelty | clearStepAssertionNovelty =>
    exact ⟨consistent.congr rfl rfl rfl rfl, rfl, UInt64.le_refl _⟩

theorem consistent_importCorpus (corpus : Option Corpus) : (c.importCorpus corpus).Consistent := by
  cases corpus with
  | none => exact consistent
  | some corpus =>
    have merged : (sweep importEdge 0 corpus.bitmap c).Consistent := by
      apply @sweep_invariant _ _ importEdge fun c : CoverageTracker n => c.Consistent
      · intro slot byte c nonzero kept
        exact kept.write slot (saturatingAdd_ne_zero _ nonzero) rfl rfl rfl (Or.inl rfl)
      · exact consistent
    exact merged.congr rfl rfl rfl rfl

theorem consistent_apply (op : CoverageOp) : (c.apply op).Consistent := by
  cases op with
  | importCorpus corpus => exact consistent_importCorpus consistent corpus
  | resetBitmap => exact consistent_of_empty rfl rfl rfl rfl
  | _ => exact (gains_apply consistent rfl).consistent

end

theorem consistent_run (size : Int64) (ops : List CoverageOp) :
    ((newCoverageTracker size).run ops).Consistent :=
  List.foldlRecOn (motive := Consistent) ops apply (consistent_new size)
    fun _ kept op _ => consistent_apply kept op

/-- In every state of every run a slot is flagged as seen exactly when it has hits, the edge counter
is the number of slots with hits, and the number of new edges does not exceed it. -/
theorem slots_and_counters_agree (size : Int64) (ops : List CoverageOp) :
    let c := (newCoverageTracker size).run ops
    (∀ i : Fin (mapSize size),
      (c.virgin.get i = 0 ↔ c.bitmap.get i ≠ 0) ∧ (c.bitmap.get i = 0 → c.virgin.get i = 0xFF)) ∧
      c.totalEdges.toNat = occupied c.bitmap ∧ c.newEdges ≤ c.totalEdges := by
  intro c
  have consistent : c.Consistent := consistent_run size ops
  refine ⟨fun i => ⟨?_, (consistent.virgin_eq_iff i).mpr⟩, consistent.totalEdges,
    consistent.newEdges⟩
  rw [← not_iff_not, not_not]
  exact consistent.virgin_ne_zero_iff i

/-- The edges of the corpus are among those counted, so that subtracting them
does not wrap. -/
def CoversCorpus (c : CoverageTracker n) : Prop :=
  c.corpusEdges ≤ c.totalEdges ∧
    (newEdgesThisRun c.exportCorpus).toNat + c.corpusEdges.toNat = c.totalEdges.toNat

theorem coversCorpus_iff (c : CoverageTracker n) :
    c.CoversCorpus ↔ c.corpusEdges ≤ c.totalEdges := by
  refine and_iff_left_of_imp fun below => ?_
  have below' := UInt64.le_iff_toNat_le.mp below
  have exported : newEdgesThisRun c.exportCorpus = c.totalEdges - c.corpusEdges := rfl
  rw [exported, UInt64.toNat_sub_of_le _ _ below, Nat.sub_add_cancel below']

theorem Gains.coversCorpus {next : CoverageTracker n} (gains : Gains c next)
    (covers : c.CoversCorpus) : next.CoversCorpus := by
  rw [coversCorpus_iff] at covers ⊢
  rw [gains.corpusEdges]
  exact UInt64.le_trans covers gains.totalEdges

theorem coversCorpus_importCorpus (covers : c.CoversCorpus) (corpus : Option Corpus) :
    (c.importCorpus corpus).CoversCorpus := by
  cases corpus with
  | none => exact covers
  | some corpus =>
    rw [coversCorpus_iff]
    exact UInt64.le_refl _

def KeepsBaseline (c : CoverageTracker n) : CoverageOp → Prop
  | .resetBitmap => c.corpusEdges = 0
  | _ => True

theorem coversCorpus_apply_iff (consistent : c.Consistent) (covers : c.CoversCorpus)
    (op : CoverageOp) : (c.apply op).CoversCorpus ↔ c.KeepsBaseline op := by
  cases op with
  | importCorpus corpus => exact iff_of_true (coversCorpus_importCorpus covers corpus) trivial
  | resetBitmap =>
    rw [coversCorpus_iff]
    exact UInt64.le_zero_iff
  | _ => exact iff_of_true ((gains_apply consistent rfl).coversCorpus covers) trivial

/-- The corpus is covered in all states of a run exactly when every reset comes while no edges are
in the baseline. -/
theorem covers_corpus_iff_no_late_reset (size : Int64) (ops : List CoverageOp) :
    (∀ before, before <+: ops → ((newCoverageTracker size).run before).CoversCorpus) ↔
      ∀ before op, before ++ [op] <+: ops →
        ((newCoverageTracker size).run before).KeepsBaseline op := by
  apply Run.forall_states_iff (consistent_run size)
  · rw [coversCorpus_iff]
    exact UInt64.le_refl 0
  · intro c op consistent covers
    exact coversCorpus_apply_iff consistent covers op

/-- A corpus with one edge, and a reset: the difference wraps. -/
theorem corpus_difference_wraps :
    let c := (newCoverageTracker 4).run
      [.importCorpus (some ⟨[1], 1, 0, ∅, []⟩), .resetBitmap]
    c.totalEdges = 0 ∧ c.corpusEdges = 1 ∧
      newEdgesThisRun c.exportCorpus = 18446744073709551615 ∧ ¬ c.CoversCorpus := by
  intro c
  rw [coversCorpus_iff]
  decide

end CoverageTracker

end OpenThesis.Explorer
