import OpenThesis.Explorer.Novelty

/-!
# A corpus across runs

A run loads a corpus (`New`), resets the bitmap (`explore`) and saves a corpus (`SaveCorpus`).
-/

namespace OpenThesis.Explorer

open Slots

/-- Each slot with hits has hits again, each assertion is there again, and there are not fewer
edges. -/
structure Corpus.Kept (corpus saved : Corpus) : Prop where
  bitmap : ∀ i, byteAt corpus.bitmap i ≠ 0 → byteAt saved.bitmap i ≠ 0
  seenAsserts : ∀ key ∈ corpus.seenAsserts, key ∈ saved.seenAsserts
  totalEdges : corpus.totalEdges ≤ saved.totalEdges

namespace CoverageTracker

variable {n : Nat} {c : CoverageTracker n}

/-- The operation hits the slot. A maximum that is not exceeded hits nothing, nor does an assertion
seen before. -/
def Hits (c : CoverageTracker n) : CoverageOp → Fin n → Prop
  | .update edges, slot => byteAt edges slot ≠ 0
  | .updateGuidance guidanceType name value, slot =>
    if guidanceType = "explore" then c.slotOf (fnvHash name value) = slot
    else
      guidanceType = "maximize" ∧ ¬ (c.maxMap[name]?).any (fun old => value ≤ old) ∧
        c.slotOf (fnvHash ("max:" ++ name) (bucketInt64 value)) = slot
  | .recordRandomBranch chosenIndex totalChoices, slot =>
    c.slotOf (chosenIndex.toUInt64 * 2654435761 ^^^ totalChoices.toUInt64) = slot
  | .recordAssertionNovelty key, slot =>
    key ∉ c.seenAsserts ∧ c.slotOf (fnvHashString ("assert:" ++ key)) = slot
  | _, _ => False

def HitDuring : CoverageTracker n → List CoverageOp → Fin n → Prop
  | _, [], _ => False
  | c, op :: ops, slot => c.Hits op slot ∨ (c.apply op).HitDuring ops slot

theorem update_hits (edges : List UInt8) (slot : Fin n) :
    (c.update edges).1.bitmap.get slot ≠ 0 ↔ c.bitmap.get slot ≠ 0 ∨ byteAt edges slot ≠ 0 := by
  rw [update_bitmap, ne_eq, saturatingAdd_eq_zero_iff, not_and_or]

theorem markNovel_hits (consistent : c.Consistent) (hash : UInt64) (slot : Fin n) :
    (c.markNovel hash).1.bitmap.get slot ≠ 0 ↔ c.bitmap.get slot ≠ 0 ∨ c.slotOf hash = slot := by
  simp only [markNovel]
  split
  · simp only [get_setSlot]
    by_cases same : slot = c.slotOf hash
    · simp [same]
    · simp [same, eq_comm]
  · rename_i seen
    rw [consistent.virgin_eq_iff] at seen
    constructor
    · exact Or.inl
    · rintro (taken | rfl)
      · exact taken
      · exact seen

theorem bitmap_countExplored (answer : CoverageTracker n × Bool) :
    (countExplored answer).1.bitmap = answer.1.bitmap := by
  obtain ⟨c, novel⟩ := answer
  cases novel with
  | true | false => rfl

theorem apply_hits (consistent : c.Consistent) {op : CoverageOp} (isUpdate : op.isUpdate)
    (slot : Fin n) : (c.apply op).bitmap.get slot ≠ 0 ↔ c.bitmap.get slot ≠ 0 ∨ c.Hits op slot := by
  cases op with
  | update edges => exact update_hits edges slot
  | updateGuidance guidanceType name value =>
    simp only [apply, updateGuidance, Hits]
    split_ifs with explore maximize low
    · rw [bitmap_countExplored]
      exact markNovel_hits consistent _ slot
    · simp [low]
    · have marked := markNovel_hits (c := { c with
          maxMap := c.maxMap.insert name value, stepNewMax := c.stepNewMax + 1 })
        (consistent.congr rfl rfl rfl rfl) (fnvHash ("max:" ++ name) (bucketInt64 value)) slot
      exact marked.trans (or_congr_right ⟨fun same => ⟨maximize, low, same⟩, fun same => same.2.2⟩)
    · simp [maximize]
  | recordRandomBranch chosenIndex totalChoices =>
    simp only [apply, recordRandomBranch, bitmap_countExplored, Hits]
    exact markNovel_hits consistent _ slot
  | recordAssertionNovelty key =>
    simp only [apply, recordAssertionNovelty, Hits]
    split_ifs with seen
    · simp [seen]
    · have marked := markNovel_hits (c := { c with
          seenAsserts := c.seenAsserts.insert key
          stepNewAsserts := c.stepNewAsserts + 1
          assertionNoveltyCount := c.assertionNoveltyCount + 1 })
        (consistent.congr rfl rfl rfl rfl) (fnvHashString ("assert:" ++ key)) slot
      exact marked.trans (or_congr_right ⟨fun same => ⟨seen, same⟩, fun same => same.2⟩)
  | importCorpus corpus | resetBitmap => contradiction
  | resetStepNovelty | clearStepAssertionNovelty => exact (or_false _).symm ▸ Iff.rfl

theorem run_hits (consistent : c.Consistent) {ops : List CoverageOp}
    (updates : ∀ op ∈ ops, op.isUpdate) (slot : Fin n) :
    (c.run ops).bitmap.get slot ≠ 0 ↔ c.bitmap.get slot ≠ 0 ∨ c.HitDuring ops slot := by
  induction ops generalizing c with
  | nil => simp [HitDuring]
  | cons op ops ih =>
    rw [List.forall_mem_cons] at updates
    rw [run_cons, ih (consistent_apply consistent op) updates.2,
      apply_hits consistent updates.1, HitDuring, or_assoc]

theorem mem_foldl_insert (key : String) (keys : List String) (seen : Std.ExtTreeSet String) :
    key ∈ keys.foldl (fun seen key => seen.insert key) seen ↔ key ∈ keys ∨ key ∈ seen := by
  induction keys generalizing seen with
  | nil => simp
  | cons first keys ih =>
    rw [List.foldl_cons, ih, List.mem_cons, Std.ExtTreeSet.mem_insert,
      Std.LawfulEqCmp.compare_eq_iff_eq]
    tauto

theorem seenAsserts_markNovel (hash : UInt64) :
    (c.markNovel hash).1.seenAsserts = c.seenAsserts := by
  simp only [markNovel]
  split
  · rfl
  · rfl

theorem seenAsserts_countExplored (answer : CoverageTracker n × Bool) :
    (countExplored answer).1.seenAsserts = answer.1.seenAsserts := by
  obtain ⟨c, novel⟩ := answer
  cases novel with
  | true | false => rfl

theorem seenAsserts_update (edges : List UInt8) :
    (c.update edges).1.seenAsserts = c.seenAsserts := by
  apply @sweep_invariant _ _ hitEdge
    fun s : CoverageTracker n × Bool => s.1.seenAsserts = c.seenAsserts
  · rintro slot byte ⟨between, foundNew⟩ _ kept
    simp only [hitEdge]
    split
    · exact kept
    · exact kept
  · rfl

theorem mem_seenAsserts_importCorpus (corpus : Corpus) (key : String) :
    key ∈ (c.importCorpus (some corpus)).seenAsserts ↔
      key ∈ corpus.seenAsserts ∨ key ∈ c.seenAsserts := by
  have swept : (sweep importEdge 0 corpus.bitmap c).seenAsserts = c.seenAsserts := by
    apply @sweep_invariant _ _ importEdge
      fun between : CoverageTracker n => between.seenAsserts = c.seenAsserts
    · exact fun slot byte between _ kept => kept
    · rfl
  simp only [importCorpus, mem_foldl_insert, swept]

theorem mem_seenAsserts_apply {key : String} (seen : key ∈ c.seenAsserts) (op : CoverageOp) :
    key ∈ (c.apply op).seenAsserts := by
  cases op with
  | update edges => exact (seenAsserts_update edges).symm ▸ seen
  | updateGuidance guidanceType name value =>
    simp only [apply, updateGuidance]
    split_ifs
    · rw [seenAsserts_countExplored, seenAsserts_markNovel]
      exact seen
    · exact seen
    · rw [seenAsserts_markNovel]
      exact seen
    · exact seen
  | recordRandomBranch chosenIndex totalChoices =>
    simp only [apply, recordRandomBranch, seenAsserts_countExplored, seenAsserts_markNovel]
    exact seen
  | recordAssertionNovelty key' =>
    simp only [apply, recordAssertionNovelty]
    split_ifs
    · exact seen
    · rw [seenAsserts_markNovel]
      exact Std.ExtTreeSet.mem_insert.mpr (.inr seen)
  | importCorpus corpus =>
    cases corpus with
    | none => exact seen
    | some corpus => exact (mem_seenAsserts_importCorpus corpus key).mpr (.inr seen)
  | resetBitmap | resetStepNovelty | clearStepAssertionNovelty => exact seen

theorem mem_seenAsserts_run {key : String} (seen : key ∈ c.seenAsserts) (ops : List CoverageOp) :
    key ∈ (c.run ops).seenAsserts :=
  List.foldlRecOn (motive := fun c : CoverageTracker n => key ∈ c.seenAsserts) ops apply seen
    fun _ kept op _ => mem_seenAsserts_apply kept op

theorem byteAt_exportCorpus (i : Nat) :
    byteAt c.exportCorpus.bitmap i ≠ 0 ↔ ∃ slot : Fin n, slot.val = i ∧ c.bitmap.get slot ≠ 0 := by
  simp only [exportCorpus, byteAt]
  by_cases inside : i < n
  · have read : c.bitmap.toList[i]? = some (c.bitmap.get ⟨i, inside⟩) := by
      simp [Vector.get, inside]
    rw [read, Option.getD_some]
    constructor
    · intro taken
      exact ⟨⟨i, inside⟩, rfl, taken⟩
    · rintro ⟨slot, rfl, taken⟩
      exact taken
  · have beyond : c.bitmap.toList[i]? = none := by
      simp only [List.getElem?_eq_none_iff, Vector.length_toList]
      omega
    rw [beyond]
    constructor
    · intro impossible
      exact absurd rfl impossible
    · rintro ⟨slot, rfl, _⟩
      exact absurd slot.isLt inside

def loaded (size : Int64) (corpus : Corpus) (setup : List CoverageOp) :
    CoverageTracker (mapSize size) :=
  ((newCoverageTracker size).run (.importCorpus (some corpus) :: setup)).resetBitmap

theorem consistent_loaded (size : Int64) (corpus : Corpus) (setup : List CoverageOp) :
    (loaded size corpus setup).Consistent :=
  consistent_apply (consistent_run size _) .resetBitmap

theorem mem_seenAsserts_loaded (size : Int64) {corpus : Corpus} (setup : List CoverageOp)
    {key : String} (loadedKey : key ∈ corpus.seenAsserts) :
    key ∈ (loaded size corpus setup).seenAsserts := by
  apply mem_seenAsserts_run (c := (newCoverageTracker size).importCorpus (some corpus))
  exact (mem_seenAsserts_importCorpus corpus key).mpr (.inl loadedKey)

theorem run_loaded_hits (size : Int64) (corpus : Corpus) (setup : List CoverageOp)
    {updates : List CoverageOp} (areUpdates : ∀ op ∈ updates, op.isUpdate)
    (slot : Fin (mapSize size)) : ((loaded size corpus setup).run updates).bitmap.get slot ≠ 0 ↔
      (loaded size corpus setup).HitDuring updates slot := by
  rw [run_hits (consistent_loaded size corpus setup) areUpdates slot]
  have cleared : (loaded size corpus setup).bitmap.get slot = 0 := by
    simp [loaded, resetBitmap, Vector.get]
  simp [cleared]

/-- A run keeps its corpus exactly if it hits every slot of the corpus again after the reset, and at
least as many slots as the corpus has edges. -/
theorem corpus_kept_iff (size : Int64) (corpus : Corpus) (setup updates : List CoverageOp)
    (areUpdates : ∀ op ∈ updates, op.isUpdate) :
    corpus.Kept ((loaded size corpus setup).run updates).exportCorpus ↔
      (∀ i, byteAt corpus.bitmap i ≠ 0 →
        ∃ slot : Fin (mapSize size), slot.val = i ∧
          (loaded size corpus setup).HitDuring updates slot) ∧
      corpus.totalEdges.toNat ≤
        {slot | (loaded size corpus setup).HitDuring updates slot}.ncard := by
  have hits := run_loaded_hits size corpus setup areUpdates
  have consistent : ((loaded size corpus setup).run updates).Consistent :=
    List.foldlRecOn (motive := Consistent) updates apply (consistent_loaded size corpus setup)
      fun _ kept op _ => consistent_apply kept op
  have total := consistent.totalEdges
  rw [occupied_eq_ncard] at total
  simp only [hits] at total
  rw [← total, ← UInt64.le_iff_toNat_le]
  constructor
  · intro kept
    constructor
    · intro i taken
      have saved := kept.bitmap i taken
      simpa only [byteAt_exportCorpus, hits] using saved
    · exact kept.totalEdges
  · rintro ⟨again, total⟩
    constructor
    · intro i taken
      simpa only [byteAt_exportCorpus, hits] using again i taken
    · intro key loadedKey
      have seen := mem_seenAsserts_run (mem_seenAsserts_loaded size setup loadedKey) updates
      exact Std.ExtTreeSet.mem_toList.mpr seen
    · exact total

def oneEdge : Corpus :=
  ⟨[1], 1, 0, ∅, ["reached"]⟩

theorem corpus_kept_when_hit_again :
    oneEdge.Kept ((loaded 1 oneEdge []).run [.update [1]]).exportCorpus := by
  apply (corpus_kept_iff 1 oneEdge [] [.update [1]] (by simp [CoverageOp.isUpdate])).mpr
  have hit : (loaded 1 oneEdge []).HitDuring [.update [1]] ⟨0, mapSize_pos 1⟩ := by
    simp [HitDuring, Hits]
  constructor
  · intro i taken
    cases i with
    | zero => exact ⟨⟨0, mapSize_pos 1⟩, rfl, hit⟩
    | succ i => exact absurd rfl taken
  · exact (Set.ncard_pos (Set.toFinite _)).mpr ⟨_, hit⟩

/-- A run without updates saves a corpus without the edge. -/
theorem corpus_lost_without_updates :
    byteAt oneEdge.bitmap 0 = 1 ∧ oneEdge.totalEdges = 1 ∧
      ((loaded 1 oneEdge []).run []).exportCorpus.bitmap = [0] ∧
      ((loaded 1 oneEdge []).run []).exportCorpus.totalEdges = 0 ∧
      ¬ oneEdge.Kept ((loaded 1 oneEdge []).run []).exportCorpus := by
  refine ⟨rfl, rfl, rfl, rfl, ?_⟩
  intro kept
  exact kept.bitmap 0 (by decide) rfl

end CoverageTracker

end OpenThesis.Explorer
