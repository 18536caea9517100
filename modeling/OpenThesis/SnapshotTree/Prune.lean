import OpenThesis.SnapshotTree.Run

/-!
# Exactness of `Prune`

`Needed` says what the collector is for: the root and the live ancestors of the live frontier.
-/

namespace OpenThesis.SnapshotTree

open Forest Keyed

def Needed (t : Tree) (frontierIDs : List ID) (id : ID) : Prop :=
  id ∈ t.snapshots ∧
    (id = rootID ∨ ∃ frontier ∈ frontierIDs,
      frontier ∈ t.snapshots ∧ AncestorOrSelf t.parent? id frontier)

/-- Which nodes survive `Prune`, which hypervisor identifiers are handed out for deletion, and what
stays as it was. -/
structure PruneExact (t : Tree) (frontierIDs removed deleted : List ID) (next : Tree) :
    Prop where
  kept : ∀ id, id ∈ next.snapshots ↔ Needed t frontierIDs id
  ascending : removed.Pairwise (· < ·)
  mem_removed : ∀ id, id ∈ removed ↔ id ∈ t.snapshots ∧ id ∉ next.snapshots
  deleted : deleted.map some =
    removed.map fun id => (t.snapshots[id]?).map (·.hypervisorID)
  fields : ∀ ⦃id : ID⦄ ⦃snap : Snapshot⦄, next.snapshots[id]? = some snap →
    ∃ before, t.snapshots[id]? = some before ∧
      snap = { before with children := before.children.filter fun child => child ∉ removed }
  history : next.history = t.history
  nextID : next.nextID = t.nextID
  current : next.current = if t.current ∈ removed then rootID else t.current

theorem mem_pruned (t : Tree) (frontierIDs : List ID) (id : ID) : id ∈ t.pruned frontierIDs ↔
      id ∈ t.snapshots ∧ id ≠ rootID ∧ id ∉ t.pruneKeep frontierIDs := by
  rw [Tree.pruned, List.mem_filter, mem_keys_iff, decide_eq_true_eq]

theorem needed_iff (t : Tree) (frontierIDs : List ID) (id : ID) :
    Needed t frontierIDs id ↔ id ∈ t.snapshots ∧ id ∉ t.pruned frontierIDs := by
  have marked : id ∈ t.snapshots → (id ∈ t.pruneKeep frontierIDs ↔
      id = rootID ∨ ∃ frontier ∈ frontierIDs,
        frontier ∈ t.snapshots ∧ AncestorOrSelf t.parent? id frontier) := by
    intro live
    rw [mem_pruneKeep]
    apply or_congr_right
    constructor
    · rintro ⟨frontier, member, walk⟩
      refine ⟨frontier, member, ?_, walk⟩
      by_contra missing
      have gone := not_mem_iff_lookup.mp missing
      rw [ancestorOrSelf_of_missing gone] at walk
      exact missing (walk ▸ live)
    · rintro ⟨frontier, member, -, walk⟩
      exact ⟨frontier, member, walk⟩
  have rootMarked : rootID ∈ t.pruneKeep frontierIDs :=
    (mem_pruneKeep t frontierIDs rootID).mpr (Or.inl rfl)
  constructor
  · rintro ⟨live, reason⟩
    constructor
    · exact live
    · intro pruned
      exact ((mem_pruned t frontierIDs id).mp pruned).2.2 ((marked live).mpr reason)
  · rintro ⟨live, notPruned⟩
    constructor
    · exact live
    · apply (marked live).mp
      by_contra unmarked
      apply notPruned
      apply (mem_pruned t frontierIDs id).mpr
      refine ⟨live, ?_, unmarked⟩
      rintro rfl
      exact unmarked rootMarked

theorem hypervisorIDs_map_some (t : Tree) {ids : List ID} (live : ∀ id ∈ ids, id ∈ t.snapshots) :
    (t.hypervisorIDs ids).map some = ids.map fun id => (t.snapshots[id]?).map (·.hypervisorID) := by
  induction ids with
  | nil => rfl
  | cons id ids ih =>
    have rest := ih fun other member => live other (List.mem_cons_of_mem _ member)
    rcases mem_iff_lookup.mp (live id List.mem_cons_self) with ⟨snap, found⟩
    have head : t.hypervisorIDs (id :: ids) = snap.hypervisorID :: t.hypervisorIDs ids := by
      simp [Tree.hypervisorIDs, found]
    rw [head, List.map_cons, List.map_cons, rest, found, Option.map_some]

theorem pruneExact_of_listed {t : Tree} (listed : Listed t)
    (currentLive : t.current ∈ t.snapshots) (frontierIDs : List ID) :
    PruneExact t frontierIDs (t.pruned frontierIDs) (t.prune frontierIDs).1
      (t.prune frontierIDs).2 := by
  have survives : ∀ id, id ∈ (t.prune frontierIDs).2.snapshots ↔
      id ∈ t.snapshots ∧ id ∉ t.pruned frontierIDs := by
    intro id
    simp only [Tree.prune, resetCurrent_snapshots]
    exact mem_removeNodes listed _ id
  constructor
  · intro id
    rw [survives, needed_iff]
  · exact (keys_ascending t).filter _
  · intro id
    rw [survives]
    constructor
    · intro pruned
      have live := ((mem_pruned t frontierIDs id).mp pruned).1
      exact ⟨live, fun kept => kept.2 pruned⟩
    · rintro ⟨live, notKept⟩
      by_contra notPruned
      exact notKept ⟨live, notPruned⟩
  · apply hypervisorIDs_map_some
    intro id pruned
    exact ((mem_pruned t frontierIDs id).mp pruned).1
  · intro id snap found
    simp only [Tree.prune, resetCurrent_snapshots, removeNodes_lookup listed] at found
    split at found
    · contradiction
    · rcases Option.map_eq_some_iff.mp found with ⟨before, live, rfl⟩
      exact ⟨before, live, rfl⟩
  · simp only [Tree.prune, resetCurrent_history, removeNodes_history]
  · simp only [Tree.prune, resetCurrent_nextID, removeNodes_nextID]
  · simp only [Tree.prune, resetCurrent_current, removeNodes_current, mem_removeNodes listed]
    by_cases pruned : t.current ∈ t.pruned frontierIDs
    · simp [pruned]
    · simp [pruned, currentLive]

/-- `Prune` is exact after every run of tree operations, evictions included. -/
theorem prune_exact (ops : List Op) (frontierIDs : List ID) :
    ∃ removed, PruneExact (newTree.applyAll ops) frontierIDs removed
      ((newTree.applyAll ops).prune frontierIDs).1
      ((newTree.applyAll ops).prune frontierIDs).2 := by
  have sound := sound_applyAll ops
  exact ⟨_, pruneExact_of_listed sound.listed sound.currentLive frontierIDs⟩

end OpenThesis.SnapshotTree
