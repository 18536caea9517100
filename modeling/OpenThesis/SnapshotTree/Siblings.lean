import Mathlib.Data.List.Sort
import OpenThesis.SnapshotTree.Path

/-!
# Siblings

The children of a node are those ever created under it that are still live.
-/

namespace OpenThesis.SnapshotTree

open Keyed List

def Tree.children (t : Tree) (id : ID) : Except String (List ID) :=
  match t.snapshots[id]? with
  | none => .error s!"tree children {id}: {errNotFound}"
  | some snap => .ok snap.children

def createdChildren (history : List NodeInfo) (id : ID) : List ID :=
  (history.filter fun info => info.id ≠ rootID ∧ info.parentID = id).map (·.id)

section

variable {history : List NodeInfo} (log : Log history) {id child : ID}

include log

theorem Log.mem_createdChildren :
    child ∈ createdChildren history id ↔ recordedParent history child = some id := by
  rw [log.recordedParent_eq_some_iff]
  simp only [createdChildren, mem_map, mem_filter, decide_eq_true_eq]
  constructor
  · rintro ⟨info, ⟨mem, notRoot, under⟩, rfl⟩
    obtain ⟨i, entry⟩ := List.getElem?_of_mem mem
    refine ⟨notRoot, info, ?_, under⟩
    rwa [log.ids entry]
  · rintro ⟨notRoot, info, entry, under⟩
    have same := log.ids entry
    exact ⟨info, ⟨mem_of_getElem? entry, same ▸ notRoot, under⟩, same⟩

theorem Log.ascending_createdChildren : (createdChildren history id).Pairwise (· < ·) := by
  rw [createdChildren, pairwise_map]
  refine List.Pairwise.filter _ (pairwise_iff_getElem.mpr ?_)
  intro i j inI inJ less
  rw [log.ids (List.getElem?_eq_getElem inI), log.ids (List.getElem?_eq_getElem inJ)]
  exact less

end

def Ascending (t : Tree) : Prop :=
  ∀ ⦃id : ID⦄ ⦃snap : Snapshot⦄, t.snapshots[id]? = some snap →
    snap.children.Pairwise (· < ·)

theorem ascending_newTree : Ascending newTree := by
  intro id snap live
  rw [newTree_lookup] at live
  split at live
  · cases live
    exact Pairwise.nil
  · contradiction

theorem Change.ascending {t next : Tree} (change : Change t next) (sound : Sound t)
    (ascending : Ascending t) : Ascending next := by
  cases change with
  | none => exact ascending
  | @grow _ parent snap grows =>
    intro id found live
    rcases grows.lookup_cases live with ⟨-, rfl⟩ | ⟨before, beforeLive, -, rfl⟩
    · rw [grows.childless]
      exact Pairwise.nil
    · dsimp only
      split_ifs
      -- the new child is younger than all the others
      · refine pairwise_append.mpr
          ⟨ascending beforeLive, pairwise_singleton _ _, ?_⟩
        intro older mem new isNew
        obtain ⟨-, olderSnap, olderLive, -⟩ := sound.listed.child beforeLive mem
        rw [mem_singleton.mp isNew, grows.id]
        exact sound.logged.lt_nextID olderLive
      · exact ascending beforeLive
  | move live => exact ascending
  | collect rootKept =>
    intro id snap live
    rw [resetCurrent_snapshots, removeNodes_lookup sound.listed] at live
    split at live
    · contradiction
    · obtain ⟨before, beforeLive, rfl⟩ := Option.map_eq_some_iff.mp live
      exact (ascending beforeLive).filter _

theorem ascending_applyAll (ops : List Op) : Ascending (newTree.applyAll ops) := by
  have both : Sound (newTree.applyAll ops) ∧ Ascending (newTree.applyAll ops) := by
    apply applyAll_invariant (motive := fun t => Sound t ∧ Ascending t)
    · exact ⟨sound_newTree, ascending_newTree⟩
    · rintro t op - ⟨sound, ascending⟩
      have change := change_apply t op
      exact ⟨change.sound sound, change.ascending sound ascending⟩
  exact both.2

theorem Sound.children_eq {t : Tree} (sound : Sound t) (ascending : Ascending t) {id : ID}
    {snap : Snapshot} (live : t.snapshots[id]? = some snap) :
    snap.children = (createdChildren t.history id).filter (· ∈ t.snapshots) := by
  have log := sound.logged.log
  refine List.Pairwise.eq_of_mem_iff (ascending live) (log.ascending_createdChildren.filter _) ?_
  intro child
  rw [mem_filter, decide_eq_true_eq, log.mem_createdChildren, log.recordedParent_eq_some_iff]
  constructor
  · intro mem
    obtain ⟨notRoot, childSnap, childLive, under⟩ := sound.listed.child live mem
    obtain ⟨info, entry, -, parentEq, -⟩ := sound.logged.recorded childLive
    exact ⟨⟨notRoot, info, entry, parentEq.symm.trans under⟩,
      mem_iff_lookup.mpr ⟨childSnap, childLive⟩⟩
  · rintro ⟨⟨notRoot, info, entry, under⟩, childLive⟩
    obtain ⟨childSnap, found⟩ := mem_iff_lookup.mp childLive
    obtain ⟨other, otherEntry, -, parentEq, -⟩ := sound.logged.recorded found
    cases entry.symm.trans otherEntry
    have parentLive : t.snapshots[childSnap.parentID]? = some snap := by
      rw [parentEq, under]
      exact live
    exact sound.listed.listed found notRoot parentLive

end OpenThesis.SnapshotTree
