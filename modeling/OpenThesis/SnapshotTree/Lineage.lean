import OpenThesis.SnapshotTree.Remove

/-!
# Lineage and marking

The live map as a parent-pointer forest. The collectors stop at the first marked node; the marked
set stays upward closed.
-/

namespace OpenThesis.SnapshotTree

open Loop Forest Keyed

section

variable {t : Tree} {id above : ID} {snap : Snapshot}

theorem parent?_rootID (t : Tree) : t.parent? rootID = none := by
  unfold Tree.parent?
  cases t.snapshots[rootID]? with
  | none => rfl
  | some snap => exact if_pos rfl

theorem parent?_of_missing (missing : t.snapshots[id]? = none) : t.parent? id = none := by
  simp only [Tree.parent?, missing]

theorem parent?_of_live (live : t.snapshots[id]? = some snap) (notRoot : id ≠ rootID) :
    t.parent? id = some snap.parentID := by
  simp only [Tree.parent?, live, if_neg notRoot]

theorem parent?_eq_some_iff : t.parent? id = some above ↔
      id ≠ rootID ∧ ∃ snap, t.snapshots[id]? = some snap ∧ snap.parentID = above := by
  constructor
  · intro up
    have notRoot : id ≠ rootID := by
      rintro rfl
      rw [parent?_rootID] at up
      contradiction
    cases live : t.snapshots[id]? with
    | none =>
      rw [parent?_of_missing live] at up
      contradiction
    | some snap =>
      rw [parent?_of_live live notRoot] at up
      exact ⟨notRoot, snap, rfl, Option.some.inj up⟩
  · rintro ⟨notRoot, snap, live, rfl⟩
    exact parent?_of_live live notRoot

theorem ancestorOrSelf_of_missing (missing : t.snapshots[id]? = none) (ancestor : ID) :
    AncestorOrSelf t.parent? ancestor id ↔ ancestor = id :=
  ancestorOrSelf_iff_of_root (parent?_of_missing missing)

end

def Tree.liveIDs (t : Tree) : Finset ID :=
  t.snapshots.keys.toFinset

theorem mem_keys_iff {t : Tree} {id : ID} : id ∈ t.snapshots.keys ↔ id ∈ t.snapshots :=
  Std.ExtTreeMap.mem_keys

variable (t : Tree)

theorem keys_nodup : t.snapshots.keys.Nodup := by
  have distinct := Std.ExtTreeMap.distinct_keys (t := t.snapshots)
  apply distinct.imp
  intro first second differs equal
  exact differs (by simp [equal])

theorem keys_ascending : t.snapshots.keys.Pairwise (· < ·) := by
  have ordered := Std.ExtTreeMap.ordered_keys (t := t.snapshots)
  apply ordered.imp
  intro first second less
  exact Nat.compare_eq_lt.mp less

theorem mem_liveIDs {t : Tree} {id : ID} : id ∈ t.liveIDs ↔ id ∈ t.snapshots := by
  rw [Tree.liveIDs, List.mem_toFinset, mem_keys_iff]

theorem card_liveIDs : t.liveIDs.card = t.snapshots.size := by
  rw [Tree.liveIDs, List.toFinset_card_of_nodup (keys_nodup t), Std.ExtTreeMap.length_keys]

theorem markAncestors_spec {keep : Finset ID} (closed : UpClosed t.parent? keep) (id : ID) :
    UpClosed t.parent? (t.markAncestors keep id) ∧ ∀ ancestor, ancestor ∈ t.markAncestors keep id ↔
        ancestor ∈ keep ∨ AncestorOrSelf t.parent? ancestor id := by
  have inside : ∀ ⦃node above⦄, t.parent? node = some above → node ∈ t.liveIDs := by
    intro node above up
    rcases parent?_eq_some_iff.mp up with ⟨-, snap, live, -⟩
    exact mem_liveIDs.mpr (mem_iff_lookup.mpr ⟨snap, live⟩)
  rcases exists_run_mark inside closed id with ⟨marked, ran, upClosed, members⟩
  rw [card_liveIDs] at ran
  have equal : t.markAncestors keep id = marked := by
    rw [Tree.markAncestors, ran, Option.getD_some]
  rw [equal]
  exact ⟨upClosed, members⟩

theorem upClosed_rootID : UpClosed t.parent? {rootID} := by
  intro node member above up
  rw [Finset.mem_singleton.mp member, parent?_rootID] at up
  contradiction

theorem markAll_spec (frontierIDs : List ID) {keep : Finset ID} (closed : UpClosed t.parent? keep) :
    UpClosed t.parent? (frontierIDs.foldl t.markAncestors keep) ∧
      ∀ ancestor, ancestor ∈ frontierIDs.foldl t.markAncestors keep ↔ ancestor ∈ keep ∨
          ∃ frontier ∈ frontierIDs, AncestorOrSelf t.parent? ancestor frontier := by
  induction frontierIDs generalizing keep with
  | nil => exact ⟨closed, by simp⟩
  | cons frontier rest ih =>
    rcases markAncestors_spec t closed frontier with ⟨stepClosed, stepMembers⟩
    rcases ih stepClosed with ⟨allClosed, allMembers⟩
    constructor
    · exact allClosed
    · intro ancestor
      rw [List.foldl_cons, allMembers, stepMembers, List.exists_mem_cons_iff, or_assoc]

theorem mem_pruneKeep (frontierIDs : List ID) (id : ID) : id ∈ t.pruneKeep frontierIDs ↔
      id = rootID ∨ ∃ frontier ∈ frontierIDs, AncestorOrSelf t.parent? id frontier := by
  rw [Tree.pruneKeep, (markAll_spec t frontierIDs (upClosed_rootID t)).2, Finset.mem_singleton]

theorem mem_protected (currentID id : ID) : id ∈ t.markAncestors {rootID} currentID ↔
      id = rootID ∨ AncestorOrSelf t.parent? id currentID := by
  rw [(markAncestors_spec t (upClosed_rootID t) currentID).2, Finset.mem_singleton]

end OpenThesis.SnapshotTree
