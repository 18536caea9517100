import OpenThesis.Run.Core
import OpenThesis.SnapshotTree.Create

/-!
# Deleting snapshots

Where the children lists are consistent the order of deletions does not matter.
-/

namespace OpenThesis.SnapshotTree

open Keyed List

def Snapshot.without (snap : Snapshot) (ids : List ID) : Snapshot :=
  { snap with children := snap.children.filter fun child => child ∉ ids }

theorem Snapshot.without_eq_self {snap : Snapshot} {id : ID} (absent : id ∉ snap.children) :
    snap.without [id] = snap := by
  have kept : snap.children.filter (fun child => child ∉ [id]) = snap.children := by
    apply filter_eq_self.mpr
    intro child member
    have differs : child ≠ id := fun equal => absent (equal ▸ member)
    simpa using differs
  simp only [Snapshot.without, kept]

theorem Snapshot.without_singleton {snap : Snapshot} (nodup : snap.children.Nodup)
    (id : ID) : snap.without [id] = { snap with children := snap.children.erase id } := by
  have filtered : snap.children.filter (fun child => child ∉ [id]) = snap.children.erase id := by
    rw [nodup.erase_eq_filter]
    apply filter_congr
    intro child _
    rw [Bool.eq_iff_iff]
    simp
  simp only [Snapshot.without, filtered]

theorem Snapshot.without_without (snap : Snapshot) (first second : List ID) :
    (snap.without first).without second = snap.without (first ++ second) := by
  simp only [Snapshot.without, filter_filter, mem_append, not_or]
  congr 1
  apply filter_congr
  intro child _
  rw [Bool.eq_iff_iff]
  simp [and_comm]

theorem Snapshot.without_nil (snap : Snapshot) : snap.without [] = snap := by
  simp [Snapshot.without]

section

variable {t : Tree} (listed : Listed t) (id : ID)

include listed

theorem Listed.map_without_eq {other : ID}
    (elsewhere : ∀ child, t.snapshots[id]? = some child → child.parentID = other →
      t.snapshots[other]? = none) :
    (t.snapshots[other]?).map (·.without [id]) = t.snapshots[other]? := by
  cases found : t.snapshots[other]? with
  | none => rfl
  | some snap =>
    have absent : id ∉ snap.children := by
      intro member
      rcases listed.child found member with ⟨-, child, childLive, parentEq⟩
      rw [elsewhere child childLive parentEq] at found
      contradiction
    rw [Option.map_some, Snapshot.without_eq_self absent]

theorem removeNode_lookup (other : ID) :
    (t.removeNode id).snapshots[other]? =
      if other = id then none else (t.snapshots[other]?).map (·.without [id]) := by
  cases live : t.snapshots[id]? with
  | none =>
    have same : t.removeNode id = t := by simp only [Tree.removeNode, live]
    rw [same]
    by_cases equal : other = id
    · rw [if_pos equal, equal, live]
    · rw [if_neg equal]
      refine (listed.map_without_eq id fun child childLive => ?_).symm
      rw [live] at childLive
      contradiction
  | some snap =>
    by_cases equal : other = id
    · rw [if_pos equal, equal]
      simp only [Tree.removeNode, live]
      rw [lookup_erase, if_pos rfl]
    · rw [if_neg equal]
      cases above : t.snapshots[snap.parentID]? with
      | none =>
        simp only [Tree.removeNode, live, above]
        rw [lookup_erase, if_neg equal]
        refine (listed.map_without_eq id fun child childLive parentEq => ?_).symm
        rw [live] at childLive
        cases childLive
        rw [← parentEq]
        exact above
      | some parent =>
        simp only [Tree.removeNode, live, above]
        rw [lookup_erase, if_neg equal, lookup_insert]
        by_cases isParent : other = snap.parentID
        · rw [if_pos isParent, isParent, above, Option.map_some,
            Snapshot.without_singleton (listed.nodup above)]
        · rw [if_neg isParent]
          refine (listed.map_without_eq id fun child childLive parentEq => ?_).symm
          rw [live] at childLive
          cases childLive
          exact absurd parentEq.symm isParent

theorem Listed.removeNode : Listed (t.removeNode id) := by
  have before : ∀ ⦃other : ID⦄ ⦃found : Snapshot⦄,
      (t.removeNode id).snapshots[other]? = some found →
      other ≠ id ∧ ∃ snap, t.snapshots[other]? = some snap ∧ found = snap.without [id] := by
    intro other found live
    rw [removeNode_lookup listed] at live
    split at live
    · contradiction
    · rename_i differs
      rcases Option.map_eq_some_iff.mp live with ⟨snap, old, equal⟩
      exact ⟨differs, snap, old, equal.symm⟩
  constructor
  · intro other found live
    rcases before live with ⟨-, snap, old, rfl⟩
    exact (listed.nodup old).filter _
  · intro other childID found live member
    rcases before live with ⟨-, snap, old, rfl⟩
    rcases mem_filter.mp member with ⟨oldMember, kept⟩
    have differs : childID ≠ id := by simpa using kept
    rcases listed.child old oldMember with ⟨notRoot, child, childLive, parentEq⟩
    refine ⟨notRoot, child.without [id], ?_, parentEq⟩
    rw [removeNode_lookup listed, if_neg differs, childLive, Option.map_some]
  · intro other found above live notRoot aboveLive
    rcases before live with ⟨differs, snap, old, rfl⟩
    rcases before aboveLive with ⟨-, parent, aboveOld, rfl⟩
    have member := listed.listed old notRoot aboveOld
    refine mem_filter.mpr ⟨member, ?_⟩
    simpa using differs

end

theorem removeNode_frame (t : Tree) (id : ID) : (t.removeNode id).history = t.history ∧
    (t.removeNode id).nextID = t.nextID ∧ (t.removeNode id).current = t.current := by
  unfold Tree.removeNode
  cases t.snapshots[id]? <;> exact ⟨rfl, rfl, rfl⟩

@[simp]
theorem removeNodes_history (t : Tree) (ids : List ID) : (t.removeNodes ids).history = t.history :=
  Run.view_foldl Tree.history (fun t id => (removeNode_frame t id).1) t ids

@[simp]
theorem removeNodes_nextID (t : Tree) (ids : List ID) : (t.removeNodes ids).nextID = t.nextID :=
  Run.view_foldl Tree.nextID (fun t id => (removeNode_frame t id).2.1) t ids

@[simp]
theorem removeNodes_current (t : Tree) (ids : List ID) : (t.removeNodes ids).current = t.current :=
  Run.view_foldl Tree.current (fun t id => (removeNode_frame t id).2.2) t ids

section

variable {t : Tree} (listed : Listed t) (ids : List ID)

include listed

theorem Listed.removeNodes : Listed (t.removeNodes ids) := by
  induction ids generalizing t with
  | nil => exact listed
  | cons id ids ih => exact ih (listed.removeNode id)

theorem removeNodes_lookup (other : ID) :
    (t.removeNodes ids).snapshots[other]? =
      if other ∈ ids then none else (t.snapshots[other]?).map (·.without ids) := by
  induction ids generalizing t with
  | nil =>
    change t.snapshots[other]? = _
    cases t.snapshots[other]? with
    | none => simp
    | some snap => simp [Snapshot.without_nil]
  | cons id ids ih =>
    change ((t.removeNode id).removeNodes ids).snapshots[other]? = _
    rw [ih (listed.removeNode id), removeNode_lookup listed]
    by_cases later : other ∈ ids
    · simp [later]
    · by_cases now : other = id
      · simp [now]
      · simp only [later, now, if_false, mem_cons, or_self, Option.map_map]
        congr 1
        funext snap
        exact Snapshot.without_without snap [id] ids

theorem mem_removeNodes (other : ID) :
    other ∈ (t.removeNodes ids).snapshots ↔ other ∈ t.snapshots ∧ other ∉ ids := by
  rw [mem_iff_lookup, mem_iff_lookup, removeNodes_lookup listed]
  by_cases swept : other ∈ ids
  · simp [swept]
  · simp [swept]

theorem Logged.removeNodes (logged : Logged t) (rootKept : rootID ∉ ids) :
    Logged (t.removeNodes ids) where
  log := by
    rw [removeNodes_history]
    exact logged.log
  next := by
    rw [removeNodes_history, removeNodes_nextID]
    exact logged.next
  recorded := by
    intro id found live
    rw [removeNodes_lookup listed] at live
    split at live
    · contradiction
    · rcases Option.map_eq_some_iff.mp live with ⟨snap, old, rfl⟩
      have entry := logged.recorded old
      rw [removeNodes_history]
      exact entry
  rootLive := (mem_removeNodes listed ids rootID).mpr ⟨logged.rootLive, rootKept⟩

theorem rooted_removeNodes_iff (rooted : Rooted t) : Rooted (t.removeNodes ids) ↔
      ∀ ⦃id : ID⦄ ⦃snap : Snapshot⦄, t.snapshots[id]? = some snap → id ≠ rootID →
        snap.parentID ∈ ids → id ∈ ids := by
  constructor
  · intro after id snap live notRoot parentSwept
    by_contra survives
    have stillLive : (t.removeNodes ids).snapshots[id]? = some (snap.without ids) := by
      rw [removeNodes_lookup listed, if_neg survives, live, Option.map_some]
    have parentLive := after stillLive notRoot
    exact ((mem_removeNodes listed ids _).mp parentLive).2 parentSwept
  · intro closed id found live notRoot
    rw [removeNodes_lookup listed] at live
    split at live
    · contradiction
    · rename_i survives
      rcases Option.map_eq_some_iff.mp live with ⟨snap, old, rfl⟩
      have parentLive := rooted old notRoot
      refine (mem_removeNodes listed ids _).mpr ⟨parentLive, ?_⟩
      intro parentSwept
      exact survives (closed old notRoot parentSwept)

end

@[simp]
theorem resetCurrent_snapshots (t : Tree) : t.resetCurrent.snapshots = t.snapshots := by
  unfold Tree.resetCurrent
  split <;> rfl

@[simp]
theorem resetCurrent_history (t : Tree) : t.resetCurrent.history = t.history := by
  unfold Tree.resetCurrent
  split <;> rfl

@[simp]
theorem resetCurrent_nextID (t : Tree) : t.resetCurrent.nextID = t.nextID := by
  unfold Tree.resetCurrent
  split <;> rfl

theorem resetCurrent_current (t : Tree) :
    t.resetCurrent.current = if t.current ∈ t.snapshots then t.current else rootID := by
  unfold Tree.resetCurrent
  split <;> rfl

theorem Logged.resetCurrent {t : Tree} (logged : Logged t) : Logged t.resetCurrent where
  log := by rw [resetCurrent_history]; exact logged.log
  next := by rw [resetCurrent_history, resetCurrent_nextID]; exact logged.next
  recorded := by rw [resetCurrent_history, resetCurrent_snapshots]; exact logged.recorded
  rootLive := by rw [resetCurrent_snapshots]; exact logged.rootLive

theorem Listed.resetCurrent {t : Tree} (listed : Listed t) : Listed t.resetCurrent where
  nodup := by rw [resetCurrent_snapshots]; exact listed.nodup
  child := by rw [resetCurrent_snapshots]; exact listed.child
  listed := by rw [resetCurrent_snapshots]; exact listed.listed

theorem rooted_resetCurrent_iff (t : Tree) : Rooted t.resetCurrent ↔ Rooted t := by
  unfold Rooted
  rw [resetCurrent_snapshots]

theorem Sound.collect {t : Tree} (sound : Sound t) {ids : List ID} (rootKept : rootID ∉ ids) :
    Sound (t.removeNodes ids).resetCurrent where
  logged := (sound.logged.removeNodes sound.listed ids rootKept).resetCurrent
  listed := (sound.listed.removeNodes ids).resetCurrent
  currentLive := by
    rw [resetCurrent_current, resetCurrent_snapshots]
    split
    · assumption
    · exact (mem_removeNodes sound.listed ids rootID).mpr ⟨sound.logged.rootLive, rootKept⟩

end OpenThesis.SnapshotTree
