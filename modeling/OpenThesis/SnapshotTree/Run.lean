import OpenThesis.SnapshotTree.Lineage

/-!
# Runs of tree operations

An operation does nothing, creates a node, moves the current snapshot, or deletes nodes other than
the root: the four cases of `Change`.
-/

namespace OpenThesis.SnapshotTree

open Keyed List

/-- All that an operation can do. -/
inductive Change (t : Tree) : Tree → Prop
  | none : Change t t
  | grow {next : Tree} {parent snap : Snapshot} :
      Grows t next parent snap → Change t next
  | move {id : ID} : id ∈ t.snapshots → Change t { t with current := id }
  | collect {ids : List ID} :
      rootID ∉ ids → Change t (t.removeNodes ids).resetCurrent

theorem rootID_notMem_pruned (t : Tree) (frontierIDs : List ID) :
    rootID ∉ t.pruned frontierIDs := by
  intro member
  rcases mem_filter.mp member with ⟨-, chosen⟩
  simp at chosen

theorem rootID_notMem_evicted (t : Tree) (currentID : ID) (maxSize : Int) :
    rootID ∉ t.evicted currentID maxSize := by
  intro member
  rcases mem_filter.mp (mem_of_mem_take member) with ⟨-, chosen⟩
  simp at chosen

theorem change_apply (t : Tree) (op : Op) : Change t (t.apply op) := by
  cases op with
  | create parentID hypervisorID timeNS coverage rngState faults faultKindMask =>
    rcases apply_create t parentID hypervisorID timeNS coverage rngState faults faultKindMask
      with unchanged | ⟨parent, snap, grows⟩
    · rw [unchanged]
      exact .none
    · exact .grow grows
  | setCurrent id =>
    by_cases live : id ∈ t.snapshots
    · simp only [Tree.apply, Tree.setCurrent, if_pos live]
      exact .move live
    · simp only [Tree.apply, Tree.setCurrent, if_neg live]
      exact .none
  | prune frontierIDs => exact .collect (rootID_notMem_pruned t frontierIDs)
  | pruneOldestExcept currentID maxSize =>
    by_cases small : (t.snapshots.size : Int) ≤ maxSize
    · simp only [Tree.apply, Tree.pruneOldestExcept, if_pos small]
      exact .none
    · simp only [Tree.apply, Tree.pruneOldestExcept, if_neg small]
      exact .collect (rootID_notMem_evicted t currentID maxSize)

variable {t next : Tree}

theorem applyAll_invariant {motive : Tree → Prop} {ops : List Op} (start : motive t)
    (step : ∀ t, ∀ op ∈ ops, motive t → motive (t.apply op)) : motive (t.applyAll ops) :=
  foldlRecOn ops Tree.apply start fun t kept op member => step t op member kept

theorem Change.sound (change : Change t next) (sound : Sound t) : Sound next := by
  cases change with
  | none => exact sound
  | grow grows => exact grows.sound sound
  | move live =>
    exact
      { logged := ⟨sound.logged.log, sound.logged.next, sound.logged.recorded,
          sound.logged.rootLive⟩
        listed := ⟨sound.listed.nodup, sound.listed.child, sound.listed.listed⟩
        currentLive := live }
  | collect rootKept => exact sound.collect rootKept

theorem sound_applyAll (ops : List Op) : Sound (newTree.applyAll ops) := by
  apply applyAll_invariant sound_newTree
  intro t op _ sound
  exact (change_apply t op).sound sound

theorem rooted_prune (listed : Listed t) (rooted : Rooted t) (frontierIDs : List ID) :
    Rooted (t.prune frontierIDs).2 := by
  apply (rooted_resetCurrent_iff _).mpr
  apply (rooted_removeNodes_iff listed _ rooted).mpr
  intro id snap live notRoot parentPruned
  rcases mem_filter.mp parentPruned with ⟨-, chosen⟩
  have parentUnmarked : snap.parentID ∉ t.pruneKeep frontierIDs := by
    simp only [decide_eq_true_eq] at chosen
    exact chosen.2
  have unmarked : id ∉ t.pruneKeep frontierIDs := by
    intro marked
    have closed := (markAll_spec t frontierIDs (upClosed_rootID t)).1
    exact parentUnmarked (closed marked (parent?_of_live live notRoot))
  apply mem_filter.mpr
  constructor
  · exact mem_keys_iff.mpr (mem_iff_lookup.mpr ⟨snap, live⟩)
  · simp only [decide_eq_true_eq]
    exact ⟨notRoot, unmarked⟩

theorem rooted_apply (sound : Sound t) (rooted : Rooted t) {op : Op}
    (noEviction : op.isEviction = false) : Rooted (t.apply op) := by
  cases op with
  | create parentID hypervisorID timeNS coverage rngState faults faultKindMask =>
    rcases apply_create t parentID hypervisorID timeNS coverage rngState faults faultKindMask
      with unchanged | ⟨parent, snap, grows⟩
    · rw [unchanged]
      exact rooted
    · exact grows.rooted sound.logged rooted
  | setCurrent id =>
    by_cases live : id ∈ t.snapshots
    · simp only [Tree.apply, Tree.setCurrent, if_pos live]
      exact rooted
    · simp only [Tree.apply, Tree.setCurrent, if_neg live]
      exact rooted
  | prune frontierIDs => exact rooted_prune sound.listed rooted frontierIDs
  | pruneOldestExcept currentID maxSize => contradiction

theorem rooted_applyAll {ops : List Op} (noEviction : ∀ op ∈ ops, op.isEviction = false) :
    Rooted (newTree.applyAll ops) := by
  have both : Sound (newTree.applyAll ops) ∧ Rooted (newTree.applyAll ops) := by
    apply applyAll_invariant (motive := fun t => Sound t ∧ Rooted t)
    · exact ⟨sound_newTree, rooted_newTree⟩
    · rintro t op member ⟨sound, rooted⟩
      constructor
      · exact (change_apply t op).sound sound
      · exact rooted_apply sound rooted (noEviction op member)
  exact both.2

theorem Change.nextID_le (change : Change t next) : t.nextID ≤ next.nextID := by
  cases change with
  | none => exact le_rfl
  | grow grows =>
    rw [grows.nextID]
    exact Nat.le_succ _
  | move => exact le_rfl
  | collect => rw [resetCurrent_nextID, removeNodes_nextID]

theorem nextID_applyAll (t : Tree) (ops : List Op) : t.nextID ≤ (t.applyAll ops).nextID := by
  apply applyAll_invariant (motive := fun next => t.nextID ≤ next.nextID)
  · exact le_rfl
  · intro next op _ before
    exact before.trans (change_apply next op).nextID_le

theorem Change.lookup_older (change : Change t next) (sound : Sound t) {id : ID}
    {found : Snapshot} (older : id < t.nextID) (live : next.snapshots[id]? = some found) :
    ∃ before, t.snapshots[id]? = some before ∧
      found = { before with children := found.children } := by
  cases change with
  | none => exact ⟨found, live, rfl⟩
  | grow grows =>
    rcases grows.lookup_cases live with ⟨isNew, -⟩ | ⟨before, old, -, rfl⟩
    · rw [isNew, grows.id] at older
      exact absurd older (Nat.lt_irrefl _)
    · exact ⟨before, old, rfl⟩
  | move => exact ⟨found, live, rfl⟩
  | collect =>
    rw [resetCurrent_snapshots, removeNodes_lookup sound.listed] at live
    split at live
    · contradiction
    · rcases Option.map_eq_some_iff.mp live with ⟨before, old, rfl⟩
      exact ⟨before, old, rfl⟩

theorem lookup_older_applyAll (sound : Sound t) (ops : List Op) {id : ID} {found : Snapshot}
    (older : id < t.nextID) (live : (t.applyAll ops).snapshots[id]? = some found) :
    ∃ before, t.snapshots[id]? = some before ∧
      found = { before with children := found.children } := by
  induction ops generalizing t with
  | nil => exact ⟨found, live, rfl⟩
  | cons op ops ih =>
    have change := change_apply t op
    rw [Tree.applyAll_cons] at live
    rcases ih (change.sound sound) (lt_of_lt_of_le older change.nextID_le) live with
      ⟨between, betweenLive, betweenEq⟩
    rcases change.lookup_older sound older betweenLive with ⟨before, beforeLive, beforeEq⟩
    refine ⟨before, beforeLive, ?_⟩
    rw [betweenEq, beforeEq]

theorem Change.history (change : Change t next) : t.history <+: next.history := by
  cases change with
  | none => exact prefix_rfl
  | grow grows =>
    rw [grows.history]
    exact prefix_append _ _
  | move => exact prefix_rfl
  | collect =>
    rw [resetCurrent_history, removeNodes_history]

theorem Change.length_history_le (change : Change t next) :
    next.history.length ≤ t.history.length + 1 := by
  cases change with
  | none | move => exact Nat.le_succ _
  | grow grows => rw [grows.history, length_append, length_singleton]
  | collect =>
    rw [resetCurrent_history, removeNodes_history]
    exact Nat.le_succ _

theorem history_applyAll (t : Tree) (ops : List Op) : t.history <+: (t.applyAll ops).history := by
  apply applyAll_invariant (motive := fun next => t.history <+: next.history)
  · exact prefix_rfl
  · intro next op _ before
    exact before.trans (change_apply next op).history

theorem history_apply_of_not_create {op : Op} (notCreate : op.isCreate = false) (t : Tree) :
    (t.apply op).history = t.history := by
  cases op with
  | create => contradiction
  | setCurrent id =>
    simp only [Tree.apply, Tree.setCurrent]
    split <;> rename_i moved <;> split at moved <;> cases moved <;> rfl
  | prune frontierIDs => simp [Tree.apply, Tree.prune]
  | pruneOldestExcept currentID maxSize =>
    simp only [Tree.apply, Tree.pruneOldestExcept]
    split <;> simp

theorem length_history_applyAll (t : Tree) (ops : List Op) :
    (t.applyAll ops).history.length ≤ t.history.length + creates ops := by
  induction ops generalizing t with
  | nil => exact le_rfl
  | cons op ops ih =>
    rw [Tree.applyAll_cons]
    have later := ih (t.apply op)
    cases isCreate : op.isCreate with
    | false =>
      rw [history_apply_of_not_create isCreate] at later
      simpa [creates, isCreate] using later
    | true =>
      have now := (change_apply t op).length_history_le
      have count : creates (op :: ops) = creates ops + 1 := by
        simp [creates, isCreate]
      rw [count]
      omega

theorem length_history_le {ops : List Op} (few : creates ops < 2 ^ 32) :
    (newTree.applyAll ops).history.length ≤ 2 ^ 32 := by
  have bound := length_history_applyAll newTree ops
  have one : newTree.history.length = 1 := rfl
  omega

end OpenThesis.SnapshotTree
