import OpenThesis.SnapshotTree.Persist

/-!
# Reloading after any run

A loaded tree keeps all nodes ever created, but not their masks, and fails to validate once a depth
wrapped.
-/

namespace OpenThesis.SnapshotTree

open Loop Forest Keyed List

def Tree.creation (t : Tree) : Op → Option (ID × ID)
  | .create parentID hypervisorID timeNS coverage rngState faults faultKindMask =>
    match t.create parentID hypervisorID timeNS coverage rngState faults faultKindMask with
    | .ok (id, _) => some (id, parentID)
    | .error _ => none
  | _ => none

def Tree.creations (t : Tree) : List Op → List (ID × ID)
  | [] => []
  | op :: ops => (t.creation op).toList ++ (t.apply op).creations ops

theorem creation_cases (t : Tree) (op : Op) :
    (t.creation op = none ∧ (t.apply op).nextID = t.nextID) ∨
      ∃ parent snap, Grows t (t.apply op) parent snap ∧
        t.creation op = some (snap.id, snap.parentID) := by
  cases op with
  | create parentID hypervisorID timeNS coverage rngState faults faultKindMask =>
    cases live : t.snapshots[parentID]? with
    | none =>
      left
      simp only [Tree.creation, Tree.apply, create_of_missing live, and_self]
    | some parent =>
      right
      rcases create_of_live live hypervisorID timeNS coverage rngState faults faultKindMask
        with ⟨next, snap, created, grows, parentEq, -⟩
      simp only [Tree.creation, Tree.apply, created]
      exact ⟨parent, snap, grows, by rw [parentEq]⟩
  | setCurrent id =>
    left
    by_cases live : id ∈ t.snapshots
    · simp only [Tree.creation, Tree.apply, Tree.setCurrent, if_pos live, and_self]
    · simp only [Tree.creation, Tree.apply, Tree.setCurrent, if_neg live, and_self]
  | prune frontierIDs => exact Or.inl ⟨rfl, by simp [Tree.apply, Tree.prune]⟩
  | pruneOldestExcept currentID maxSize =>
    left
    by_cases small : (t.snapshots.size : Int) ≤ maxSize
    · simp [Tree.creation, Tree.apply, Tree.pruneOldestExcept, if_pos small]
    · simp [Tree.creation, Tree.apply, Tree.pruneOldestExcept, if_neg small]

theorem mem_creations (t : Tree) (ops : List Op) (id : ID) :
    (∃ parentID, (id, parentID) ∈ t.creations ops) ↔
      t.nextID ≤ id ∧ id < (t.applyAll ops).nextID := by
  induction ops generalizing t with
  | nil =>
    simp only [Tree.creations, not_mem_nil, exists_false, Tree.applyAll_nil, false_iff, not_and]
    exact fun above => Nat.not_lt.mpr above
  | cons op ops ih =>
    have later := nextID_applyAll (t.apply op) ops
    rw [Tree.applyAll_cons]
    simp only [Tree.creations, mem_append, exists_or, ih]
    rcases creation_cases t op with ⟨nothing, same⟩ | ⟨parent, snap, grows, created⟩
    · simp [nothing, same]
    · rw [created, grows.nextID, grows.id]
      rw [grows.nextID] at later
      simp only [Option.toList_some, mem_singleton, Prod.mk.injEq, exists_and_left,
        exists_eq, and_true]
      constructor
      · rintro (rfl | ⟨above, below⟩)
        · exact ⟨le_rfl, later⟩
        · exact ⟨Nat.le_of_succ_le above, below⟩
      · rintro ⟨above, below⟩
        rcases Nat.eq_or_lt_of_le above with equal | above
        · exact Or.inl equal.symm
        · exact Or.inr ⟨above, below⟩

variable {t : Tree}

theorem Grows.recordedParent {next : Tree} {parent snap : Snapshot}
    (grows : Grows t next parent snap) (logged : Logged t) :
    recordedParent next.history snap.id = some snap.parentID := by
  have nextLogged := grows.logged logged
  rcases nextLogged.recorded grows.lookup_id with ⟨info, entry, -, parentEq, -⟩
  rw [nextLogged.log.recordedParent_eq entry, if_neg (grows.id_ne_rootID logged), parentEq]

theorem Sound.recordedParent_stable (sound : Sound t) {ops : List Op}
    (laterSound : Sound (t.applyAll ops)) {id : ID} (older : id < t.nextID) :
    recordedParent (t.applyAll ops).history id = recordedParent t.history id := by
  rw [sound.logged.next] at older
  exact sound.logged.log.recordedParent_of_grown laterSound.logged.log
    (history_applyAll t ops) (List.getElem?_eq_getElem older)

theorem recordedParent_of_creation (sound : Sound t) {ops : List Op}
    (laterSound : Sound (t.applyAll ops)) {id parentID : ID}
    (created : (id, parentID) ∈ t.creations ops) :
    recordedParent (t.applyAll ops).history id = some parentID := by
  induction ops generalizing t with
  | nil => exact absurd created not_mem_nil
  | cons op ops ih =>
    rw [Tree.applyAll_cons] at laterSound ⊢
    have nextSound := (change_apply t op).sound sound
    rcases mem_append.mp created with now | later
    · rcases creation_cases t op with ⟨nothing, -⟩ | ⟨parent, snap, grows, made⟩
      · rw [nothing] at now
        exact absurd now not_mem_nil
      · rw [made, Option.toList_some, mem_singleton, Prod.mk.injEq] at now
        rcases now with ⟨rfl, rfl⟩
        have older : snap.id < (t.apply op).nextID := by
          rw [grows.id, grows.nextID]
          exact Nat.lt_succ_self _
        rw [nextSound.recordedParent_stable laterSound older]
        exact grows.recordedParent sound.logged
    · exact ih nextSound laterSound later

theorem deepens_loadTree_iff (logged : Logged t) : Deepens (loadTree (saveTree t)) ↔
      ∀ id path, Ancestry (recordedParent t.history) id path → path.length ≤ 2 ^ 32 := by
  have log := logged.log
  have loadedLogged := (sound_loadTree logged).logged
  have found : ∀ ⦃id : ID⦄ ⦃info : NodeInfo⦄, t.history[id]? = some info →
      ∃ snap, (loadTree (saveTree t)).snapshots[id]? = some snap ∧
        snap.parentID = info.parentID ∧ snap.depth = info.depth := by
    intro id info entry
    have loaded := loadTree_lookup logged id
    rw [entry, Option.map_some, log.loadedNode_eq entry] at loaded
    exact ⟨_, loaded, rfl, rfl⟩
  constructor
  · intro deepens id path ancestry
    induction ancestry with
    | root => exact Nat.one_le_two_pow
    | @child id above path up rest ih =>
      rcases log.recordedParent_eq_some_iff.mp up with ⟨notRoot, info, entry, rfl⟩
      rcases log.exists_parent entry notRoot with ⟨parentInfo, parentEntry⟩
      rcases found entry with ⟨snap, live, parentEq, depthEq⟩
      rcases found parentEntry with ⟨parent, parentLive, -, parentDepthEq⟩
      rw [← parentEq] at parentLive
      have deeper := deepens live notRoot parentLive
      rw [UInt32.lt_iff_toNat_lt, depthEq, parentDepthEq,
        log.depth_eq rest parentEntry, log.depth_eq (.child up rest) entry] at deeper
      have nonempty := length_pos_of_ne_nil rest.ne_nil
      rw [length_append, length_singleton] at deeper ⊢
      omega
  · intro short id snap parent live notRoot parentLive
    rcases loadedLogged.recorded live with ⟨info, entry, -, parentEq, depthEq⟩
    rcases loadedLogged.recorded parentLive with ⟨parentInfo, parentEntry, -, -, parentDepthEq⟩
    change t.history[id]? = some info at entry
    change t.history[snap.parentID]? = some parentInfo at parentEntry
    rcases log.exists_ancestry snap.parentID with ⟨path, rest⟩
    have up : recordedParent t.history id = some snap.parentID := by
      rw [log.recordedParent_eq entry, if_neg notRoot, parentEq]
    have bound := short id _ (.child up rest)
    have nonempty := length_pos_of_ne_nil rest.ne_nil
    rw [UInt32.lt_iff_toNat_lt, depthEq, parentDepthEq, log.depth_eq rest parentEntry,
      log.depth_eq (.child up rest) entry]
    rw [length_append, length_singleton] at bound ⊢
    omega

theorem validate_loadTree_iff (logged : Logged t) : (loadTree (saveTree t)).validate = .ok () ↔
      ∀ id path, Ancestry (recordedParent t.history) id path → path.length ≤ 2 ^ 32 := by
  rw [(sound_loadTree logged).validate_iff, deepens_loadTree_iff logged]
  exact and_iff_right (rooted_loadTree logged)

/-- What `LoadTree` owes for a tree `t` that was saved after the run `ops`. -/
structure Reloads (ops : List Op) (t loaded : Tree) : Prop where
  validates : loaded.validate = .ok () ↔
    ∀ id path, Ancestry (recordedParent t.history) id path → path.length ≤ 2 ^ 32
  nodes : ∀ id, id ∈ loaded.snapshots ↔
    id = rootID ∨ ∃ parentID, (id, parentID) ∈ newTree.creations ops
  parents : ∀ ⦃id parentID : ID⦄, (id, parentID) ∈ newTree.creations ops →
    recordedParent t.history id = some parentID
  paths : ∀ id, id ∈ loaded.snapshots →
    ∃ path, PathTo loaded id path ∧ Ancestry (recordedParent t.history) id path
  livePaths : ∀ ⦃before : List Op⦄ ⦃op : Op⦄ ⦃after : List Op⦄ ⦃id parentID : ID⦄
    ⦃path : List ID⦄, ops = before ++ op :: after →
    (newTree.applyAll before).creation op = some (id, parentID) →
    Yields ((newTree.applyAll (before ++ [op])).pathToRoot id) path →
    path.head? = some rootID → Yields (loaded.pathToRoot id) path
  current : loaded.current = t.current
  fresh : ∀ parentID ∈ loaded.snapshots, ∀ (hypervisorID : ID)
    (timeNS coverage rngState : UInt64) (faults : UInt32) (faultKindMask : UInt16),
    ∃ id next, loaded.create parentID hypervisorID timeNS coverage rngState faults
        faultKindMask = .ok (id, next) ∧
      id ≠ rootID ∧ ∀ parentID, (id, parentID) ∉ newTree.creations ops

theorem exists_pathTo_loadTree (logged : Logged t) {id : ID}
    (live : id ∈ (loadTree (saveTree t)).snapshots) :
    ∃ path, PathTo (loadTree (saveTree t)) id path ∧
      Ancestry (recordedParent t.history) id path := by
  have sound := sound_loadTree logged
  rcases sound.logged.exists_ancestry id with ⟨path, ancestry⟩
  have pathTo := sound.pathTo (rooted_loadTree logged) ancestry live
  exact ⟨path, pathTo, pathTo.recorded⟩

theorem pathToRoot_loadTree (sound : Sound t) {ops : List Op}
    (laterSound : Sound (t.applyAll ops)) {id : ID} {path : List ID}
    (yields : Yields (t.pathToRoot id) path) (head : path.head? = some rootID) :
    Yields ((loadTree (saveTree (t.applyAll ops))).pathToRoot id) path := by
  rcases sound.logged.exists_ancestry id with ⟨found, ancestry⟩
  obtain rfl := yields.unique (yields_pathToRoot sound.logged ancestry)
  have live := sound.logged.live_of_head ancestry head
  have older : ∀ node ∈ path, node < t.nextID := by
    intro node member
    rcases mem_iff_lookup.mp (live node member) with ⟨snap, lookup⟩
    exact sound.logged.lt_nextID lookup
  have recorded : Ancestry (recordedParent (t.applyAll ops).history) id path := by
    apply (sound.logged.recorded_ancestry ancestry live).congr
    intro node member
    exact sound.recordedParent_stable laterSound (older node member)
  have loadedLive : id ∈ (loadTree (saveTree (t.applyAll ops))).snapshots := by
    apply (mem_loadTree laterSound.logged).mpr
    exact lt_of_lt_of_le (older id (mem_of_mem_getLast? ancestry.getLast?)) (nextID_applyAll t ops)
  rcases exists_pathTo_loadTree laterSound.logged loadedLive with
    ⟨loadedPath, pathTo, loadedRecorded⟩
  rw [recorded.unique loadedRecorded]
  exact pathTo.pathToRoot

/-- A tree that is saved after any run and loaded again has kept all of it. -/
theorem reloads_saved (ops : List Op) :
    Reloads ops (newTree.applyAll ops) (loadTree (saveTree (newTree.applyAll ops))) := by
  have sound := sound_applyAll ops
  have nodes : ∀ id, id < (newTree.applyAll ops).nextID ↔
      id = rootID ∨ ∃ parentID, (id, parentID) ∈ newTree.creations ops := by
    intro id
    rw [mem_creations]
    have rootOld := sound.logged.rootID_lt_nextID
    constructor
    · intro below
      rcases Nat.eq_zero_or_pos id with isRoot | positive
      · exact Or.inl isRoot
      · exact Or.inr ⟨positive, below⟩
    · rintro (rfl | ⟨-, below⟩)
      · exact rootOld
      · exact below
  constructor
  · exact validate_loadTree_iff sound.logged
  · intro id
    rw [mem_loadTree sound.logged]
    exact nodes id
  · intro id parentID created
    exact recordedParent_of_creation sound_newTree sound created
  · intro id live
    exact exists_pathTo_loadTree sound.logged live
  · intro before op after id parentID path split _ yields head
    have whole : newTree.applyAll ops = (newTree.applyAll (before ++ [op])).applyAll after := by
      rw [split, ← Tree.applyAll_append, append_assoc, singleton_append]
    rw [whole] at sound ⊢
    exact pathToRoot_loadTree (sound_applyAll _) sound yields head
  · exact current_loadTree sound.logged sound.currentLive
  · intro parentID live hypervisorID timeNS coverage rngState faults faultKindMask
    rcases mem_iff_lookup.mp live with ⟨parent, parentLive⟩
    rcases create_of_live parentLive hypervisorID timeNS coverage rngState faults faultKindMask
      with ⟨next, snap, created, grows, -⟩
    have unused : ¬ (snap.id = rootID ∨
        ∃ parentID, (snap.id, parentID) ∈ newTree.creations ops) := by
      rw [← nodes, grows.id]
      exact Nat.lt_irrefl _
    rw [not_or, not_exists] at unused
    exact ⟨snap.id, next, created, unused⟩

def chain (length : Nat) : List Op :=
  (range length).map fun parentID => .create parentID 0 0 0 0 0 0

theorem chain_succ (length : Nat) :
    chain (length + 1) = chain length ++ [.create length 0 0 0 0 0 0] := by
  rw [chain, range_succ, map_append]
  rfl

theorem ancestry_chain (length : Nat) : (newTree.applyAll (chain length)).nextID = length + 1 ∧
      length ∈ (newTree.applyAll (chain length)).snapshots ∧
      Ancestry (recordedParent (newTree.applyAll (chain length)).history) length
        (range (length + 1)) := by
  induction length with
  | zero => exact ⟨rfl, sound_newTree.logged.rootLive, .root (by decide)⟩
  | succ length ih =>
    rcases ih with ⟨nextEq, live, ancestry⟩
    have sound := sound_applyAll (chain length)
    have laterSound := sound_applyAll (chain (length + 1))
    have stable : ∀ node < length + 1,
        recordedParent (newTree.applyAll (chain (length + 1))).history node =
          recordedParent (newTree.applyAll (chain length)).history node := by
      intro node older
      rw [← nextEq] at older
      rw [chain_succ, Tree.applyAll_append] at laterSound ⊢
      exact sound.recordedParent_stable laterSound older
    have step : newTree.applyAll (chain (length + 1)) =
        (newTree.applyAll (chain length)).apply (.create length 0 0 0 0 0 0) := by
      rw [chain_succ, Tree.applyAll_append, Tree.applyAll_cons, Tree.applyAll_nil]
    rcases mem_iff_lookup.mp live with ⟨parent, parentLive⟩
    rcases create_of_live parentLive 0 0 0 0 0 0 with
      ⟨next, snap, created, grows, parentEq, -⟩
    have grown : newTree.applyAll (chain (length + 1)) = next := by
      rw [step]
      simp only [Tree.apply, created]
    have newID : snap.id = length + 1 := grows.id.trans nextEq
    have up : recordedParent (newTree.applyAll (chain (length + 1))).history (length + 1) =
        some length := by
      rw [grown, ← newID, ← parentEq]
      exact grows.recordedParent sound.logged
    refine ⟨?_, ?_, ?_⟩
    · rw [grown, grows.nextID, nextEq]
    · rw [grown, mem_iff_lookup, ← newID, grows.lookup, if_pos rfl]
      exact ⟨snap, rfl⟩
    · rw [range_succ]
      refine .child up (ancestry.congr ?_)
      intro node member
      exact stable node (mem_range.mp member)

/-- A chain of `2 ^ 32` creations wraps the depth counter, and the loaded tree
does not validate. -/
theorem reload_fails_on_deep_chain :
    (loadTree (saveTree (newTree.applyAll (chain (2 ^ 32))))).validate ≠ .ok () := by
  intro accepted
  have sound := sound_applyAll (chain (2 ^ 32))
  have bound := (validate_loadTree_iff sound.logged).mp accepted _ _ (ancestry_chain (2 ^ 32)).2.2
  rw [length_range] at bound
  exact absurd bound (Nat.not_succ_le_self _)

def Described (t : Tree) : Prop :=
  ∀ ⦃id : ID⦄ ⦃snap : Snapshot⦄, t.snapshots[id]? = some snap →
    t.history[id]? = some snap.info

theorem described_newTree : Described newTree := by
  intro id snap live
  rw [newTree_lookup] at live
  split at live
  · rename_i isRoot
    rw [isRoot, log_newTree.root, ← Option.some.inj live]
    rfl
  · contradiction

theorem Change.described {next : Tree} (change : Change t next) (sound : Sound t)
    (described : Described t) : Described next := by
  intro id found live
  by_cases older : id < t.nextID
  · rcases change.lookup_older sound older live with ⟨before, beforeLive, fieldsEq⟩
    have entry := described beforeLive
    have infoEq : found.info = before.info := by
      rw [fieldsEq]
      rfl
    rcases change.history with ⟨rest, historyEq⟩
    rw [infoEq, ← historyEq, List.getElem?_append_left (List.getElem?_eq_some_iff.mp entry).1]
    exact entry
  · have bound := (change.sound sound).logged.lt_nextID live
    cases change with
    | none => exact absurd bound older
    | grow grows =>
      rcases grows.lookup_cases live with ⟨isNew, rfl⟩ | ⟨before, old, -, -⟩
      · have index : id = t.history.length := by
          rw [isNew, grows.id, sound.logged.next]
        rw [index, grows.history]
        simp
      · exact absurd (sound.logged.lt_nextID old) older
    | move => exact absurd bound older
    | collect =>
      rw [resetCurrent_nextID, removeNodes_nextID] at bound
      exact absurd bound older

theorem described_applyAll (ops : List Op) : Described (newTree.applyAll ops) := by
  have both : Sound (newTree.applyAll ops) ∧ Described (newTree.applyAll ops) := by
    apply applyAll_invariant (motive := fun t => Sound t ∧ Described t)
    · exact ⟨sound_newTree, described_newTree⟩
    · rintro t op - ⟨sound, described⟩
      have change := change_apply t op
      exact ⟨change.sound sound, change.described sound described⟩
  exact both.2

/-- The loaded snapshot agrees with the saved one on every field exactly when that has an empty
fault kind mask. -/
theorem loaded_info_eq_iff (ops : List Op) {id : ID} {snap : Snapshot}
    (live : (newTree.applyAll ops).snapshots[id]? = some snap) :
    ((loadTree (saveTree (newTree.applyAll ops))).snapshots[id]?).map Snapshot.info =
        some snap.info ↔
      snap.faultKindMask = 0 := by
  have logged := (sound_applyAll ops).logged
  have entry := described_applyAll ops live
  have idEq : snap.id = id := logged.log.ids entry
  rw [loadTree_lookup logged, entry, Option.map_some, Option.map_some,
    logged.log.loadedNode_eq entry]
  simp [Snapshot.info, idEq, eq_comm]

/-- A node created with one kind of fault loses its mask. -/
theorem reload_drops_fault_kind_mask :
    ((newTree.applyAll [.create 0 0 0 0 0 1 1]).snapshots[1]?).map Snapshot.info ≠
      ((loadTree (saveTree (newTree.applyAll [.create 0 0 0 0 0 1 1]))).snapshots[1]?).map
        Snapshot.info := by
  decide

theorem loaded_info_eq_without_faults :
    ((loadTree (saveTree (newTree.applyAll [.create 0 5 256 3 7 0 0]))).snapshots[1]?).map
        Snapshot.info =
      some ⟨1, 0, 1, 256, 3, 2, 0, 0⟩ :=
  (@loaded_info_eq_iff [.create 0 5 256 3 7 0 0] 1 ⟨1, 0, 5, [], 256, 1, 3, 7, 2, 0, 0⟩
    (by decide)).mpr rfl

end OpenThesis.SnapshotTree
