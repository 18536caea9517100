import OpenThesis.SnapshotTree.Invariant

/-!
# Creating snapshots

`Grows` says everything one successful `Create` does to a tree.
-/

namespace OpenThesis.SnapshotTree

open Keyed List

def Snapshot.info (snap : Snapshot) : NodeInfo where
  id := snap.id
  parentID := snap.parentID
  depth := snap.depth
  timeNS := snap.timeNS
  coverage := snap.coverage
  icount := snap.icount
  faults := snap.faults
  faultKindMask := snap.faultKindMask

/-- `next` is `t` with a new child of `parent`. -/
structure Grows (t next : Tree) (parent snap : Snapshot) : Prop where
  parentLive : t.snapshots[snap.parentID]? = some parent
  id : snap.id = t.nextID
  depth : snap.depth = parent.depth + 1
  childless : snap.children = []
  snapshots : next.snapshots =
    (t.snapshots.insert snap.parentID
      { parent with children := parent.children ++ [snap.id] }).insert snap.id snap
  current : next.current = t.current
  nextID : next.nextID = t.nextID + 1
  history : next.history = t.history ++ [snap.info]

theorem create_of_live {t : Tree} {parentID : ID} {parent : Snapshot}
    (live : t.snapshots[parentID]? = some parent) (hypervisorID : ID)
    (timeNS coverage rngState : UInt64) (faults : UInt32) (faultKindMask : UInt16) :
    ∃ next snap, t.create parentID hypervisorID timeNS coverage rngState faults
        faultKindMask = .ok (snap.id, next) ∧ Grows t next parent snap ∧ snap.parentID = parentID ∧
      snap.hypervisorID = hypervisorID ∧ snap.timeNS = timeNS ∧
      snap.coverage = coverage ∧ snap.rngState = rngState ∧ snap.faults = faults ∧
      snap.faultKindMask = faultKindMask := by
  let snap : Snapshot :=
    { id := t.nextID, parentID := parentID, hypervisorID := hypervisorID,
      timeNS := timeNS, icount := timeNS / 128, depth := parent.depth + 1,
      coverage := coverage, rngState := rngState, faults := faults,
      faultKindMask := faultKindMask }
  let next : Tree :=
    { t with
      snapshots := (t.snapshots.insert parentID
        { parent with children := parent.children ++ [snap.id] }).insert snap.id snap
      nextID := t.nextID + 1
      history := t.history ++ [snap.info] }
  have created : t.create parentID hypervisorID timeNS coverage rngState faults
      faultKindMask = .ok (snap.id, next) := by
    simp only [Tree.create, live]
    rfl
  exact ⟨next, snap, created, ⟨live, rfl, rfl, rfl, rfl, rfl, rfl, rfl⟩,
    rfl, rfl, rfl, rfl, rfl, rfl, rfl⟩

theorem create_of_missing {t : Tree} {parentID : ID}
    (missing : t.snapshots[parentID]? = none) (hypervisorID : ID)
    (timeNS coverage rngState : UInt64) (faults : UInt32) (faultKindMask : UInt16) :
    t.create parentID hypervisorID timeNS coverage rngState faults faultKindMask =
      .error s!"tree create parent {parentID}: {errInvalidParent}" := by
  simp only [Tree.create, missing]

theorem mem_of_get {t : Tree} {id : ID} {snap : Snapshot} (found : t.get id = .ok snap) :
    id ∈ t.snapshots := by
  unfold Tree.get at found
  cases live : t.snapshots[id]? with
  | none =>
    rw [live] at found
    contradiction
  | some other => exact mem_iff_lookup.mpr ⟨other, live⟩

theorem apply_create (t : Tree) (parentID hypervisorID : ID)
    (timeNS coverage rngState : UInt64) (faults : UInt32) (faultKindMask : UInt16) :
    t.apply (.create parentID hypervisorID timeNS coverage rngState faults faultKindMask) = t ∨
      ∃ parent snap, Grows t (t.apply
        (.create parentID hypervisorID timeNS coverage rngState faults faultKindMask))
        parent snap := by
  cases live : t.snapshots[parentID]? with
  | none =>
    left
    simp only [Tree.apply, create_of_missing live]
  | some parent =>
    right
    rcases create_of_live live hypervisorID timeNS coverage rngState faults faultKindMask
      with ⟨next, snap, created, grows, -⟩
    simp only [Tree.apply, created]
    exact ⟨parent, snap, grows⟩

namespace Grows

variable {t next : Tree} {parent snap : Snapshot}

section

variable (grows : Grows t next parent snap)

include grows

theorem lookup (id : ID) :
    next.snapshots[id]? =
      if id = snap.id then some snap
      else if id = snap.parentID then
        some { parent with children := parent.children ++ [snap.id] }
      else t.snapshots[id]? := by
  rw [grows.snapshots, lookup_insert, lookup_insert]

theorem parentID_ne (logged : Logged t) : snap.parentID ≠ snap.id := by
  rw [grows.id]
  exact Nat.ne_of_lt (logged.lt_nextID grows.parentLive)

theorem id_ne_rootID (logged : Logged t) : snap.id ≠ rootID := by
  rw [grows.id]
  exact Nat.ne_of_gt logged.rootID_lt_nextID

theorem lookup_id : next.snapshots[snap.id]? = some snap := by
  rw [grows.lookup, if_pos rfl]

variable {id : ID} {before : Snapshot}

theorem lookup_cases {found : Snapshot}
    (live : next.snapshots[id]? = some found) : (id = snap.id ∧ found = snap) ∨
      ∃ before, t.snapshots[id]? = some before ∧ id ≠ snap.id ∧ found = { before with children :=
          if id = snap.parentID then before.children ++ [snap.id] else before.children } := by
  rw [grows.lookup] at live
  split at live
  · rename_i isNew
    exact Or.inl ⟨isNew, (Option.some.inj live).symm⟩
  · rename_i notNew
    right
    split at live
    · rename_i isParent
      refine ⟨parent, isParent ▸ grows.parentLive, notNew, ?_⟩
      rw [if_pos isParent]
      exact (Option.some.inj live).symm
    · rename_i notParent
      refine ⟨found, live, notNew, ?_⟩
      rw [if_neg notParent]

theorem lookup_of_live (logged : Logged t)
    (live : t.snapshots[id]? = some before) : next.snapshots[id]? = some { before with children :=
      if id = snap.parentID then before.children ++ [snap.id] else before.children } := by
  have notNew : id ≠ snap.id := by
    rw [grows.id]
    exact Nat.ne_of_lt (logged.lt_nextID live)
  rw [grows.lookup, if_neg notNew]
  by_cases isParent : id = snap.parentID
  · subst isParent
    rw [if_pos rfl, if_pos rfl, Option.some.inj (live.symm.trans grows.parentLive)]
  · rw [if_neg isParent, if_neg isParent, live]

theorem mem_of_live (logged : Logged t) (live : id ∈ t.snapshots) : id ∈ next.snapshots := by
  rcases mem_iff_lookup.mp live with ⟨before, old⟩
  exact mem_iff_lookup.mpr ⟨_, grows.lookup_of_live logged old⟩

theorem oldEntry {i : Nat} (bound : i < t.history.length) : next.history[i]? = t.history[i]? := by
  rw [grows.history, List.getElem?_append_left bound]

theorem entry_cases {i : Nat} {info : NodeInfo} (entry : next.history[i]? = some info) :
    t.history[i]? = some info ∨ (i = t.history.length ∧ info = snap.info) := by
  rw [grows.history, List.getElem?_append] at entry
  split at entry
  · exact Or.inl entry
  · rename_i bound
    right
    have inside := (List.getElem?_eq_some_iff.mp entry).1
    simp only [length_singleton] at inside
    have last : i = t.history.length := by omega
    subst last
    simp only [Nat.sub_self, List.getElem?_cons_zero, Option.some.injEq] at entry
    exact ⟨rfl, entry.symm⟩

theorem log (logged : Logged t) : Log next.history := by
  have log := logged.log
  have lengthEq : t.history.length = snap.id := by rw [grows.id, logged.next]
  have nonempty : 0 < t.history.length := (List.getElem?_eq_some_iff.mp log.root).1
  have parentOld := logged.lt_nextID grows.parentLive
  rw [logged.next] at parentOld
  constructor
  · rw [grows.oldEntry (i := rootID) nonempty]
    exact log.root
  · intro i info entry
    rcases grows.entry_cases entry with old | ⟨rfl, rfl⟩
    · exact log.ids old
    · exact lengthEq.symm
  · intro i info entry notRoot
    rcases grows.entry_cases entry with old | ⟨rfl, rfl⟩
    · exact log.parents old notRoot
    · exact parentOld
  · intro i info above entry notRoot aboveEntry
    rcases grows.entry_cases entry with old | ⟨rfl, rfl⟩
    · have inside := (List.getElem?_eq_some_iff.mp old).1
      rw [grows.oldEntry (lt_trans (log.parents old notRoot) inside)] at aboveEntry
      exact log.depths old notRoot aboveEntry
    · change next.history[snap.parentID]? = some above at aboveEntry
      rw [grows.oldEntry parentOld] at aboveEntry
      rcases logged.recorded grows.parentLive with ⟨parentInfo, parentEntry, -, -, depthEq⟩
      have infoEq := Option.some.inj (parentEntry.symm.trans aboveEntry)
      rw [← infoEq, ← depthEq]
      exact grows.depth

theorem logged (logged : Logged t) : Logged next where
  log := grows.log logged
  next := by rw [grows.nextID, grows.history, length_append, logged.next]; rfl
  recorded := by
    intro id found live
    have lengthEq : t.history.length = snap.id := by rw [grows.id, logged.next]
    rcases grows.lookup_cases live with ⟨rfl, rfl⟩ | ⟨before, old, -, rfl⟩
    · refine ⟨found.info, ?_, rfl, rfl, rfl⟩
      rw [grows.history, ← lengthEq, List.getElem?_append_right le_rfl]
      simp
    · rcases logged.recorded old with ⟨info, entry, idEq, parentEq, depthEq⟩
      refine ⟨info, ?_, idEq, parentEq, depthEq⟩
      rw [grows.oldEntry (List.getElem?_eq_some_iff.mp entry).1]
      exact entry
  rootLive := grows.mem_of_live logged logged.rootLive

theorem unlisted (logged : Logged t) (listed : Listed t)
    (live : t.snapshots[id]? = some before) : snap.id ∉ before.children := by
  intro member
  rcases listed.child live member with ⟨-, child, childLive, -⟩
  rw [grows.id, logged.lookup_nextID] at childLive
  contradiction

theorem parentID_ne_id (logged : Logged t)
    (live : t.snapshots[id]? = some before) (notRoot : id ≠ rootID) :
    before.parentID ≠ snap.id := by
  rw [grows.id]
  exact Nat.ne_of_lt (lt_trans (logged.parentID_lt live notRoot) (logged.lt_nextID live))

theorem listed (logged : Logged t) (listed : Listed t) : Listed next := by
  constructor
  · intro id found live
    rcases grows.lookup_cases live with ⟨-, rfl⟩ | ⟨before, old, -, rfl⟩
    · rw [grows.childless]
      exact nodup_nil
    · have nodup := listed.nodup old
      by_cases isParent : id = snap.parentID
      · simp only [isParent, if_true]
        exact nodup_append.mpr ⟨nodup, nodup_singleton _, by
          intro first firstMem second secondMem equal
          rw [mem_singleton.mp secondMem] at equal
          exact grows.unlisted logged listed old (equal ▸ firstMem)⟩
      · simpa only [isParent, if_false] using nodup
  · intro id childID found live member
    rcases grows.lookup_cases live with ⟨-, rfl⟩ | ⟨before, old, -, rfl⟩
    · rw [grows.childless] at member
      exact absurd member not_mem_nil
    · have wasChild : childID ∈ before.children → childID ≠ rootID ∧
          ∃ child, next.snapshots[childID]? = some child ∧ child.parentID = id := by
        intro oldMember
        rcases listed.child old oldMember with ⟨notRoot, child, childLive, parentEq⟩
        exact ⟨notRoot, _, grows.lookup_of_live logged childLive, parentEq⟩
      by_cases isParent : id = snap.parentID
      · simp only [isParent, if_true, mem_append, mem_singleton] at member
        rcases member with oldMember | rfl
        · exact wasChild oldMember
        · exact ⟨grows.id_ne_rootID logged, snap, grows.lookup_id, isParent.symm⟩
      · simp only [isParent, if_false] at member
        exact wasChild member
  · intro id found above live notRoot aboveLive
    rcases grows.lookup_cases live with ⟨rfl, rfl⟩ | ⟨before, old, -, rfl⟩
    · rw [grows.lookup_of_live logged grows.parentLive] at aboveLive
      cases aboveLive
      simp
    · rcases grows.lookup_cases aboveLive with ⟨isNew, -⟩ | ⟨aboveBefore, aboveOld, -, rfl⟩
      · have parentOld := grows.parentID_ne_id logged old notRoot
        exact absurd isNew parentOld
      · have member := listed.listed old notRoot aboveOld
        simp only
        split
        · exact mem_append_left _ member
        · exact member

theorem rooted (logged : Logged t) (rooted : Rooted t) : Rooted next := by
  intro id found live notRoot
  rcases grows.lookup_cases live with ⟨-, rfl⟩ | ⟨before, old, -, rfl⟩
  · exact grows.mem_of_live logged (mem_iff_lookup.mpr ⟨_, grows.parentLive⟩)
  · have parentLive := rooted old notRoot
    exact grows.mem_of_live logged parentLive

theorem sound (sound : Sound t) : Sound next where
  logged := grows.logged sound.logged
  listed := grows.listed sound.logged sound.listed
  currentLive := by
    rw [grows.current]
    exact grows.mem_of_live sound.logged sound.currentLive

end

end Grows

end OpenThesis.SnapshotTree
