import OpenThesis.SnapshotTree.Run

/-!
# Validation

`Valid` lists what `Validate` checks. On a sound tree all of it holds but for orphans and wrapped
depths.
-/

namespace OpenThesis.SnapshotTree

open Keyed

/-- What `Validate` checks. -/
structure Valid (t : Tree) : Prop where
  root : (t.snapshots.toList.filter fun entry => entry.2.id = rootID).length = 1
  current : t.current ∈ t.snapshots
  parent : ∀ ⦃id : ID⦄ ⦃snap : Snapshot⦄, t.snapshots[id]? = some snap → id ≠ rootID →
    ∃ parent, t.snapshots[snap.parentID]? = some parent ∧ parent.depth < snap.depth ∧
      id ∈ parent.children
  child : ∀ ⦃id childID : ID⦄ ⦃snap : Snapshot⦄, t.snapshots[id]? = some snap →
    childID ∈ snap.children → ∃ child, t.snapshots[childID]? = some child ∧ child.parentID = id

section

variable {ε α : Type}

theorem forM_eq_ok_iff (check : α → Except ε Unit) (items : List α) :
    items.forM check = .ok () ↔ ∀ item ∈ items, check item = .ok () := by
  induction items with
  | nil => simp [List.forM, pure, Except.pure]
  | cons item items ih =>
    rw [List.forall_mem_cons, ← ih]
    change (check item >>= fun _ => items.forM check) = .ok () ↔ _
    cases check item with
    | error e | ok => simp [bind, Except.bind]

end

section

variable (t : Tree) (id childID : ID)

theorem validateParent_eq_ok_iff : t.validateParent id = .ok () ↔
      ∀ snap, t.snapshots[id]? = some snap → id ≠ rootID →
        ∃ parent, t.snapshots[snap.parentID]? = some parent ∧ parent.depth < snap.depth ∧
          id ∈ parent.children := by
  unfold Tree.validateParent
  cases live : t.snapshots[id]? with
  | none => simp
  | some snap =>
    by_cases isRoot : id = rootID
    · simp [isRoot]
    · cases above : t.snapshots[snap.parentID]? with
      | none => simp [isRoot, above]
      | some parent =>
        by_cases shallow : parent.depth ≥ snap.depth
        · simp [isRoot, above, shallow, UInt32.not_lt.mpr shallow]
        · by_cases listed : id ∈ parent.children
          · simp [isRoot, above, shallow, listed, UInt32.not_le.mp shallow]
          · simp [isRoot, above, shallow, listed]

theorem validateChild_eq_ok_iff : t.validateChild id childID = .ok () ↔
      ∃ child, t.snapshots[childID]? = some child ∧ child.parentID = id := by
  unfold Tree.validateChild
  cases live : t.snapshots[childID]? with
  | none | some child => simp

theorem validateChildren_eq_ok_iff : t.validateChildren id = .ok () ↔
      ∀ snap, t.snapshots[id]? = some snap → ∀ childID ∈ snap.children,
        ∃ child, t.snapshots[childID]? = some child ∧ child.parentID = id := by
  unfold Tree.validateChildren
  cases live : t.snapshots[id]? with
  | none => simp
  | some snap =>
    change snap.children.forM (t.validateChild id) = .ok () ↔ _
    rw [forM_eq_ok_iff]
    simp [validateChild_eq_ok_iff]

end

theorem validate_eq_ok_iff (t : Tree) : t.validate = .ok () ↔ Valid t := by
  have live : ∀ ⦃id : ID⦄ ⦃snap : Snapshot⦄, t.snapshots[id]? = some snap →
      id ∈ t.snapshots.keys := by
    intro id snap found
    exact mem_keys_iff.mpr (mem_iff_lookup.mpr ⟨snap, found⟩)
  unfold Tree.validate
  by_cases root : (t.snapshots.toList.filter fun entry => entry.2.id = rootID).length = 1
  · by_cases current : t.current ∈ t.snapshots
    · have checks : (t.snapshots.keys.forM t.validateParent >>= fun _ =>
          t.snapshots.keys.forM t.validateChildren) = .ok () ↔
          t.snapshots.keys.forM t.validateParent = .ok () ∧
            t.snapshots.keys.forM t.validateChildren = .ok () := by
        cases t.snapshots.keys.forM t.validateParent with
        | error e | ok => simp [bind, Except.bind]
      simp only [root, current, ne_eq, not_true_eq_false, if_false]
      rw [checks, forM_eq_ok_iff, forM_eq_ok_iff]
      constructor
      · rintro ⟨parents, children⟩
        constructor
        · exact root
        · exact current
        · intro id snap found notRoot
          exact (validateParent_eq_ok_iff t id).mp (parents id (live found)) snap found notRoot
        · intro id childID snap found member
          exact (validateChildren_eq_ok_iff t id).mp (children id (live found)) snap found
            childID member
      · intro valid
        constructor
        · intro id _
          apply (validateParent_eq_ok_iff t id).mpr
          intro snap found notRoot
          exact valid.parent found notRoot
        · intro id _
          apply (validateChildren_eq_ok_iff t id).mpr
          intro snap found childID member
          exact valid.child found member
    · constructor
      · intro accepted
        simp [root, current, throw, throwThe, MonadExceptOf.throw, bind, Except.bind] at accepted
      · intro valid
        exact absurd valid.current current
  · constructor
    · intro accepted
      simp [root, throw, throwThe, MonadExceptOf.throw, bind, Except.bind] at accepted
    · intro valid
      exact absurd valid.root root

theorem Logged.one_root {t : Tree} (logged : Logged t) :
    (t.snapshots.toList.filter fun entry => entry.2.id = rootID).length = 1 := by
  have sameKey : t.snapshots.toList.filter (fun entry => entry.2.id = rootID) =
      t.snapshots.toList.filter (fun entry => entry.1 == rootID) := by
    apply List.filter_congr
    rintro ⟨id, snap⟩ member
    have live := Std.ExtTreeMap.mem_toList_iff_getElem?_eq_some.mp member
    rcases logged.recorded live with ⟨-, -, idEq, -⟩
    rw [Bool.eq_iff_iff]
    simp [idEq]
  have counted : (t.snapshots.toList.filter fun entry => entry.1 == rootID).length =
      t.snapshots.keys.count rootID := by
    rw [← Std.ExtTreeMap.map_fst_toList_eq_keys, List.count, List.countP_map,
      List.countP_eq_length_filter]
    rfl
  rw [sameKey, counted]
  exact List.count_eq_one_of_mem (keys_nodup t) (mem_keys_iff.mpr logged.rootLive)

def Deepens (t : Tree) : Prop :=
  ∀ ⦃id : ID⦄ ⦃snap parent : Snapshot⦄, t.snapshots[id]? = some snap → id ≠ rootID →
    t.snapshots[snap.parentID]? = some parent → parent.depth < snap.depth

theorem Sound.validate_iff {t : Tree} (sound : Sound t) :
    t.validate = .ok () ↔ Rooted t ∧ Deepens t := by
  rw [validate_eq_ok_iff]
  constructor
  · intro valid
    constructor
    · intro id snap live notRoot
      rcases valid.parent live notRoot with ⟨parent, parentLive, -⟩
      exact mem_iff_lookup.mpr ⟨parent, parentLive⟩
    · intro id snap parent live notRoot parentLive
      rcases valid.parent live notRoot with ⟨found, foundLive, deeper, -⟩
      rw [Option.some.inj (parentLive.symm.trans foundLive)]
      exact deeper
  · rintro ⟨rooted, deepens⟩
    constructor
    · exact sound.logged.one_root
    · exact sound.currentLive
    · intro id snap live notRoot
      rcases mem_iff_lookup.mp (rooted live notRoot) with ⟨parent, parentLive⟩
      exact ⟨parent, parentLive, deepens live notRoot parentLive,
        sound.listed.listed live notRoot parentLive⟩
    · intro id childID snap live member
      exact (sound.listed.child live member).2

theorem Logged.deepens {t : Tree} (logged : Logged t) (short : t.history.length ≤ 2 ^ 32) :
    Deepens t := by
  intro id snap parent live notRoot parentLive
  rcases logged.recorded live with ⟨info, entry, -, parentEq, depthEq⟩
  rcases logged.recorded parentLive with ⟨above, aboveEntry, -, -, aboveDepthEq⟩
  rw [parentEq] at aboveEntry
  have below := logged.log.depth_succ short entry notRoot aboveEntry
  rw [UInt32.lt_iff_toNat_lt, depthEq, aboveDepthEq, below]
  exact Nat.lt_succ_self _

end OpenThesis.SnapshotTree
