import OpenThesis.Keyed.Core
import OpenThesis.SnapshotTree.Core

/-!
# Invariants of the snapshot tree

`Logged` ties the live map to the history; `Listed` says that children lists hold the live nodes
that point back; `Rooted` that parents are live.
-/

namespace OpenThesis.SnapshotTree

open Forest Keyed

/-- Entry `i` describes node `i`, the first entry is the root, and every other node has an older
parent and is one level below it. -/
structure Log (history : List NodeInfo) : Prop where
  root : history[rootID]? = some { id := rootID, parentID := rootID, depth := 0 }
  ids : ∀ ⦃i : Nat⦄ ⦃info : NodeInfo⦄, history[i]? = some info → info.id = i
  parents : ∀ ⦃i : Nat⦄ ⦃info : NodeInfo⦄, history[i]? = some info → i ≠ rootID → info.parentID < i
  depths : ∀ ⦃i : Nat⦄ ⦃info above : NodeInfo⦄, history[i]? = some info → i ≠ rootID →
    history[info.parentID]? = some above → info.depth = above.depth + 1

/-- Live nodes agree with the history. -/
structure Logged (t : Tree) : Prop where
  log : Log t.history
  next : t.nextID = t.history.length
  recorded : ∀ ⦃id : ID⦄ ⦃snap : Snapshot⦄, t.snapshots[id]? = some snap →
    ∃ info, t.history[id]? = some info ∧ snap.id = id ∧
      snap.parentID = info.parentID ∧ snap.depth = info.depth
  rootLive : rootID ∈ t.snapshots

/-- Children lists and parent pointers agree wherever both ends are live. -/
structure Listed (t : Tree) : Prop where
  nodup : ∀ ⦃id : ID⦄ ⦃snap : Snapshot⦄, t.snapshots[id]? = some snap → snap.children.Nodup
  child : ∀ ⦃id childID : ID⦄ ⦃snap : Snapshot⦄, t.snapshots[id]? = some snap →
    childID ∈ snap.children →
    childID ≠ rootID ∧ ∃ child, t.snapshots[childID]? = some child ∧ child.parentID = id
  listed : ∀ ⦃id : ID⦄ ⦃snap parent : Snapshot⦄, t.snapshots[id]? = some snap → id ≠ rootID →
    t.snapshots[snap.parentID]? = some parent → id ∈ parent.children

def Rooted (t : Tree) : Prop :=
  ∀ ⦃id : ID⦄ ⦃snap : Snapshot⦄, t.snapshots[id]? = some snap → id ≠ rootID →
    snap.parentID ∈ t.snapshots

/-- What every operation keeps. -/
structure Sound (t : Tree) : Prop where
  logged : Logged t
  listed : Listed t
  currentLive : t.current ∈ t.snapshots

namespace Log

variable {history : List NodeInfo} {i : Nat} {info above : NodeInfo}

theorem exists_parent (log : Log history) (entry : history[i]? = some info)
    (notRoot : i ≠ rootID) : ∃ above, history[info.parentID]? = some above := by
  have older := log.parents entry notRoot
  have inside := (List.getElem?_eq_some_iff.mp entry).1
  exact ⟨_, List.getElem?_eq_getElem (lt_trans older inside)⟩

theorem depth_le (log : Log history) (entry : history[i]? = some info) : info.depth.toNat ≤ i := by
  induction i using Nat.strong_induction_on generalizing info with
  | _ i ih =>
    by_cases isRoot : i = rootID
    · subst isRoot
      rw [log.root] at entry
      rw [← Option.some.inj entry]
      exact Nat.zero_le _
    · rcases log.exists_parent entry isRoot with ⟨above, aboveEntry⟩
      have older : info.parentID < i := log.parents entry isRoot
      have aboveLe := ih info.parentID older aboveEntry
      rw [log.depths entry isRoot aboveEntry, UInt32.toNat_add]
      exact (Nat.mod_le _ _).trans (Nat.succ_le_of_lt (lt_of_le_of_lt aboveLe older))

theorem depth_succ (log : Log history) (short : history.length ≤ 2 ^ 32)
    (entry : history[i]? = some info) (notRoot : i ≠ rootID)
    (aboveEntry : history[info.parentID]? = some above) :
    info.depth.toNat = above.depth.toNat + 1 := by
  have older : info.parentID < i := log.parents entry notRoot
  have inside : i < history.length := (List.getElem?_eq_some_iff.mp entry).1
  have aboveLe := log.depth_le aboveEntry
  have small : above.depth.toNat + 1 < 2 ^ 32 :=
    lt_of_le_of_lt (Nat.succ_le_of_lt (lt_of_le_of_lt aboveLe older))
      (lt_of_lt_of_le inside short)
  rw [log.depths entry notRoot aboveEntry, UInt32.toNat_add]
  exact Nat.mod_eq_of_lt small

end Log

namespace Logged

variable {t : Tree} {id : ID} {snap : Snapshot}

theorem lt_nextID (logged : Logged t) (live : t.snapshots[id]? = some snap) : id < t.nextID := by
  rcases logged.recorded live with ⟨info, entry, -⟩
  rw [logged.next]
  exact (List.getElem?_eq_some_iff.mp entry).1

theorem lookup_nextID (logged : Logged t) : t.snapshots[t.nextID]? = none := by
  cases live : t.snapshots[t.nextID]? with
  | none => rfl
  | some snap => exact absurd (logged.lt_nextID live) (Nat.lt_irrefl _)

theorem parentID_lt (logged : Logged t) (live : t.snapshots[id]? = some snap)
    (notRoot : id ≠ rootID) : snap.parentID < id := by
  rcases logged.recorded live with ⟨info, entry, -, parentEq, -⟩
  rw [parentEq]
  exact logged.log.parents entry notRoot

theorem rootID_lt_nextID (logged : Logged t) : rootID < t.nextID := by
  rcases mem_iff_lookup.mp logged.rootLive with ⟨root, live⟩
  exact logged.lt_nextID live

end Logged

theorem newTree_lookup (id : ID) :
    newTree.snapshots[id]? =
      if id = rootID then some { id := rootID, parentID := rootID, depth := 0 } else none := by
  rw [newTree, lookup_insert]
  simp

theorem log_newTree : Log newTree.history where
  root := rfl
  ids := by
    intro i info entry
    cases i with
    | zero => simp only [newTree, List.getElem?_cons_zero, Option.some.injEq] at entry
              rw [← entry]
              rfl
    | succ i => simp [newTree] at entry
  parents := by
    intro i info entry notRoot
    cases i with
    | zero => exact absurd rfl notRoot
    | succ i => simp [newTree] at entry
  depths := by
    intro i info above entry notRoot
    cases i with
    | zero => exact absurd rfl notRoot
    | succ i => simp [newTree] at entry

theorem sound_newTree : Sound newTree where
  logged :=
    { log := log_newTree
      next := rfl
      recorded := by
        intro id snap live
        rw [newTree_lookup] at live
        split at live
        · rename_i isRoot
          subst isRoot
          cases live
          exact ⟨_, log_newTree.root, rfl, rfl, rfl⟩
        · contradiction
      rootLive := mem_iff_lookup.mpr ⟨_, newTree_lookup rootID⟩ }
  listed :=
    { nodup := by
        intro id snap live
        rw [newTree_lookup] at live
        split at live
        · cases live
          exact List.nodup_nil
        · contradiction
      child := by
        intro id childID snap live member
        rw [newTree_lookup] at live
        split at live
        · cases live
          exact absurd member List.not_mem_nil
        · contradiction
      listed := by
        intro id snap parent live notRoot
        rw [newTree_lookup, if_neg notRoot] at live
        contradiction }
  currentLive := mem_iff_lookup.mpr ⟨_, newTree_lookup rootID⟩

theorem rooted_newTree : Rooted newTree := by
  intro id snap live notRoot
  rw [newTree_lookup, if_neg notRoot] at live
  contradiction

end OpenThesis.SnapshotTree
