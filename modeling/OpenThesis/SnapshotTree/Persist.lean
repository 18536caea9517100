import Mathlib.Data.Nat.SuccPred
import OpenThesis.SnapshotTree.Path
import OpenThesis.SnapshotTree.Validate

/-!
# Saving and loading

The history and two counters are saved (`internal/snapshot/persist.go`); `LoadTree` rebuilds the
live map from them. The file gives back what was written.
-/

namespace OpenThesis.SnapshotTree

open Loop Forest Keyed List

structure TreeState where
  nextID : ID
  current : ID
  history : List NodeInfo

def saveTree (t : Tree) : TreeState where
  nextID := t.nextID
  current := t.current
  history := t.history

def loadedNode (n : NodeInfo) : Snapshot :=
  if n.id = rootID then
    { id := rootID, parentID := rootID, depth := 0, timeNS := n.timeNS,
      coverage := n.coverage, icount := n.icount, faults := n.faults }
  else
    { id := n.id, parentID := n.parentID, depth := n.depth, timeNS := n.timeNS,
      coverage := n.coverage, icount := n.icount, faults := n.faults }

def loadNodes (history : List NodeInfo) : Std.ExtTreeMap ID Snapshot :=
  history.foldl (fun snaps n => snaps.insert n.id (loadedNode n))
    ((∅ : Std.ExtTreeMap ID Snapshot).insert rootID
      { id := rootID, parentID := rootID, depth := 0 })

def linkChild (snaps : Std.ExtTreeMap ID Snapshot) (id : ID) : Std.ExtTreeMap ID Snapshot :=
  if id = rootID then snaps
  else
    match snaps[id]? with
    | none => snaps
    | some snap =>
      match snaps[snap.parentID]? with
      | none => snaps
      | some parent =>
        snaps.insert snap.parentID { parent with children := parent.children ++ [id] }

def loadTree (state : TreeState) : Tree :=
  let nodes := loadNodes state.history
  let snaps := nodes.keys.foldl linkChild nodes
  { snapshots := snaps
    current := if state.current ∈ snaps then state.current else rootID
    nextID := state.nextID
    history := state.history }

theorem loadNodes_lookup {history : List NodeInfo}
    (ids : ∀ ⦃i : Nat⦄ ⦃info : NodeInfo⦄, history[i]? = some info → info.id = i)
    (nonempty : history ≠ []) (id : ID) :
    (loadNodes history)[id]? = (history[id]?).map loadedNode := by
  induction history using reverseRecOn generalizing id with
  | nil => contradiction
  | append_singleton history n ih =>
    have lastID : n.id = history.length := by
      apply ids
      simp
    have oldIDs : ∀ ⦃i : Nat⦄ ⦃info : NodeInfo⦄, history[i]? = some info → info.id = i := by
      intro i info entry
      apply ids
      rw [List.getElem?_append_left (List.getElem?_eq_some_iff.mp entry).1]
      exact entry
    have loaded : loadNodes (history ++ [n]) =
        (loadNodes history).insert n.id (loadedNode n) := by
      simp only [loadNodes, foldl_append, foldl_cons, foldl_nil]
    rw [loaded, lookup_insert, lastID]
    by_cases isLast : id = history.length
    · simp [isLast]
    · rw [if_neg isLast]
      have split : (history ++ [n])[id]? = history[id]? := by
        rcases Nat.lt_or_gt_of_ne isLast with inside | outside
        · exact List.getElem?_append_left inside
        · rw [List.getElem?_eq_none, List.getElem?_eq_none]
          · exact Nat.le_of_lt outside
          · simpa using outside
      rw [split]
      by_cases first : history = []
      · subst first
        have notRoot : id ≠ rootID := isLast
        simp [loadNodes, lookup_insert, notRoot]
      · exact ih oldIDs first id

def isChildOf (snaps : Std.ExtTreeMap ID Snapshot) (id child : ID) : Bool :=
  child ≠ rootID && (snaps[child]?).map (·.parentID) == some id

variable (snaps : Std.ExtTreeMap ID Snapshot)

theorem linkChild_lookup (child id : ID) :
    (linkChild snaps child)[id]? = (snaps[id]?).map fun snap : Snapshot =>
      { snap with children :=
          snap.children ++ if isChildOf snaps id child then [child] else [] } := by
  unfold linkChild isChildOf
  by_cases isRoot : child = rootID
  · simp [isRoot]
  · cases found : snaps[child]? with
    | none => simp [isRoot]
    | some snap =>
      cases parentLive : snaps[snap.parentID]? with
      | none =>
        by_cases isParent : snap.parentID = id
        · subst isParent
          simp [isRoot, parentLive]
        · simp [isRoot, parentLive, isParent]
      | some parent =>
        by_cases isParent : snap.parentID = id
        · subst isParent
          simp [isRoot, parentLive]
        · simp [isRoot, parentLive, lookup_insert, isParent, Ne.symm isParent]

theorem isChildOf_linkChild (linked id child : ID) :
    isChildOf (linkChild snaps linked) id child = isChildOf snaps id child := by
  unfold isChildOf
  rw [linkChild_lookup, Option.map_map]
  rfl

theorem linkChildren_lookup (children : List ID) (id : ID) :
    (children.foldl linkChild snaps)[id]? = (snaps[id]?).map fun snap : Snapshot =>
      { snap with children := snap.children ++ children.filter (isChildOf snaps id) } := by
  induction children generalizing snaps with
  | nil => simp
  | cons child children ih =>
    rw [foldl_cons, ih, linkChild_lookup, Option.map_map]
    congr 1
    funext snap
    have same : isChildOf (linkChild snaps child) id = isChildOf snaps id := by
      funext other
      exact isChildOf_linkChild snaps child id other
    simp only [Function.comp_apply, same, filter_cons]
    by_cases isChild : isChildOf snaps id child
    · simp [isChild]
    · simp [isChild]

theorem Log.loadedNode_eq {history : List NodeInfo} (log : Log history) {id : ID}
    {info : NodeInfo} (entry : history[id]? = some info) :
    loadedNode info =
      { id := id, parentID := info.parentID, depth := info.depth, timeNS := info.timeNS,
        coverage := info.coverage, icount := info.icount, faults := info.faults } := by
  have idEq := log.ids entry
  unfold loadedNode
  rw [idEq]
  by_cases isRoot : id = rootID
  · subst isRoot
    rw [log.root] at entry
    rw [if_pos rfl, ← Option.some.inj entry]
  · rw [if_neg isRoot]

section

variable {t : Tree} (logged : Logged t) {id : ID}

def loadedChildren (t : Tree) (id : ID) : List ID :=
  (loadNodes t.history).keys.filter (isChildOf (loadNodes t.history) id)

include logged

theorem loadNodes_lookup_of_logged (id : ID) :
    (loadNodes t.history)[id]? = (t.history[id]?).map loadedNode := by
  apply loadNodes_lookup logged.log.ids
  intro empty
  have root := logged.log.root
  rw [empty] at root
  contradiction

theorem loadTree_lookup (id : ID) :
    (loadTree (saveTree t)).snapshots[id]? = (t.history[id]?).map fun info =>
      { loadedNode info with children := loadedChildren t id } := by
  change ((loadNodes t.history).keys.foldl linkChild (loadNodes t.history))[id]? = _
  rw [linkChildren_lookup, loadNodes_lookup_of_logged logged, Option.map_map]
  cases entry : t.history[id]? with
  | none => rfl
  | some info =>
    simp only [Option.map_some, Function.comp_apply, logged.log.loadedNode_eq entry, nil_append]
    rfl

theorem mem_loadTree : id ∈ (loadTree (saveTree t)).snapshots ↔ id < t.nextID := by
  rw [mem_iff_lookup, loadTree_lookup logged, logged.next]
  constructor
  · rintro ⟨snap, found⟩
    rcases Option.map_eq_some_iff.mp found with ⟨info, entry, -⟩
    exact (List.getElem?_eq_some_iff.mp entry).1
  · intro inside
    rw [List.getElem?_eq_getElem inside]
    exact ⟨_, rfl⟩

theorem mem_loadedChildren {childID : ID} : childID ∈ loadedChildren t id ↔
      childID ≠ rootID ∧ ∃ info, t.history[childID]? = some info ∧ info.parentID = id := by
  have parents : ∀ ⦃info : NodeInfo⦄, t.history[childID]? = some info →
      (loadedNode info).parentID = info.parentID := by
    intro info entry
    rw [logged.log.loadedNode_eq entry]
  rw [loadedChildren, mem_filter, Std.ExtTreeMap.mem_keys, mem_iff_lookup, isChildOf,
    loadNodes_lookup_of_logged logged]
  cases entry : t.history[childID]? with
  | none => simp
  | some info => simp [parents entry]

theorem sound_loadTree : Sound (loadTree (saveTree t)) := by
  have before : ∀ ⦃id : ID⦄ ⦃snap : Snapshot⦄,
      (loadTree (saveTree t)).snapshots[id]? = some snap →
      ∃ info, t.history[id]? = some info ∧ snap.id = id ∧ snap.parentID = info.parentID ∧
        snap.depth = info.depth ∧ snap.children = loadedChildren t id := by
    intro id snap found
    rw [loadTree_lookup logged] at found
    rcases Option.map_eq_some_iff.mp found with ⟨info, entry, rfl⟩
    refine ⟨info, entry, ?_⟩
    rw [logged.log.loadedNode_eq entry]
    exact ⟨rfl, rfl, rfl, rfl⟩
  have rootLive : rootID ∈ (loadTree (saveTree t)).snapshots :=
    (mem_loadTree logged).mpr logged.rootID_lt_nextID
  constructor
  · constructor
    · exact logged.log
    · exact logged.next
    · intro id snap found
      rcases before found with ⟨info, entry, idEq, parentEq, depthEq, -⟩
      exact ⟨info, entry, idEq, parentEq, depthEq⟩
    · exact rootLive
  · constructor
    · intro id snap found
      rcases before found with ⟨-, -, -, -, -, childrenEq⟩
      have distinct : (loadNodes t.history).keys.Nodup := by
        apply Std.ExtTreeMap.distinct_keys.imp
        intro first second differs equal
        exact differs (by simp [equal])
      rw [childrenEq]
      exact distinct.filter _
    · intro id childID snap found member
      rcases before found with ⟨-, -, -, -, -, childrenEq⟩
      rw [childrenEq, mem_loadedChildren logged] at member
      rcases member with ⟨notRoot, info, entry, parentEq⟩
      refine ⟨notRoot, { loadedNode info with children := loadedChildren t childID }, ?_, ?_⟩
      · rw [loadTree_lookup logged, entry, Option.map_some]
      · rw [logged.log.loadedNode_eq entry]
        exact parentEq
    · intro id snap parent found notRoot parentFound
      rcases before found with ⟨info, entry, -, parentEq, -, -⟩
      rcases before parentFound with ⟨-, -, -, -, -, childrenEq⟩
      rw [childrenEq, mem_loadedChildren logged]
      exact ⟨notRoot, info, entry, parentEq.symm⟩
  · change (if t.current ∈ (loadTree (saveTree t)).snapshots then t.current else rootID) ∈
      (loadTree (saveTree t)).snapshots
    split
    · assumption
    · exact rootLive

theorem rooted_loadTree : Rooted (loadTree (saveTree t)) := by
  intro id snap found notRoot
  have older := (sound_loadTree logged).logged.parentID_lt found notRoot
  have bound := (sound_loadTree logged).logged.lt_nextID found
  exact (mem_loadTree logged).mpr (lt_trans older bound)

theorem current_loadTree (currentLive : t.current ∈ t.snapshots) :
    (loadTree (saveTree t)).current = t.current := by
  rcases mem_iff_lookup.mp currentLive with ⟨snap, live⟩
  have loaded := (mem_loadTree logged).mpr (logged.lt_nextID live)
  exact if_pos loaded

end

end OpenThesis.SnapshotTree
