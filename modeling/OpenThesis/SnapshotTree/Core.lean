import Mathlib.Data.Finset.Insert
import OpenThesis.Forest.Core

/-!
# The snapshot tree

The tree of VM snapshots (`internal/snapshot/tree.go`). Identifiers are natural numbers, since no
run creates `2 ^ 64` nodes; depth wraps at 32 bits.
-/

namespace OpenThesis.SnapshotTree

open Loop Forest

abbrev ID := Nat

def rootID : ID := 0

def errNotFound : String := "snapshot: not found"

def errInvalidParent : String := "snapshot: invalid parent"

/-- What the history keeps of a node. -/
structure NodeInfo where
  id : ID
  parentID : ID
  depth : UInt32
  timeNS : UInt64 := 0
  coverage : UInt64 := 0
  icount : UInt64 := 0
  faults : UInt32 := 0
  faultKindMask : UInt16 := 0
  deriving DecidableEq, Repr

/-- A live node. -/
structure Snapshot where
  id : ID
  parentID : ID
  hypervisorID : ID := 0
  children : List ID := []
  timeNS : UInt64 := 0
  depth : UInt32
  coverage : UInt64 := 0
  rngState : UInt64 := 0
  icount : UInt64 := 0
  faults : UInt32 := 0
  faultKindMask : UInt16 := 0
  deriving DecidableEq, Repr

/-- The live nodes by number, and the history of all. -/
structure Tree where
  snapshots : Std.ExtTreeMap ID Snapshot
  current : ID
  nextID : ID
  history : List NodeInfo

def newTree : Tree where
  snapshots := (∅ : Std.ExtTreeMap ID Snapshot).insert rootID
    { id := rootID, parentID := rootID, depth := 0 }
  current := rootID
  nextID := 1
  history := [{ id := rootID, parentID := rootID, depth := 0 }]

namespace Tree

def create (t : Tree) (parentID hypervisorID : ID) (timeNS coverage rngState : UInt64)
    (faults : UInt32) (faultKindMask : UInt16) : Except String (ID × Tree) :=
  match t.snapshots[parentID]? with
  | none => .error s!"tree create parent {parentID}: {errInvalidParent}"
  | some parent =>
    let id := t.nextID
    let snap : Snapshot :=
      { id, parentID, hypervisorID, timeNS, icount := timeNS / 128,
        depth := parent.depth + 1, coverage, rngState, faults, faultKindMask }
    let linked := t.snapshots.insert parentID
      { parent with children := parent.children ++ [id] }
    .ok (id,
      { t with
        snapshots := linked.insert id snap
        nextID := t.nextID + 1
        history := t.history ++
          [{ id, parentID, depth := snap.depth, timeNS, coverage,
             icount := snap.icount, faults := snap.faults, faultKindMask }] })

def get (t : Tree) (id : ID) : Except String Snapshot :=
  match t.snapshots[id]? with
  | none => .error s!"tree get {id}: {errNotFound}"
  | some snap => .ok snap

def setCurrent (t : Tree) (id : ID) : Except String Tree :=
  if id ∈ t.snapshots then .ok { t with current := id }
  else .error s!"tree set current {id}: {errNotFound}"

def depth (t : Tree) (id : ID) : UInt32 :=
  match t.snapshots[id]? with
  | none => 0
  | some snap => snap.depth

def hypervisorID (t : Tree) (id : ID) : Except String ID :=
  match t.snapshots[id]? with
  | none => .error s!"tree hypervisor id {id}: {errNotFound}"
  | some snap => .ok snap.hypervisorID

def isChildOf (t : Tree) (candidate parentID : ID) : Bool :=
  match t.snapshots[candidate]? with
  | none => false
  | some snap => snap.parentID = parentID

def parent? (t : Tree) (id : ID) : Option ID :=
  match t.snapshots[id]? with
  | none => none
  | some snap => if id = rootID then none else some snap.parentID

def hashVisit (t : Tree) (current : ID) : Option (Snapshot × Option ID) :=
  (t.snapshots[current]?).map fun snap =>
    (snap, if current = rootID then none else some snap.parentID)

def mixHash (h : UInt64) (s : Snapshot) : UInt64 :=
  (h ^^^ (s.depth.toUInt64 * 0x9E3779B97F4A7C15 ^^^ s.rngState)) *
    6364136223846793005 + 1442695040888963407

def pathHash (t : Tree) (id : ID) (seed : UInt64) (fuel : Nat) : Option UInt64 :=
  (run (walk t.hashVisit) fuel ([], id)).map fun chain => chain.reverse.foldl mixHash seed

def pathVisit (t : Tree) (current : ID) : Option (ID × Option ID) :=
  match t.snapshots[current]? with
  | none => some (current, none)
  | some snap =>
    if current = rootID then some (current, none)
    else if snap.parentID = current then some (current, none)
    else some (current, some snap.parentID)

def pathToRoot (t : Tree) (id : ID) (fuel : Nat) : Option (List ID) :=
  (run (walk t.pathVisit) fuel ([], id)).map List.reverse

def ancestorVisit (t : Tree) (cur : ID) : Option (ID × Option ID) :=
  (t.snapshots[cur]?).map fun snap =>
    (cur, if cur = rootID then none else some snap.parentID)

def ancestors (t : Tree) (id : ID) (fuel : Nat) : Option (List ID) :=
  (run (walk t.ancestorVisit) fuel ([], id)).map List.reverse

def markAncestors (t : Tree) (keep : Finset ID) (id : ID) : Finset ID :=
  (run (mark t.parent?) (t.snapshots.size + 1) (keep, id)).getD keep

def removeNode (t : Tree) (id : ID) : Tree :=
  match t.snapshots[id]? with
  | none => t
  | some snap =>
    let unlinked :=
      match t.snapshots[snap.parentID]? with
      | none => t.snapshots
      | some parent => t.snapshots.insert snap.parentID
          { parent with children := parent.children.erase id }
    { t with snapshots := unlinked.erase id }

def removeNodes (t : Tree) (ids : List ID) : Tree :=
  ids.foldl removeNode t

def resetCurrent (t : Tree) : Tree :=
  if t.current ∈ t.snapshots then t else { t with current := rootID }

def hypervisorIDs (t : Tree) (ids : List ID) : List ID :=
  ids.filterMap fun id => (t.snapshots[id]?).map (·.hypervisorID)

def pruneKeep (t : Tree) (frontierIDs : List ID) : Finset ID :=
  frontierIDs.foldl t.markAncestors {rootID}

def pruned (t : Tree) (frontierIDs : List ID) : List ID :=
  t.snapshots.keys.filter fun id => id ≠ rootID ∧ id ∉ t.pruneKeep frontierIDs

def prune (t : Tree) (frontierIDs : List ID) : List ID × Tree :=
  (t.hypervisorIDs (t.pruned frontierIDs),
    (t.removeNodes (t.pruned frontierIDs)).resetCurrent)

def evictionCandidates (t : Tree) (currentID : ID) : List ID :=
  t.snapshots.keys.filter fun id =>
    id ≠ rootID ∧ id ∉ t.markAncestors {rootID} currentID

def evicted (t : Tree) (currentID : ID) (maxSize : Int) : List ID :=
  let candidates := t.evictionCandidates currentID
  let toEvict := (t.snapshots.size : Int) - maxSize
  candidates.take (if toEvict > candidates.length then candidates.length else toEvict.toNat)

def pruneOldestExcept (t : Tree) (currentID : ID) (maxSize : Int) : List ID × Tree :=
  if (t.snapshots.size : Int) ≤ maxSize then ([], t)
  else
    (t.hypervisorIDs (t.evicted currentID maxSize),
      (t.removeNodes (t.evicted currentID maxSize)).resetCurrent)

def validateParent (t : Tree) (id : ID) : Except String Unit :=
  match t.snapshots[id]? with
  | none => .ok ()
  | some snap =>
    if id = rootID then .ok ()
    else
      match t.snapshots[snap.parentID]? with
      | none =>
        .error s!"tree validate: snapshot {id} has missing parent {snap.parentID}"
      | some parent =>
        if parent.depth ≥ snap.depth then
          .error s!"tree validate: snapshot {id} depth {snap.depth} not greater than parent {snap.parentID} depth {parent.depth}"
        else if id ∈ parent.children then .ok ()
        else
          .error s!"tree validate: snapshot {id} not in parent {snap.parentID} children list"

def validateChild (t : Tree) (id childID : ID) : Except String Unit :=
  match t.snapshots[childID]? with
  | none => .error s!"tree validate: snapshot {id} lists nonexistent child {childID}"
  | some child =>
    if child.parentID ≠ id then
      .error s!"tree validate: snapshot {id} lists child {childID} but child's parent is {child.parentID}"
    else .ok ()

def validateChildren (t : Tree) (id : ID) : Except String Unit :=
  match t.snapshots[id]? with
  | none => .ok ()
  | some snap => snap.children.forM (t.validateChild id)

def validate (t : Tree) : Except String Unit := do
  let roots := (t.snapshots.toList.filter fun entry => entry.2.id = rootID).length
  if roots ≠ 1 then
    throw s!"tree validate: expected 1 root, found {roots}"
  if t.current ∉ t.snapshots then
    throw s!"tree validate: current snapshot {t.current} not found"
  t.snapshots.keys.forM t.validateParent
  t.snapshots.keys.forM t.validateChildren

end Tree

inductive Op where
  | create (parentID hypervisorID : ID) (timeNS coverage rngState : UInt64)
      (faults : UInt32) (faultKindMask : UInt16)
  | setCurrent (id : ID)
  | prune (frontierIDs : List ID)
  | pruneOldestExcept (currentID : ID) (maxSize : Int)
  deriving DecidableEq, Repr

namespace Op

def isCreate : Op → Bool
  | create .. => true
  | _ => false

def isEviction : Op → Bool
  | pruneOldestExcept .. => true
  | _ => false

end Op

/-- One call; a failed one leaves the tree as it was. -/
def Tree.apply (t : Tree) : Op → Tree
  | .create parentID hypervisorID timeNS coverage rngState faults faultKindMask =>
    match t.create parentID hypervisorID timeNS coverage rngState faults faultKindMask with
    | .ok (_, next) => next
    | .error _ => t
  | .setCurrent id =>
    match t.setCurrent id with
    | .ok next => next
    | .error _ => t
  | .prune frontierIDs => (t.prune frontierIDs).2
  | .pruneOldestExcept currentID maxSize => (t.pruneOldestExcept currentID maxSize).2

def Tree.applyAll (t : Tree) (ops : List Op) : Tree :=
  ops.foldl Tree.apply t

@[simp]
theorem Tree.applyAll_nil (t : Tree) : t.applyAll [] = t :=
  rfl

@[simp]
theorem Tree.applyAll_cons (t : Tree) (op : Op) (ops : List Op) :
    t.applyAll (op :: ops) = (t.apply op).applyAll ops :=
  rfl

theorem Tree.applyAll_append (t : Tree) (first second : List Op) :
    t.applyAll (first ++ second) = (t.applyAll first).applyAll second :=
  List.foldl_append

def creates (ops : List Op) : Nat :=
  ops.countP Op.isCreate

end OpenThesis.SnapshotTree
