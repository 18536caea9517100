import OpenThesis.SnapshotTree.Path

/-!
# What the explorer records

Violations and assertion counts (`internal/explorer/explorer.go`).
-/

namespace OpenThesis.Explorer

open SnapshotTree

structure Violation where
  property : String
  message : String
  snapshotID : ID := 0
  hypervisorID : ID := 0
  seed : UInt64 := 0
  step : Nat := 0
  burstInsns : UInt64 := 0
  path : List ID := []
  faultKindMask : UInt16 := 0
  concurrentCmds : Nat := 0
  deriving DecidableEq, Repr

def reportViolation (tree : SnapshotTree.Tree) (v : Violation) : Violation :=
  if v.snapshotID ≠ 0 then
    let v := { v with path := (tree.pathToRoot v.snapshotID (tree.nextID + 1)).getD [] }
    match tree.get v.snapshotID with
    | .ok snap => { v with faultKindMask := snap.faultKindMask }
    | .error _ => v
  else v

theorem path_reportViolation {tree : SnapshotTree.Tree} (logged : Logged tree) {v : Violation}
    (notRoot : v.snapshotID ≠ 0) {path : List ID}
    (ancestry : Forest.Ancestry tree.parent? v.snapshotID path) :
    (reportViolation tree v).path = path := by
  have walked := pathToRoot_nextID logged ancestry
  unfold reportViolation
  rw [if_pos notRoot, walked]
  dsimp only
  split <;> rfl

structure AssertionCounts where
  alwaysTotal : Nat := 0
  alwaysPassed : Nat := 0
  alwaysFailed : Nat := 0
  sometimesTotal : Nat := 0
  sometimesPassed : Nat := 0
  reachableTotal : Nat := 0
  reachablePassed : Nat := 0
  deriving DecidableEq, Repr

namespace AssertionCounts

def countAlways (counts : AssertionCounts) (condition : Bool) : AssertionCounts :=
  if condition then
    { counts with
      alwaysTotal := counts.alwaysTotal + 1
      alwaysPassed := counts.alwaysPassed + 1 }
  else
    { counts with
      alwaysTotal := counts.alwaysTotal + 1
      alwaysFailed := counts.alwaysFailed + 1 }

def countSometimes (counts : AssertionCounts) (condition : Bool) : AssertionCounts :=
  if condition then
    { counts with
      sometimesTotal := counts.sometimesTotal + 1
      sometimesPassed := counts.sometimesPassed + 1 }
  else { counts with sometimesTotal := counts.sometimesTotal + 1 }

def countReachable (counts : AssertionCounts) (condition : Bool) : AssertionCounts :=
  if condition then
    { counts with
      reachableTotal := counts.reachableTotal + 1
      reachablePassed := counts.reachablePassed + 1 }
  else { counts with reachableTotal := counts.reachableTotal + 1 }

def recordAssertion (counts : AssertionCounts) (assertType : String) (condition : Bool) :
    AssertionCounts :=
  match assertType with
  | "always" => counts.countAlways condition
  | "always_or_unreachable" => counts.countAlways condition
  | "unreachable" => counts.countAlways false
  | "sometimes" => counts.countSometimes condition
  | "sometimes_all" => counts.countSometimes condition
  | "reachable" => counts.countReachable condition
  | _ => counts

def Balanced (counts : AssertionCounts) : Prop :=
  counts.alwaysTotal = counts.alwaysPassed + counts.alwaysFailed

variable {counts : AssertionCounts} {condition : Bool}

section

variable (balanced : counts.Balanced)

include balanced

theorem balanced_countAlways : (counts.countAlways condition).Balanced := by
  unfold Balanced countAlways at *
  cases condition <;> simp only [Bool.false_eq_true, if_true, if_false] <;> omega

theorem balanced_countSometimes : (counts.countSometimes condition).Balanced := by
  unfold countSometimes
  cases condition <;> exact balanced

theorem balanced_countReachable : (counts.countReachable condition).Balanced := by
  unfold countReachable
  cases condition <;> exact balanced

theorem balanced_recordAssertion (assertType : String) :
    (counts.recordAssertion assertType condition).Balanced := by
  unfold recordAssertion
  split
  case h_1 | h_2 | h_3 => exact balanced_countAlways balanced
  case h_4 | h_5 => exact balanced_countSometimes balanced
  case h_6 => exact balanced_countReachable balanced
  case h_7 => exact balanced

end

end AssertionCounts

end OpenThesis.Explorer
