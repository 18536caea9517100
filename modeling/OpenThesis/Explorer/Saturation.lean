import Mathlib.Data.UInt
import OpenThesis.Keyed.Core
import OpenThesis.SnapshotTree.Core

/-!
# The saturation tracker

The edges discovered below each child of the root (`internal/explorer/saturation.go`).
-/

namespace OpenThesis.Explorer

open Keyed SnapshotTree

def saturationWindow : Nat := 200

structure SubtreeSaturation where
  rootID : ID
  totalSteps : UInt64 := 0
  totalDiscovery : UInt64 := 0
  recentWindow : List UInt64 := List.replicate saturationWindow 0
  windowCursor : Nat := 0
  deriving DecidableEq, Repr

abbrev SaturationTracker := Std.ExtTreeMap ID SubtreeSaturation

namespace SaturationTracker

def subtree (s : SaturationTracker) (subtreeRoot : ID) : SubtreeSaturation :=
  (s[subtreeRoot]?).getD { rootID := subtreeRoot }

def recordDiscovery (s : SaturationTracker) (subtreeRoot : ID) (newEdges : UInt64) :
    SaturationTracker :=
  let st := s.subtree subtreeRoot
  s.insert subtreeRoot
    { st with
      totalSteps := st.totalSteps + 1
      totalDiscovery := st.totalDiscovery + newEdges
      recentWindow := st.recentWindow.set (st.windowCursor % saturationWindow) newEdges
      windowCursor := st.windowCursor + 1 }

def discovered (s : SaturationTracker) : UInt64 :=
  total (·.totalDiscovery) s

theorem discovered_recordDiscovery (s : SaturationTracker) (subtreeRoot : ID) (newEdges : UInt64) :
    (s.recordDiscovery subtreeRoot newEdges).discovered = s.discovered + newEdges := by
  apply total_insert_add
  unfold subtree
  cases s[subtreeRoot]? with
  | none | some st => rfl

end SaturationTracker

/-- The ancestor at depth one; the fuel never runs out. -/
def subtreeRoot (tree : Tree) (id : ID) : ID :=
  match (tree.ancestors id (tree.nextID + 1)).getD [] with
  | _ :: second :: _ => second
  | _ => id

end OpenThesis.Explorer
