import OpenThesis.Slots.Core

/-!
# The coverage tracker

An edge bitmap with hit counts, flags and update counts (`internal/explorer/coverage.go`). Counters
that a report or a corpus shows wrap.
-/

namespace OpenThesis.Explorer

open Slots Std

def defaultCoverageMapSize : Nat := 65536

def mapSize (size : Int64) : Nat :=
  if 0 < size.toInt then size.toInt.toNat else defaultCoverageMapSize

theorem mapSize_pos (size : Int64) : 0 < mapSize size := by
  unfold mapSize
  split
  · next requested => exact Int.pos_iff_toNat_pos.mp requested
  · decide

theorem mapSize_lt (size : Int64) : mapSize size < 2 ^ 63 := by
  unfold mapSize
  split
  · have bound := size.toInt_lt
    omega
  · decide

/-- What is kept between runs. -/
structure Corpus where
  bitmap : List UInt8
  totalEdges : UInt64
  corpusEdges : UInt64
  maxMap : ExtTreeMap String Int64
  seenAsserts : List String

/-- The hit counts of all edges, and what was new. -/
structure CoverageTracker (n : Nat) where
  positive : 0 < n
  fits : n < 2 ^ 63
  bitmap : Vector UInt8 n
  virgin : Vector UInt8 n
  totalEdges : UInt64
  newEdges : UInt64
  edgeHits : Vector UInt32 n
  maxMap : ExtTreeMap String Int64
  seenAsserts : ExtTreeSet String
  assertionNoveltyCount : UInt64
  corpusEdges : UInt64
  stepNewMax : Nat
  stepNewExplore : Nat
  stepNewAsserts : Nat
  stepEdgeRarity : Float

def newCoverageTracker (size : Int64) : CoverageTracker (mapSize size) where
  positive := mapSize_pos size
  fits := mapSize_lt size
  bitmap := Vector.replicate _ 0
  virgin := Vector.replicate _ 0xFF
  totalEdges := 0
  newEdges := 0
  edgeHits := Vector.replicate _ 0
  maxMap := ∅
  seenAsserts := ∅
  assertionNoveltyCount := 0
  corpusEdges := 0
  stepNewMax := 0
  stepNewExplore := 0
  stepNewAsserts := 0
  stepEdgeRarity := 0

def hitBucket (count : UInt8) : UInt8 :=
  if count = 0 then 0
  else if count = 1 then 1
  else if count = 2 then 2
  else if count = 3 then 3
  else if count ≤ 7 then 4
  else if count ≤ 15 then 5
  else if count ≤ 31 then 6
  else if count ≤ 127 then 7
  else 8

def fnvOffset64 : UInt64 := 14695981039346656037

def fnvPrime64 : UInt64 := 1099511628211

def fnvMix (h : UInt64) (byte : UInt8) : UInt64 :=
  (h ^^^ byte.toUInt64) * fnvPrime64

def fnvHashString (s : String) : UInt64 :=
  s.toUTF8.toList.foldl fnvMix fnvOffset64

def valueBytes (value : Int64) : List UInt8 :=
  [0, 8, 16, 24, 32, 40, 48, 56].map fun shift : Int64 => (value >>> shift).toUInt64.toUInt8

def fnvHash (name : String) (value : Int64) : UInt64 :=
  (valueBytes value).foldl fnvMix (fnvHashString name)

def bucketInt64 (v : Int64) : Int64 :=
  if v ≤ 0 then 0
  else if v ≤ 10 then v
  else if v ≤ 100 then v / 10 * 10
  else if v ≤ 1000 then v / 100 * 100
  else if v ≤ 10000 then v / 1000 * 1000
  else v / 10000 * 10000

namespace CoverageTracker

variable {n : Nat}

def slotOf (c : CoverageTracker n) (hash : UInt64) : Fin n where
  val := (hash % UInt64.ofNat n).toNat
  isLt := by
    have fits := c.fits
    have whole : (UInt64.ofNat n).toNat = n := by
      rw [UInt64.toNat_ofNat']
      exact Nat.mod_eq_of_lt (by omega)
    rw [UInt64.toNat_mod, whole]
    exact Nat.mod_lt _ c.positive

def hitEdge (i : Fin n) (v : UInt8) : CoverageTracker n × Bool → CoverageTracker n × Bool
  | (c, foundNew) =>
    let old : UInt8 := c.bitmap.get i
    let c : CoverageTracker n :=
      { c with
        totalEdges := if old = 0 then c.totalEdges + 1 else c.totalEdges
        bitmap := setSlot c.bitmap i (saturatingAdd old v)
        edgeHits := setSlot c.edgeHits i (c.edgeHits.get i + 1) }
    if c.virgin.get i ≠ 0 ∧ (hitBucket old ≠ hitBucket (c.bitmap.get i) ∨ old = 0) then
      ({ c with
         virgin := setSlot c.virgin i 0
         newEdges := c.newEdges + 1
         stepEdgeRarity := c.stepEdgeRarity + 1 / (c.edgeHits.get i).toFloat }, true)
    else (c, foundNew)

def update (c : CoverageTracker n) (edges : List UInt8) : CoverageTracker n × Bool :=
  sweep hitEdge 0 edges (c, false)

def markNovel (c : CoverageTracker n) (hash : UInt64) : CoverageTracker n × Bool :=
  let pos := c.slotOf hash
  if c.virgin.get pos = 0xFF then
    ({ c with
       virgin := setSlot c.virgin pos 0
       bitmap := setSlot c.bitmap pos 1
       totalEdges := c.totalEdges + 1
       newEdges := c.newEdges + 1 }, true)
  else (c, false)

def countExplored : CoverageTracker n × Bool → CoverageTracker n × Bool
  | (c, true) => ({ c with stepNewExplore := c.stepNewExplore + 1 }, true)
  | (c, false) => (c, false)

def updateGuidance (c : CoverageTracker n) (guidanceType name : String) (value : Int64) :
    CoverageTracker n × Bool :=
  if guidanceType = "explore" then countExplored (c.markNovel (fnvHash name value))
  else if guidanceType = "maximize" then
    if (c.maxMap[name]?).any fun old => value ≤ old then (c, false)
    else
      let c : CoverageTracker n :=
        { c with maxMap := c.maxMap.insert name value, stepNewMax := c.stepNewMax + 1 }
      ((c.markNovel (fnvHash ("max:" ++ name) (bucketInt64 value))).1, true)
  else (c, false)

def recordRandomBranch (c : CoverageTracker n) (chosenIndex totalChoices : Int64) :
    CoverageTracker n × Bool :=
  countExplored (c.markNovel (chosenIndex.toUInt64 * 2654435761 ^^^ totalChoices.toUInt64))

def recordAssertionNovelty (c : CoverageTracker n) (key : String) : CoverageTracker n × Bool :=
  if key ∈ c.seenAsserts then (c, false)
  else
    let c :=
      { c with
        seenAsserts := c.seenAsserts.insert key
        stepNewAsserts := c.stepNewAsserts + 1
        assertionNoveltyCount := c.assertionNoveltyCount + 1 }
    ((c.markNovel (fnvHashString ("assert:" ++ key))).1, true)

def clearStepAssertionNovelty (c : CoverageTracker n) : CoverageTracker n :=
  { c with stepNewAsserts := 0 }

def resetStepNovelty (c : CoverageTracker n) : CoverageTracker n :=
  { c with stepNewMax := 0, stepNewExplore := 0, stepNewAsserts := 0, stepEdgeRarity := 0 }

def resetBitmap (c : CoverageTracker n) : CoverageTracker n :=
  { c with
    bitmap := Vector.replicate _ 0
    edgeHits := Vector.replicate _ 0
    virgin := Vector.replicate _ 0xFF
    totalEdges := 0
    newEdges := 0
    stepNewMax := 0
    stepNewExplore := 0
    stepNewAsserts := 0
    stepEdgeRarity := 0 }

def importEdge (i : Fin n) (v : UInt8) (c : CoverageTracker n) : CoverageTracker n :=
  { c with
    totalEdges := if c.bitmap.get i = 0 then c.totalEdges + 1 else c.totalEdges
    bitmap := setSlot c.bitmap i (saturatingAdd (c.bitmap.get i) v)
    virgin := setSlot c.virgin i 0 }

def importMax (maxMap : ExtTreeMap String Int64) (entry : String × Int64) :
    ExtTreeMap String Int64 :=
  match maxMap[entry.1]? with
  | some existing => if entry.2 > existing then maxMap.insert entry.1 entry.2 else maxMap
  | none => maxMap.insert entry.1 entry.2

def importCorpus (c : CoverageTracker n) : Option Corpus → CoverageTracker n
  | none => c
  | some corpus =>
    let c := sweep importEdge 0 corpus.bitmap c
    { c with
      maxMap := corpus.maxMap.toList.foldl importMax c.maxMap
      seenAsserts := corpus.seenAsserts.foldl (fun seen key => seen.insert key) c.seenAsserts
      corpusEdges := c.totalEdges }

def exportCorpus (c : CoverageTracker n) : Corpus where
  bitmap := c.bitmap.toList
  totalEdges := c.totalEdges
  corpusEdges := c.corpusEdges
  maxMap := c.maxMap
  seenAsserts := c.seenAsserts.toList

def newEdgesThisRun (corpus : Corpus) : UInt64 :=
  corpus.totalEdges - corpus.corpusEdges

def isNewEdge (c : CoverageTracker n) (i : Fin n) (v : UInt8) : Bool :=
  c.bitmap.get i = 0 || hitBucket (c.bitmap.get i) ≠ hitBucket (saturatingAdd (c.bitmap.get i) v)

def hasNewEdge (c : CoverageTracker n) (edges : List UInt8) : Bool :=
  sweepAny c.isNewEdge 0 edges

def hash (c : CoverageTracker n) : UInt64 :=
  c.bitmap.toList.foldl fnvMix fnvOffset64

end CoverageTracker

inductive CoverageOp where
  | update (edges : List UInt8)
  | updateGuidance (guidanceType name : String) (value : Int64)
  | recordRandomBranch (chosenIndex totalChoices : Int64)
  | recordAssertionNovelty (key : String)
  | importCorpus (corpus : Option Corpus)
  | resetBitmap
  | resetStepNovelty
  | clearStepAssertionNovelty

namespace CoverageTracker

variable {n : Nat}

/-- One call on the tracker, its result dropped. -/
def apply (c : CoverageTracker n) : CoverageOp → CoverageTracker n
  | .update edges => (c.update edges).1
  | .updateGuidance guidanceType name value => (c.updateGuidance guidanceType name value).1
  | .recordRandomBranch chosenIndex totalChoices =>
    (c.recordRandomBranch chosenIndex totalChoices).1
  | .recordAssertionNovelty key => (c.recordAssertionNovelty key).1
  | .importCorpus corpus => c.importCorpus corpus
  | .resetBitmap => c.resetBitmap
  | .resetStepNovelty => c.resetStepNovelty
  | .clearStepAssertionNovelty => c.clearStepAssertionNovelty

def run (c : CoverageTracker n) (ops : List CoverageOp) : CoverageTracker n :=
  ops.foldl apply c

@[simp]
theorem run_nil (c : CoverageTracker n) : c.run [] = c :=
  rfl

@[simp]
theorem run_cons (c : CoverageTracker n) (op : CoverageOp) (ops : List CoverageOp) :
    c.run (op :: ops) = (c.apply op).run ops :=
  rfl

end CoverageTracker

end OpenThesis.Explorer
