import OpenThesis.Report.Triage
import OpenThesis.SnapshotTree.Siblings

/-!
# Branch indices

Positions among siblings (`PopulateBranchIndices` in `internal/report/artifact.go`), looked up in
the tree at the end.
-/

namespace OpenThesis.Report

open Explorer Forest Keyed SnapshotTree List

def branchIndex (tree : SnapshotTree.Tree) (parentID childID : ID) : Int :=
  match tree.children parentID with
  | .error _ => -1
  | .ok siblings =>
    match siblings.idxOf? childID with
    | none => -1
    | some idx => idx

def branchIndices (tree : SnapshotTree.Tree) : List ID → List Int
  | [] => []
  | first :: rest => 0 :: go first rest
where
  go (parentID : ID) : List ID → List Int
    | [] => []
    | childID :: rest => branchIndex tree parentID childID :: go childID rest

def ViolationEntry.populate (tree : SnapshotTree.Tree) (v : ViolationEntry) : ViolationEntry :=
  match v.artifact with
  | none => v
  | some artifact =>
    if v.pathIDs = [] then v
    else
      { v with
        artifact := some
          { artifact with
            pathIDs := v.pathIDs
            pathBranchIndices := branchIndices tree v.pathIDs } }

def populateBranchIndices (tree : Option SnapshotTree.Tree) (violations : List ViolationEntry) :
    List ViolationEntry :=
  match tree with
  | none => violations
  | some tree => violations.map (·.populate tree)

def childAt (history : List NodeInfo) (node : ID) (index : Int) : Option ID :=
  if index < 0 then none else (createdChildren history node)[index.toNat]?

def follow (history : List NodeInfo) : ID → List Int → Option (List ID)
  | _, [] => some []
  | node, index :: rest =>
    (childAt history node index).bind fun child => (follow history child rest).map (child :: ·)

def leadsTo (history : List NodeInfo) : List Int → Option (List ID)
  | [] => none
  | _ :: rest => (follow history rootID rest).map (rootID :: ·)

theorem idxOf?_filter_iff {items : List ID} (ascending : items.Pairwise (· < ·)) {item : ID}
    (mem : item ∈ items) (chosen : ID → Bool) :
    (∃ position, (items.filter chosen).idxOf? item = some position ∧ items[position]? = some item) ↔
      chosen item ∧ ∀ older ∈ items, older < item → chosen older := by
  obtain ⟨smaller, larger, rfl⟩ := append_of_mem mem
  obtain ⟨-, above, below⟩ := pairwise_append.mp ascending
  have less {other : ID} (other_mem : other ∈ smaller) : other < item :=
    below other other_mem item mem_cons_self
  have more {other : ID} (other_mem : other ∈ larger) : item < other :=
    (pairwise_cons.mp above).1 other other_mem
  cases isChosen : chosen item with
  | false =>
    refine iff_of_false ?_ (fun both => Bool.false_ne_true both.1)
    rintro ⟨position, found, -⟩
    have kept : item ∈ List.filter chosen (smaller ++ item :: larger) :=
      isSome_idxOf?.mp (Option.isSome_of_mem found)
    rw [(mem_filter.mp kept).2] at isChosen
    contradiction
  | true =>
    have absent : (smaller.filter chosen).idxOf? item = none := by
      rw [idxOf?_eq_none_iff]
      intro kept
      exact lt_irrefl item (less (mem_of_mem_filter kept))
    have found : (List.filter chosen (smaller ++ item :: larger)).idxOf? item =
        some (smaller.filter chosen).length := by
      rw [filter_append, filter_cons_of_pos isChosen, List.idxOf?, findIdx?_append,
        ← List.idxOf?, absent, idxOf?_cons]
      simp
    simp only [found, Option.some.injEq, exists_eq_left', true_and]
    constructor
    · intro atItem older older_mem before
      -- the items before this one are all there, as it has not moved
      have unmoved : (smaller.filter chosen).length = smaller.length := by
        refine le_antisymm (length_filter_le _ _) (not_lt.mp fun moved => ?_)
        rw [List.getElem?_append_left moved] at atItem
        exact lt_irrefl item (less (mem_of_getElem? atItem))
      rcases mem_append.mp older_mem with inside | outside
      · exact length_filter_eq_length_iff.mp unmoved older inside
      · rcases mem_cons.mp outside with rfl | inside
        · exact absurd before (lt_irrefl _)
        · exact absurd before (lt_asymm (more inside))
    · intro olderChosen
      have unmoved : (smaller.filter chosen).length = smaller.length :=
        length_filter_eq_length_iff.mpr fun older inside =>
          olderChosen older (mem_append_left _ inside) (less inside)
      rw [unmoved, List.getElem?_append_right le_rfl, Nat.sub_self]
      rfl

/-- A live node and all its older siblings are still there. -/
structure Placed (t : SnapshotTree.Tree) (node : ID) : Prop where
  live : node ∈ t.snapshots
  older : ∀ sibling, recordedParent t.history sibling = recordedParent t.history node →
    sibling < node → sibling ∈ t.snapshots

section

variable {t : SnapshotTree.Tree} (sound : Sound t) (ascending : Ascending t) (rooted : Rooted t)

include sound ascending rooted

theorem childAt_iff_placed {parentID childID : ID}
    (under : recordedParent t.history childID = some parentID) :
    childAt t.history parentID (branchIndex t parentID childID) = some childID ↔
      Placed t childID := by
  have log := sound.logged.log
  have created : childID ∈ createdChildren t.history parentID := log.mem_createdChildren.mpr under
  cases parentLive : t.snapshots[parentID]? with
  | none =>
    have gone : branchIndex t parentID childID = -1 := by
      simp only [branchIndex, Tree.children, parentLive]
    rw [gone, childAt, if_pos (by decide)]
    refine iff_of_false (Option.some_ne_none _).symm fun placed => ?_
    -- a live node has a live parent
    obtain ⟨snap, live⟩ := mem_iff_lookup.mp placed.live
    obtain ⟨info, entry, -, parentEq, -⟩ := sound.logged.recorded live
    obtain ⟨notRoot, other, otherEntry, above⟩ := log.recordedParent_eq_some_iff.mp under
    cases entry.symm.trans otherEntry
    have stillLive := rooted live notRoot
    rw [parentEq, above, mem_iff_lookup, parentLive] at stillLive
    obtain ⟨_, impossible⟩ := stillLive
    contradiction
  | some parent =>
    have index : branchIndex t parentID childID =
        match ((createdChildren t.history parentID).filter (· ∈ t.snapshots)).idxOf? childID with
        | none => -1
        | some position => (position : Int) := by
      simp only [branchIndex, Tree.children, parentLive]
      rw [sound.children_eq ascending parentLive]
    have reached : childAt t.history parentID (branchIndex t parentID childID) =
        some childID ↔
        ∃ position, ((createdChildren t.history parentID).filter
            (· ∈ t.snapshots)).idxOf? childID = some position ∧
          (createdChildren t.history parentID)[position]? = some childID := by
      rw [index]
      split
      · rename_i absent
        simp [absent, childAt]
      · rename_i position found
        simp [found, childAt]
    rw [reached, idxOf?_filter_iff log.ascending_createdChildren created]
    simp only [decide_eq_true_eq, log.mem_createdChildren]
    constructor
    · rintro ⟨live, older⟩
      exact ⟨live, fun sibling same => older sibling (same.trans under)⟩
    · intro placed
      exact ⟨placed.live, fun sibling same => placed.older sibling (same.trans under.symm)⟩

theorem follow_iff_placed {node : ID} {rest : List ID}
    (chain : (node :: rest).IsChain fun above child =>
      recordedParent t.history child = some above) :
    follow t.history node (branchIndices.go t node rest) = some rest ↔
      ∀ child ∈ rest, Placed t child := by
  induction rest generalizing node with
  | nil => simp [branchIndices.go, follow]
  | cons child rest ih =>
    obtain ⟨under, below⟩ := isChain_cons_cons.mp chain
    rw [forall_mem_cons, ← childAt_iff_placed sound ascending rooted under, ← ih below,
      branchIndices.go, follow]
    simp only [Option.bind_eq_some_iff, Option.map_eq_some_iff, cons.injEq]
    constructor
    · rintro ⟨_, stepped, _, followed, rfl, rfl⟩
      exact ⟨stepped, followed⟩
    · rintro ⟨stepped, followed⟩
      exact ⟨child, stepped, rest, followed, rfl, rfl⟩

end

theorem ne_rootID_of_chain {history : List NodeInfo} (log : Log history) {node : ID}
    {rest : List ID} (chain : (node :: rest).IsChain fun above child =>
      recordedParent history child = some above) : ∀ child ∈ rest, child ≠ rootID := by
  induction rest generalizing node with
  | nil => simp
  | cons child rest ih =>
    obtain ⟨under, below⟩ := isChain_cons_cons.mp chain
    exact forall_mem_cons.mpr ⟨(log.recordedParent_eq_some_iff.mp under).1, ih below⟩

/-- A violation that is reported for a live snapshot in the course of an exploration without
evictions. -/
structure ReportedPath where
  before : List Op
  later : List Op
  violation : Violation
  noEviction : ∀ op ∈ before ++ later, op.isEviction = false
  live : violation.snapshotID ∈ (newTree.applyAll before).snapshots
  notRoot : violation.snapshotID ≠ 0

namespace ReportedPath

variable (r : ReportedPath)

def reported : Violation :=
  reportViolation (newTree.applyAll r.before) r.violation

def final : SnapshotTree.Tree :=
  newTree.applyAll (r.before ++ r.later)

theorem exists_path :
    ∃ rest, r.reported.path = rootID :: rest ∧ (rootID :: rest).IsChain fun above child =>
        recordedParent r.final.history child = some above := by
  have sound := sound_applyAll r.before
  have rooted : Rooted (newTree.applyAll r.before) :=
    rooted_applyAll fun op mem => r.noEviction op (mem_append_left _ mem)
  obtain ⟨path, ancestry⟩ := sound.logged.exists_ancestry r.violation.snapshotID
  have pathTo := sound.pathTo rooted ancestry r.live
  have lives := rooted.live_of_mem ancestry r.live
  have recorded : Ancestry (recordedParent r.final.history) r.violation.snapshotID path := by
    refine pathTo.recorded.congr fun node mem => ?_
    obtain ⟨snap, found⟩ := mem_iff_lookup.mp (lives node mem)
    obtain ⟨info, entry, -⟩ := sound.logged.recorded found
    have grown : (newTree.applyAll r.before).history <+: r.final.history := by
      rw [final, Tree.applyAll_append]
      exact history_applyAll _ _
    exact sound.logged.log.recordedParent_of_grown
      (sound_applyAll (r.before ++ r.later)).logged.log grown entry
  obtain ⟨rest, rfl⟩ : ∃ rest, path = rootID :: rest := by
    obtain ⟨tail, split⟩ := head?_eq_some_iff.mp pathTo.head
    exact ⟨tail, split⟩
  exact ⟨rest, path_reportViolation sound.logged r.notRoot ancestry, recorded.isChain⟩

end ReportedPath

/-- The indices of a violation lead to its path, in the tree of all nodes ever created, exactly if
all nodes of the path and all their older siblings are still in the tree. -/
theorem branch_indices_lead_iff (r : ReportedPath) (front back : List ViolationEntry) :
    let entries :=
      populateBranchIndices (some r.final) (front ++ violationEntry r.reported :: back)
    (∃ entry artifact, entries[front.length]? = some entry ∧ entry.artifact = some artifact ∧
        leadsTo r.final.history artifact.pathBranchIndices = some r.reported.path) ↔
      ∀ node ∈ r.reported.path, node ≠ rootID → Placed r.final node := by
  intro entries
  obtain ⟨rest, path, chain⟩ := r.exists_path
  have populated :
      entries[front.length]? = some ((violationEntry r.reported).populate r.final) := by
    simp [entries, populateBranchIndices]
  have filled : (((violationEntry r.reported).populate r.final).artifact.map
      (·.pathBranchIndices)) = some (branchIndices r.final (rootID :: rest)) := by
    simp [violationEntry, ViolationEntry.populate, path]
  obtain ⟨artifact, isArtifact, indices⟩ := Option.map_eq_some_iff.mp filled
  have follows : follow r.final.history rootID (branchIndices.go r.final rootID rest) =
      some rest ↔ ∀ child ∈ rest, Placed r.final child :=
    follow_iff_placed (sound_applyAll _) (ascending_applyAll _) (rooted_applyAll r.noEviction)
      chain
  have leads : leadsTo r.final.history artifact.pathBranchIndices = some r.reported.path ↔
      ∀ child ∈ rest, Placed r.final child := by
    rw [indices, path, branchIndices, leadsTo, ← follows]
    simp only [Option.map_eq_some_iff, cons.injEq, true_and, exists_eq_right]
  simp only [populated, Option.some.injEq, exists_and_left, exists_eq_left', isArtifact, leads]
  rw [path, forall_mem_cons, and_iff_right fun notRoot => absurd rfl notRoot]
  exact forall₂_congr fun child mem =>
    (imp_iff_right (ne_rootID_of_chain (sound_applyAll _).logged.log chain child mem)).symm

/-- The older of two children of the root is pruned after a violation in the younger one, to whose
sibling the indices then lead. -/
theorem branch_indices_mislead :
    let r : ReportedPath :=
      { before := [.create 0 0 0 0 0 0 0, .create 0 0 0 0 0 0 0]
        later := [.prune [2]]
        violation := { property := "", message := "", snapshotID := 2 }
        noEviction := by decide
        live := by decide
        notRoot := by decide }
    r.reported.path = [0, 2] ∧ branchIndices r.final r.reported.path = [0, 0] ∧
      leadsTo r.final.history (branchIndices r.final r.reported.path) = some [0, 1] := by
  decide

end OpenThesis.Report
