import OpenThesis.SnapshotTree.Run

/-!
# Paths to the root

On a tree without orphans the upward walks meet the ancestry that the history recorded.
-/

namespace OpenThesis.SnapshotTree

open Loop Forest Keyed List

def recordedParent (history : List NodeInfo) (id : ID) : Option ID :=
  match history.find? fun info => info.id = id with
  | none => none
  | some info => if id = rootID then none else some info.parentID

def ParentOf (t : Tree) (above child : ID) : Prop :=
  ∃ parent snap, t.snapshots[above]? = some parent ∧ t.snapshots[child]? = some snap ∧
    snap.parentID = above ∧ child ∈ parent.children

variable {history : List NodeInfo} {info : NodeInfo}

section

variable (log : Log history)

include log

theorem Log.find?_eq_getElem? (id : ID) :
    (history.find? fun info => info.id = id) = history[id]? := by
  cases found : history.find? fun info => info.id = id with
  | none =>
    cases entry : history[id]? with
    | none => rfl
    | some info =>
      have absent := find?_eq_none.mp found info (mem_of_getElem? entry)
      simp only [decide_eq_true_eq] at absent
      exact absurd (log.ids entry) absent
  | some info =>
    have idEq : info.id = id := by simpa using find?_some found
    rcases List.getElem?_of_mem (mem_of_find?_eq_some found) with ⟨i, entry⟩
    have index := log.ids entry
    rw [idEq] at index
    rw [index]
    exact entry.symm

theorem Log.recordedParent_eq {id : ID} (entry : history[id]? = some info) :
    recordedParent history id = if id = rootID then none else some info.parentID := by
  unfold recordedParent
  rw [log.find?_eq_getElem?, entry]

theorem Log.recordedParent_of_grown {longer : List NodeInfo}
    (longerLog : Log longer) (grown : history <+: longer) {id : ID}
    (entry : history[id]? = some info) : recordedParent longer id = recordedParent history id := by
  have later : longer[id]? = some info := by
    rcases grown with ⟨rest, rfl⟩
    rw [List.getElem?_append_left (List.getElem?_eq_some_iff.mp entry).1]
    exact entry
  rw [log.recordedParent_eq entry, longerLog.recordedParent_eq later]

theorem Log.recordedParent_eq_some_iff {id above : ID} :
    recordedParent history id = some above ↔
      id ≠ rootID ∧ ∃ info, history[id]? = some info ∧ info.parentID = above := by
  unfold recordedParent
  rw [log.find?_eq_getElem?]
  cases entry : history[id]? with
  | none => simp
  | some info =>
    by_cases isRoot : id = rootID
    · simp [isRoot]
    · simp [isRoot]

theorem Log.exists_ancestry (id : ID) : ∃ path, Ancestry (recordedParent history) id path := by
  apply Forest.exists_ancestry (fun id => id)
  intro node above up
  rcases log.recordedParent_eq_some_iff.mp up with ⟨notRoot, info, entry, rfl⟩
  exact log.parents entry notRoot

theorem Log.depth_eq {id : ID} {path : List ID}
    (ancestry : Ancestry (recordedParent history) id path) (entry : history[id]? = some info) :
    info.depth.toNat = (path.length - 1) % 2 ^ 32 := by
  induction ancestry generalizing info with
  | @root id top =>
    have isRoot : id = rootID := by
      by_contra notRoot
      rw [log.recordedParent_eq entry, if_neg notRoot] at top
      contradiction
    rw [isRoot, log.root] at entry
    rw [← Option.some.inj entry]
    rfl
  | @child id above path up rest ih =>
    rcases log.recordedParent_eq_some_iff.mp up with ⟨notRoot, found, foundEntry, rfl⟩
    cases entry.symm.trans foundEntry
    rcases log.exists_parent entry notRoot with ⟨parent, parentEntry⟩
    have above := ih parentEntry
    have nonempty := length_pos_of_ne_nil rest.ne_nil
    rw [log.depths entry notRoot parentEntry, UInt32.toNat_add, above, length_append]
    have one : (1 : UInt32).toNat = 1 := rfl
    rw [one, length_singleton]
    omega

end

section

variable {t : Tree} {id : ID} {path : List ID}

theorem Logged.parent?_lt (logged : Logged t) ⦃id above : ID⦄ (up : t.parent? id = some above) :
    above < id := by
  rcases parent?_eq_some_iff.mp up with ⟨notRoot, snap, live, rfl⟩
  exact logged.parentID_lt live notRoot

theorem Logged.exists_ancestry (logged : Logged t) (id : ID) : ∃ path, Ancestry t.parent? id path :=
  Forest.exists_ancestry (fun id => id) logged.parent?_lt id

theorem Rooted.exists_top (rooted : Rooted t) (logged : Logged t) (live : id ∈ t.snapshots)
    (notRoot : id ≠ rootID) :
    ∃ top snap, t.snapshots[top]? = some snap ∧ top ≠ rootID ∧ snap.parentID = rootID := by
  induction id using Nat.strong_induction_on with
  | _ id ih =>
    rcases mem_iff_lookup.mp live with ⟨snap, found⟩
    by_cases atTop : snap.parentID = rootID
    · exact ⟨id, snap, found, notRoot, atTop⟩
    · exact ih snap.parentID (logged.parentID_lt found notRoot) (rooted found notRoot) atTop

theorem Rooted.live_of_mem (rooted : Rooted t) (ancestry : Ancestry t.parent? id path)
    (live : id ∈ t.snapshots) : ∀ node ∈ path, node ∈ t.snapshots := by
  induction ancestry with
  | root =>
    intro node member
    rw [mem_singleton.mp member]
    exact live
  | child up _ ih =>
    rcases parent?_eq_some_iff.mp up with ⟨notRoot, snap, found, rfl⟩
    intro node member
    rcases mem_append.mp member with above | here
    · exact ih (rooted found notRoot) node above
    · rw [mem_singleton.mp here]
      exact live

theorem Logged.live_of_head (logged : Logged t) (ancestry : Ancestry t.parent? id path)
    (head : path.head? = some rootID) : ∀ node ∈ path, node ∈ t.snapshots := by
  induction ancestry with
  | root =>
    intro node member
    rw [mem_singleton.mp member, Option.some.inj head]
    exact logged.rootLive
  | child up rest ih =>
    rw [head?_append_of_ne_nil _ rest.ne_nil] at head
    rcases parent?_eq_some_iff.mp up with ⟨-, snap, live, -⟩
    intro node member
    rcases mem_append.mp member with above | here
    · exact ih head node above
    · rw [mem_singleton.mp here]
      exact mem_iff_lookup.mpr ⟨snap, live⟩

theorem Rooted.head?_eq_rootID (rooted : Rooted t) (ancestry : Ancestry t.parent? id path)
    (live : id ∈ t.snapshots) : path.head? = some rootID := by
  rcases ancestry.exists_head with ⟨top, headEq, topless⟩
  have topLive := rooted.live_of_mem ancestry live top (mem_of_mem_head? headEq)
  rcases mem_iff_lookup.mp topLive with ⟨snap, found⟩
  by_cases isRoot : top = rootID
  · rw [headEq, isRoot]
  · rw [parent?_of_live found isRoot] at topless
    contradiction

theorem Logged.length_ancestry (logged : Logged t) (short : t.history.length ≤ 2 ^ 32)
    (rooted : Rooted t) (ancestry : Ancestry t.parent? id path) {snap : Snapshot}
    (live : t.snapshots[id]? = some snap) : path.length = snap.depth.toNat + 1 := by
  induction ancestry generalizing snap with
  | @root id top =>
    have isRoot : id = rootID := by
      by_contra notRoot
      rw [parent?_of_live live notRoot] at top
      contradiction
    subst isRoot
    rcases logged.recorded live with ⟨info, entry, -, -, depthEq⟩
    rw [logged.log.root] at entry
    rw [depthEq, ← Option.some.inj entry]
    rfl
  | @child id above path up _ ih =>
    rcases parent?_eq_some_iff.mp up with ⟨notRoot, found, foundLive, rfl⟩
    cases live.symm.trans foundLive
    rcases mem_iff_lookup.mp (rooted live notRoot) with ⟨parent, parentLive⟩
    rcases logged.recorded live with ⟨info, entry, -, parentEq, depthEq⟩
    rcases logged.recorded parentLive with ⟨aboveInfo, aboveEntry, -, -, aboveDepthEq⟩
    rw [parentEq] at aboveEntry
    have below := logged.log.depth_succ short entry notRoot aboveEntry
    rw [length_append, ih parentLive, depthEq, below, aboveDepthEq]
    rfl

theorem Logged.recorded_ancestry (logged : Logged t) (ancestry : Ancestry t.parent? id path)
    (live : ∀ node ∈ path, node ∈ t.snapshots) : Ancestry (recordedParent t.history) id path := by
  apply ancestry.congr
  intro node member
  rcases mem_iff_lookup.mp (live node member) with ⟨snap, found⟩
  rcases logged.recorded found with ⟨info, entry, -, parentEq, -⟩
  rw [logged.log.recordedParent_eq entry]
  by_cases isRoot : node = rootID
  · rw [if_pos isRoot, isRoot, parent?_rootID]
  · rw [if_neg isRoot, parent?_of_live found isRoot, parentEq]

theorem Listed.isChain_parentOf (listed : Listed t) (rooted : Rooted t)
    (ancestry : Ancestry t.parent? id path) : path.IsChain (ParentOf t) := by
  apply ancestry.isChain.imp
  intro above child up
  rcases parent?_eq_some_iff.mp up with ⟨notRoot, snap, live, rfl⟩
  rcases mem_iff_lookup.mp (rooted live notRoot) with ⟨parent, parentLive⟩
  exact ⟨parent, snap, parentLive, live, rfl, listed.listed live notRoot parentLive⟩

end

section

variable {t : Tree} {id : ID} {path : List ID}

theorem ancestorVisit_of_live (live : id ∈ t.snapshots) :
    t.ancestorVisit id = some (id, t.parent? id) := by
  rcases mem_iff_lookup.mp live with ⟨snap, found⟩
  simp only [Tree.ancestorVisit, Tree.parent?, found, Option.map_some]

theorem pathVisit_eq (logged : Logged t) (id : ID) : t.pathVisit id = some (id, t.parent? id) := by
  cases found : t.snapshots[id]? with
  | none => simp only [Tree.pathVisit, Tree.parent?, found]
  | some snap =>
    by_cases isRoot : id = rootID
    · simp only [Tree.pathVisit, Tree.parent?, found, if_pos isRoot]
    · have differs : snap.parentID ≠ id := Nat.ne_of_lt (logged.parentID_lt found isRoot)
      simp only [Tree.pathVisit, Tree.parent?, found, if_neg isRoot, if_neg differs]

theorem pathToRoot_nextID (logged : Logged t) (ancestry : Ancestry t.parent? id path) :
    t.pathToRoot id (t.nextID + 1) = some path := by
  have bound : path.length ≤ t.nextID + 1 := by
    cases ancestry with
    | root => exact Nat.le_add_left _ _
    | child up rest =>
      rcases parent?_eq_some_iff.mp up with ⟨notRoot, snap, live, rfl⟩
      have length := (Ancestry.child up rest).length_le (fun id => id) logged.parent?_lt
      exact length.trans (Nat.succ_le_succ (logged.lt_nextID live).le)
  have walked := run_walk ancestry (fun node _ => pathVisit_eq logged node) []
  rw [Tree.pathToRoot, run_mono walked bound, Option.map_some, nil_append, map_id', reverse_reverse]

theorem yields_pathToRoot (logged : Logged t) (ancestry : Ancestry t.parent? id path) :
    Yields (t.pathToRoot id) path := by
  have walked := (yields_walk ancestry (fun node _ => pathVisit_eq logged node) []).map
    List.reverse
  rw [nil_append, map_id', reverse_reverse] at walked
  exact walked

def Tree.reading (t : Tree) (id : ID) : Snapshot :=
  (t.snapshots[id]?).getD { id := rootID, parentID := rootID, depth := 0 }

theorem hashVisit_of_live (live : id ∈ t.snapshots) :
    t.hashVisit id = some (t.reading id, t.parent? id) := by
  rcases mem_iff_lookup.mp live with ⟨snap, found⟩
  simp only [Tree.hashVisit, Tree.parent?, Tree.reading, found, Option.map_some, Option.getD_some]

variable (rooted : Rooted t) (ancestry : Ancestry t.parent? id path)
  (live : id ∈ t.snapshots)

include rooted ancestry live

theorem yields_ancestors : Yields (t.ancestors id) path := by
  have visits : ∀ node ∈ path, t.ancestorVisit node = some (node, t.parent? node) := by
    intro node member
    exact ancestorVisit_of_live (rooted.live_of_mem ancestry live node member)
  have walked := (yields_walk ancestry visits []).map List.reverse
  rw [nil_append, map_id', reverse_reverse] at walked
  exact walked

theorem yields_pathHash (seed : UInt64) :
    Yields (t.pathHash id seed) ((path.map t.reading).foldl Tree.mixHash seed) := by
  have visits : ∀ node ∈ path, t.hashVisit node = some (t.reading node, t.parent? node) := by
    intro node member
    exact hashVisit_of_live (rooted.live_of_mem ancestry live node member)
  have walked := (yields_walk ancestry visits []).map
    fun chain => chain.reverse.foldl Tree.mixHash seed
  rw [nil_append, ← map_reverse, reverse_reverse] at walked
  exact walked

end

section

variable {t : Tree} {id : ID} {path : List ID} {later : List Op} (sound : Sound t)
  (rooted : Rooted t) (ancestry : Ancestry t.parent? id path) (live : id ∈ t.snapshots)
  (laterSound : Sound (t.applyAll later)) (laterRooted : Rooted (t.applyAll later))
  (stillLive : id ∈ (t.applyAll later).snapshots)

include sound rooted ancestry live laterSound laterRooted stillLive

theorem ancestry_stable : Ancestry (t.applyAll later).parent? id path := by
  rcases laterSound.logged.exists_ancestry id with ⟨laterPath, laterAncestry⟩
  have laterRecorded := laterSound.logged.recorded_ancestry laterAncestry
    (laterRooted.live_of_mem laterAncestry stillLive)
  have recorded := sound.logged.recorded_ancestry ancestry (rooted.live_of_mem ancestry live)
  have grown : Ancestry (recordedParent (t.applyAll later).history) id path := by
    apply recorded.congr
    intro node member
    have nodeLive := rooted.live_of_mem ancestry live node member
    rcases mem_iff_lookup.mp nodeLive with ⟨snap, found⟩
    rcases sound.logged.recorded found with ⟨info, entry, -⟩
    exact sound.logged.log.recordedParent_of_grown laterSound.logged.log
      (history_applyAll t later) entry
  rw [grown.unique laterRecorded]
  exact laterAncestry

theorem pathHash_stable (seed : UInt64) :
    ∃ hash, Yields (t.pathHash id seed) hash ∧
      Yields ((t.applyAll later).pathHash id seed) hash := by
  have laterAncestry :=
    ancestry_stable sound rooted ancestry live laterSound laterRooted stillLive
  have hashed := yields_pathHash rooted ancestry live seed
  have laterHashed := yields_pathHash laterRooted laterAncestry stillLive seed
  have mixed : ∀ node ∈ path, ∀ hash,
      Tree.mixHash hash ((t.applyAll later).reading node) =
        Tree.mixHash hash (t.reading node) := by
    intro node member hash
    rcases mem_iff_lookup.mp (rooted.live_of_mem ancestry live node member) with
      ⟨before, beforeLive⟩
    rcases mem_iff_lookup.mp
      (laterRooted.live_of_mem laterAncestry stillLive node member) with ⟨after, afterLive⟩
    rcases lookup_older_applyAll sound later (sound.logged.lt_nextID beforeLive) afterLive with
      ⟨same, sameLive, afterEq⟩
    cases beforeLive.symm.trans sameLive
    simp only [Tree.reading, beforeLive, afterLive, Option.getD_some]
    rw [afterEq]
    rfl
  have equal : ((path.map (t.applyAll later).reading).foldl Tree.mixHash seed) =
      ((path.map t.reading).foldl Tree.mixHash seed) := by
    rw [foldl_map, foldl_map]
    apply foldl_ext
    intro hash node member
    exact mixed node member hash
  rw [equal] at laterHashed
  exact ⟨_, hashed, laterHashed⟩

end

/-- What the two path queries return: the nodes from the root to `id`, linked
both ways, as the history recorded them. -/
structure PathTo (t : Tree) (id : ID) (path : List ID) : Prop where
  pathToRoot : Yields (t.pathToRoot id) path
  ancestors : Yields (t.ancestors id) path
  head : path.head? = some rootID
  last : path.getLast? = some id
  linked : path.IsChain (ParentOf t)
  recorded : Ancestry (recordedParent t.history) id path

theorem Sound.pathTo {t : Tree} {id : ID} {path : List ID} (sound : Sound t)
    (rooted : Rooted t) (ancestry : Ancestry t.parent? id path) (live : id ∈ t.snapshots) :
    PathTo t id path where
  pathToRoot := yields_pathToRoot sound.logged ancestry
  ancestors := yields_ancestors rooted ancestry live
  head := rooted.head?_eq_rootID ancestry live
  last := ancestry.getLast?
  linked := sound.listed.isChain_parentOf rooted ancestry
  recorded := sound.logged.recorded_ancestry ancestry (rooted.live_of_mem ancestry live)

/-- In every tree reached without evictions the path queries agree on the recorded ancestry, its
length is the depth plus one, and the path hash is stable while the node is live. -/
theorem path_of_live {ops : List Op} (noEviction : ∀ op ∈ ops, op.isEviction = false) {id : ID}
    (live : id ∈ (newTree.applyAll ops).snapshots) :
    (∃ path, PathTo (newTree.applyAll ops) id path ∧
      (creates ops < 2 ^ 32 →
        path.length = ((newTree.applyAll ops).depth id).toNat + 1)) ∧
    ∀ (seed : UInt64) (later : List Op), (∀ op ∈ later, op.isEviction = false) →
      id ∈ ((newTree.applyAll ops).applyAll later).snapshots →
      ∃ hash, Yields ((newTree.applyAll ops).pathHash id seed) hash ∧
        Yields (((newTree.applyAll ops).applyAll later).pathHash id seed) hash := by
  have sound := sound_applyAll ops
  have rooted := rooted_applyAll noEviction
  rcases sound.logged.exists_ancestry id with ⟨path, ancestry⟩
  constructor
  · refine ⟨path, sound.pathTo rooted ancestry live, ?_⟩
    intro few
    rcases mem_iff_lookup.mp live with ⟨snap, found⟩
    simp only [Tree.depth, found]
    exact sound.logged.length_ancestry (length_history_le few) rooted ancestry found
  · intro seed later laterNoEviction stillLive
    have laterSound := sound_applyAll (ops ++ later)
    have laterRooted : Rooted (newTree.applyAll (ops ++ later)) := by
      apply rooted_applyAll
      intro op member
      rcases mem_append.mp member with first | second
      · exact noEviction op first
      · exact laterNoEviction op second
    rw [Tree.applyAll_append] at laterSound laterRooted
    exact pathHash_stable sound rooted ancestry live laterSound laterRooted stillLive seed

theorem path_of_live_grandchild :
    ∃ path, PathTo (newTree.applyAll
      [.create 0 0 0 0 7 0 0, .create 1 0 0 0 8 0 0, .create 1 0 0 0 9 0 0, .prune [3]])
      3 path ∧ path.length = 3 := by
  rcases @path_of_live [.create 0 0 0 0 7 0 0, .create 1 0 0 0 8 0 0, .create 1 0 0 0 9 0 0,
    .prune [3]] (by decide) 3 (by decide) with ⟨⟨path, pathTo, lengthEq⟩, -⟩
  refine ⟨path, pathTo, ?_⟩
  rw [lengthEq (by decide)]
  decide

end OpenThesis.SnapshotTree
