import OpenThesis.Explorer.Frontier
import OpenThesis.Run.Core
import OpenThesis.SnapshotTree.Prune

/-!
# Garbage collection in the pool

`workerRunGC` of `internal/orchestrator/pool.go` trims a frontier and prunes a tree.
-/

namespace OpenThesis.Orchestrator

open SnapshotTree Explorer Keyed List

universe u

def maxFrontierPerWorker : Nat := 50

structure GCRound (S : Type u) where
  tree : SnapshotTree.Tree
  frontier : Frontier S
  deleted : List ID

section

variable {S : Type u} [BEq S] [LT S] [DecidableLT S] (sorting : Sorting (FrontierEntry S))

def droppedImages (tree : SnapshotTree.Tree) (fe : Option ID) (dropped : List ID) : List ID :=
  dropped.filterMap fun id => if fe = some id then none else (tree.hypervisorID id).toOption

def workerRunGC (tree : SnapshotTree.Tree) (frontier : Frontier S) (fe : Option ID) :
    GCRound S :=
  let (dropped, frontier) := frontier.trim sorting maxFrontierPerWorker
  let images := droppedImages tree fe dropped
  let frontierIDs := frontier.ids ++ fe.toList
  if frontierIDs.isEmpty then { tree, frontier, deleted := images }
  else
    let (deleted, tree) := tree.prune frontierIDs
    { tree, frontier, deleted := images ++ deleted }

end

/-- A tree and the images of its nodes. -/
structure Lifetime where
  tree : SnapshotTree.Tree := newTree
  nextSnap : ID := 0
  deleted : List ID := []

/-- The hypervisor counts snapshots for all workers, so that some identifiers are skipped. A round
may find any frontier. -/
inductive LifetimeAction (S : Type u) where
  | create (parentID : ID) (skipped : Nat) (timeNS coverage rngState : UInt64)
  | runGC (frontier : Frontier S) (fe : Option ID)

namespace Lifetime

variable {S : Type u} [BEq S] [LT S] [DecidableLT S] (sorting : Sorting (FrontierEntry S))

/-- A snapshot is created, or garbage is collected. -/
def act (s : Lifetime) : LifetimeAction S → Lifetime
  | .create parentID skipped timeNS coverage rngState =>
    let hypID := s.nextSnap + skipped + 1
    { s with
      tree := s.tree.apply (.create parentID hypID timeNS coverage rngState 0 0)
      nextSnap := hypID }
  | .runGC frontier fe =>
    let round := workerRunGC sorting s.tree frontier fe
    { s with tree := round.tree, deleted := s.deleted ++ round.deleted }

def run (s : Lifetime) (actions : List (LifetimeAction S)) : Lifetime :=
  actions.foldl (act sorting) s

/-- No hypervisor snapshot was deleted twice, and none of a live node. -/
structure Clean (s : Lifetime) : Prop where
  once : s.deleted.Nodup
  spared : ∀ ⦃id : ID⦄ ⦃snap : Snapshot⦄, s.tree.snapshots[id]? = some snap →
    snap.hypervisorID ∉ s.deleted

end Lifetime

/-- The hypervisor snapshots of live nodes are different ones, and all that occur have been
assigned. -/
structure Numbered (t : SnapshotTree.Tree) (nextSnap : ID) (deleted : List ID) : Prop where
  sound : Sound t
  distinct : ∀ ⦃id other : ID⦄ ⦃snap otherSnap : Snapshot⦄, t.snapshots[id]? = some snap →
    t.snapshots[other]? = some otherSnap → snap.hypervisorID = otherSnap.hypervisorID → id = other
  taken : ∀ ⦃id : ID⦄ ⦃snap : Snapshot⦄, t.snapshots[id]? = some snap →
    snap.hypervisorID ≤ nextSnap
  past : ∀ h ∈ deleted, h ≤ nextSnap

theorem numbered_newTree : Numbered newTree 0 [] where
  sound := sound_newTree
  distinct := by
    intro id other snap otherSnap live otherLive _
    rw [newTree_lookup] at live otherLive
    split at live
    · next isRoot =>
      split at otherLive
      · next otherRoot => exact isRoot.trans otherRoot.symm
      · contradiction
    · contradiction
  taken := by
    intro id snap live
    rw [newTree_lookup] at live
    split at live
    · rw [← Option.some.inj live]
    · contradiction
  past := by simp

section

variable {t next : SnapshotTree.Tree} {nextSnap hypID : ID} {deleted : List ID}

theorem Numbered.skip (numbered : Numbered t nextSnap deleted) (later : nextSnap ≤ hypID) :
    Numbered t hypID deleted where
  sound := numbered.sound
  distinct := numbered.distinct
  taken := fun _ _ live => (numbered.taken live).trans later
  past := fun h member => (numbered.past h member).trans later

theorem Numbered.grow (numbered : Numbered t nextSnap deleted) {parent snap : Snapshot}
    (grows : Grows t next parent snap) (later : nextSnap < snap.hypervisorID) :
    Numbered next snap.hypervisorID deleted where
  sound := grows.sound numbered.sound
  distinct := by
    intro id other found otherFound live otherLive same
    rcases grows.lookup_cases live with ⟨isNew, rfl⟩ | ⟨before, old, -, rfl⟩
    · rcases grows.lookup_cases otherLive with ⟨otherNew, -⟩ | ⟨otherBefore, otherOld, -, rfl⟩
      · exact isNew.trans otherNew.symm
      · have bound := numbered.taken otherOld
        exact absurd (same ▸ later) (Nat.not_lt_of_le bound)
    · rcases grows.lookup_cases otherLive with ⟨-, rfl⟩ | ⟨otherBefore, otherOld, -, rfl⟩
      · have bound := numbered.taken old
        exact absurd (same ▸ later) (Nat.not_lt_of_le bound)
      · exact numbered.distinct old otherOld same
  taken := by
    intro id found live
    rcases grows.lookup_cases live with ⟨-, rfl⟩ | ⟨before, old, -, rfl⟩
    · exact le_rfl
    · exact (numbered.taken old).trans later.le
  past := fun h member => (numbered.past h member).trans later.le

/-- Nodes were deleted from the tree, and their hypervisor snapshots with them. -/
structure Collects (t next : SnapshotTree.Tree) (deleted : List ID) : Prop where
  sound : Sound next
  kept : ∀ ⦃id : ID⦄ ⦃snap : Snapshot⦄, next.snapshots[id]? = some snap →
    ∃ before, t.snapshots[id]? = some before ∧ before.hypervisorID = snap.hypervisorID ∧
      before.parentID = snap.parentID
  gone : ∀ ⦃id : ID⦄ ⦃snap : Snapshot⦄, t.snapshots[id]? = some snap → id ∉ next.snapshots →
    snap.hypervisorID ∈ deleted
  source : ∀ h ∈ deleted, ∃ id snap, t.snapshots[id]? = some snap ∧ id ∉ next.snapshots ∧
    snap.hypervisorID = h
  once : deleted.Nodup

theorem collects_refl (sound : Sound t) : Collects t t [] where
  sound := sound
  kept := fun _ snap live => ⟨snap, live, rfl, rfl⟩
  gone := fun _ _ live missing => absurd (mem_iff_lookup.mpr ⟨_, live⟩) missing
  source := by simp
  once := nodup_nil

theorem Numbered.collects_prune (numbered : Numbered t nextSnap deleted)
    (frontierIDs : List ID) : Collects t (t.prune frontierIDs).2 (t.prune frontierIDs).1 := by
  have sound := numbered.sound
  have exact := pruneExact_of_listed sound.listed sound.currentLive frontierIDs
  have source : ∀ h, h ∈ (t.prune frontierIDs).1 ↔ ∃ id ∈ t.pruned frontierIDs,
      (t.snapshots[id]?).map (·.hypervisorID) = some h := by
    intro h
    simp only [SnapshotTree.Tree.prune, SnapshotTree.Tree.hypervisorIDs, mem_filterMap]
  constructor
  case sound => exact (change_apply t (.prune frontierIDs)).sound sound
  case kept =>
    intro id snap live
    rcases exact.fields live with ⟨before, old, rfl⟩
    exact ⟨before, old, rfl, rfl⟩
  case gone =>
    intro id snap live missing
    have member := mem_iff_lookup.mpr ⟨snap, live⟩
    refine (source _).mpr ⟨id, (exact.mem_removed id).mpr ⟨member, missing⟩, ?_⟩
    rw [live, Option.map_some]
  case source =>
    intro h member
    rcases (source h).mp member with ⟨id, pruned, hyp⟩
    rcases Option.map_eq_some_iff.mp hyp with ⟨snap, live, same⟩
    exact ⟨id, snap, live, ((exact.mem_removed id).mp pruned).2, same⟩
  case once =>
    have ids : (t.pruned frontierIDs).Nodup := exact.ascending.imp Nat.ne_of_lt
    refine ids.filterMap ?_
    intro id other h first second
    rcases Option.map_eq_some_iff.mp first with ⟨snap, live, same⟩
    rcases Option.map_eq_some_iff.mp second with ⟨otherSnap, otherLive, otherSame⟩
    exact numbered.distinct live otherLive (same.trans otherSame.symm)

theorem Numbered.collect (numbered : Numbered t nextSnap deleted) {more : List ID}
    (collects : Collects t next more) {images : List ID} (assigned : ∀ h ∈ images, h ≤ nextSnap) :
    Numbered next nextSnap (deleted ++ (images ++ more)) where
  sound := collects.sound
  distinct := by
    intro id other snap otherSnap live otherLive same
    rcases collects.kept live with ⟨before, old, hyp, -⟩
    rcases collects.kept otherLive with ⟨otherBefore, otherOld, otherHyp, -⟩
    exact numbered.distinct old otherOld (hyp.trans (same.trans otherHyp.symm))
  taken := by
    intro id snap live
    rcases collects.kept live with ⟨before, old, hyp, -⟩
    exact hyp ▸ numbered.taken old
  past := by
    intro h member
    rcases mem_append.mp member with old | new
    · exact numbered.past h old
    · rcases mem_append.mp new with image | pruned
      · exact assigned h image
      · rcases collects.source h pruned with ⟨id, snap, live, -, rfl⟩
        exact numbered.taken live

end

section

variable {S : Type u} [BEq S] [LT S] [DecidableLT S] {sorting : Sorting (FrontierEntry S)}
  {t : SnapshotTree.Tree} {nextSnap : ID} {deleted : List ID}

theorem workerRunGC_cases (t : SnapshotTree.Tree) (frontier : Frontier S) (fe : Option ID) :
    let round := workerRunGC sorting t frontier fe
    let asked := (frontier.trim sorting maxFrontierPerWorker).2.ids ++ fe.toList
    let images := droppedImages t fe (frontier.trim sorting maxFrontierPerWorker).1
    (asked = [] ∧ round.tree = t ∧ round.deleted = images) ∨
      (round.tree = (t.prune asked).2 ∧ round.deleted = images ++ (t.prune asked).1) := by
  intro round asked images
  by_cases none : asked.isEmpty = true
  · left
    have unpruned : round = ⟨t, _, images⟩ := if_pos none
    exact ⟨isEmpty_iff.mp none, congrArg GCRound.tree unpruned, congrArg GCRound.deleted unpruned⟩
  · right
    have pruned : round = ⟨(t.prune asked).2, _, images ++ (t.prune asked).1⟩ := if_neg none
    exact ⟨congrArg GCRound.tree pruned, congrArg GCRound.deleted pruned⟩

theorem Numbered.collects_workerRunGC (numbered : Numbered t nextSnap deleted)
    (frontier : Frontier S) (fe : Option ID) :
    ∃ pruned, Collects t (workerRunGC sorting t frontier fe).tree pruned ∧
      (workerRunGC sorting t frontier fe).deleted =
        droppedImages t fe (frontier.trim sorting maxFrontierPerWorker).1 ++ pruned := by
  rcases @workerRunGC_cases S _ _ _ sorting t frontier fe with ⟨-, tree, deleted⟩ | ⟨tree, deleted⟩
  · rw [tree, deleted]
    exact ⟨[], collects_refl numbered.sound, (append_nil _).symm⟩
  · rw [tree, deleted]
    exact ⟨_, numbered.collects_prune _, rfl⟩

theorem mem_droppedImages {fe : Option ID} {dropped : List ID} {h : ID} :
    h ∈ droppedImages t fe dropped ↔ ∃ id ∈ dropped, fe ≠ some id ∧
      ∃ snap, t.snapshots[id]? = some snap ∧ snap.hypervisorID = h := by
  simp only [droppedImages, mem_filterMap]
  refine exists_congr fun id => and_congr_right fun _ => ?_
  by_cases exploring : fe = some id
  · simp [exploring]
  · rw [if_neg exploring, and_iff_right exploring]
    unfold SnapshotTree.Tree.hypervisorID
    cases t.snapshots[id]? with
    | none | some snap => simp [Except.toOption]

theorem droppedImages_eq_nil_iff {fe : Option ID} {dropped : List ID} :
    droppedImages t fe dropped = [] ↔ ∀ id ∈ dropped, fe = some id ∨ id ∉ t.snapshots := by
  rw [eq_nil_iff_forall_not_mem]
  constructor
  · intro none id member
    by_contra both
    rw [not_or, not_not] at both
    rcases mem_iff_lookup.mp both.2 with ⟨snap, live⟩
    exact none _ (mem_droppedImages.mpr ⟨id, member, both.1, snap, live, rfl⟩)
  · intro excused h image
    rcases mem_droppedImages.mp image with ⟨id, member, notExploring, snap, live, -⟩
    rcases excused id member with exploring | missing
    · exact notExploring exploring
    · exact missing (mem_iff_lookup.mpr ⟨snap, live⟩)

theorem Numbered.assigned_droppedImages (numbered : Numbered t nextSnap deleted)
    (fe : Option ID) (dropped : List ID) : ∀ h ∈ droppedImages t fe dropped, h ≤ nextSnap := by
  intro h image
  rcases mem_droppedImages.mp image with ⟨id, -, -, snap, live, rfl⟩
  exact numbered.taken live

theorem Numbered.runGC (numbered : Numbered t nextSnap deleted) (frontier : Frontier S)
    (fe : Option ID) : Numbered (workerRunGC sorting t frontier fe).tree nextSnap
      (deleted ++ (workerRunGC sorting t frontier fe).deleted) := by
  rcases @Numbered.collects_workerRunGC S _ _ _ sorting _ _ _ numbered frontier fe with
    ⟨pruned, collects, eq⟩
  rw [eq]
  exact numbered.collect collects (numbered.assigned_droppedImages fe _)

end

namespace Lifetime

variable {S : Type u} [BEq S] [LT S] [DecidableLT S] {sorting : Sorting (FrontierEntry S)}

def Ordered (s : Lifetime) : Prop :=
  Numbered s.tree s.nextSnap s.deleted

theorem create_cases (s : Lifetime) (parentID : ID) (skipped : Nat)
    (timeNS coverage rngState : UInt64) :
    (s.act sorting (.create parentID skipped timeNS coverage rngState)).tree = s.tree ∨
      ∃ parent snap, snap.hypervisorID = s.nextSnap + skipped + 1 ∧ Grows s.tree
        (s.act sorting (.create parentID skipped timeNS coverage rngState)).tree parent snap := by
  simp only [act, SnapshotTree.Tree.apply]
  cases live : s.tree.snapshots[parentID]? with
  | none =>
    rw [create_of_missing live]
    exact Or.inl rfl
  | some parent =>
    rcases create_of_live live (s.nextSnap + skipped + 1) timeNS coverage rngState 0 0 with
      ⟨next, snap, created, grows, -, hyp, -⟩
    rw [created]
    exact Or.inr ⟨parent, snap, hyp, grows⟩

variable {s : Lifetime}

theorem ordered_act (ordered : s.Ordered) (action : LifetimeAction S) :
    (s.act sorting action).Ordered := by
  cases action with
  | create parentID skipped timeNS coverage rngState =>
    have later : s.nextSnap < s.nextSnap + skipped + 1 :=
      Nat.lt_succ_of_le (Nat.le_add_right _ _)
    unfold Ordered
    rcases @create_cases S _ _ _ sorting s parentID skipped timeNS coverage rngState with
      same | ⟨parent, snap, hyp, grows⟩
    · rw [same]
      exact ordered.skip later.le
    · have numbered := ordered.grow grows (hyp ▸ later)
      rw [hyp] at numbered
      exact numbered
  | runGC frontier fe => exact Numbered.runGC ordered frontier fe

theorem ordered_run (actions : List (LifetimeAction S)) : (run sorting {} actions).Ordered :=
  foldlRecOn (motive := Ordered) actions (act sorting) numbered_newTree
    fun _ ordered action _ => ordered_act ordered action

section

variable (ordered : s.Ordered) (clean : s.Clean)

include ordered clean

theorem clean_create (parentID : ID) (skipped : Nat) (timeNS coverage rngState : UInt64) :
    (s.act sorting (.create parentID skipped timeNS coverage rngState)).Clean := by
  refine ⟨clean.once, fun id found live => ?_⟩
  rcases @create_cases S _ _ _ sorting s parentID skipped timeNS coverage rngState with
    same | ⟨parent, snap, hyp, grows⟩
  · rw [same] at live
    exact clean.spared live
  · rcases grows.lookup_cases live with ⟨-, rfl⟩ | ⟨before, old, -, rfl⟩
    · intro gone
      have bound := ordered.past _ gone
      rw [hyp] at bound
      exact absurd bound (Nat.not_le_of_lt (Nat.lt_succ_of_le (Nat.le_add_right _ _)))
    · have kept := clean.spared old
      exact kept

theorem clean_of_collects {after : Lifetime}
    {pruned : List ID} (collects : Collects s.tree after.tree pruned)
    (deleted : after.deleted = s.deleted ++ pruned) : after.Clean := by
  constructor
  · rw [deleted, nodup_append']
    refine ⟨clean.once, collects.once, fun h old new => ?_⟩
    rcases collects.source h new with ⟨id, snap, live, -, rfl⟩
    exact clean.spared live old
  · intro id snap live
    rcases collects.kept live with ⟨before, old, hyp, -⟩
    rw [deleted, ← hyp]
    intro member
    rcases mem_append.mp member with past | now
    · exact clean.spared old past
    · rcases collects.source _ now with ⟨other, otherSnap, otherLive, missing, same⟩
      obtain rfl := ordered.distinct otherLive old same
      exact missing (mem_iff_lookup.mpr ⟨snap, live⟩)

theorem clean_runGC_iff (frontier : Frontier S)
    (fe : Option ID) : (s.act sorting (.runGC frontier fe)).Clean ↔
      ∀ id ∈ (frontier.trim sorting maxFrontierPerWorker).1,
        fe = some id ∨ id ∉ s.tree.snapshots := by
  rcases @Numbered.collects_workerRunGC S _ _ _ sorting _ _ _ ordered frontier fe with
    ⟨pruned, collects, deleted⟩
  rw [← droppedImages_eq_nil_iff]
  constructor
  · intro after
    rw [eq_nil_iff_forall_not_mem]
    intro h image
    rcases mem_droppedImages.mp image with ⟨id, -, -, snap, live, rfl⟩
    have once : (s.deleted ++ (workerRunGC sorting s.tree frontier fe).deleted).Nodup := after.once
    rw [deleted] at once
    by_cases stays : id ∈ (workerRunGC sorting s.tree frontier fe).tree.snapshots
    · -- the node is still there, without its image
      rcases mem_iff_lookup.mp stays with ⟨kept, keptLive⟩
      rcases collects.kept keptLive with ⟨before, old, hyp, -⟩
      cases live.symm.trans old
      apply after.spared keptLive
      change kept.hypervisorID ∈ s.deleted ++ (workerRunGC sorting s.tree frontier fe).deleted
      rw [← hyp, deleted]
      exact mem_append_right _ (mem_append_left _ image)
    · -- the node was pruned, and its image deleted again
      have again := collects.gone live stays
      exact (nodup_append'.mp (nodup_append'.mp once).2.1).2.2 image again
  · intro none
    rw [none, nil_append] at deleted
    exact clean_of_collects ordered clean collects (congrArg (s.deleted ++ ·) deleted)

end

/-- The entries that a round drops are being explored or gone. -/
def DropsNoLive (sorting : Sorting (FrontierEntry S)) (s : Lifetime) :
    LifetimeAction S → Prop
  | .create .. => True
  | .runGC frontier fe =>
    ∀ id ∈ (frontier.trim sorting maxFrontierPerWorker).1, fe = some id ∨ id ∉ s.tree.snapshots

/-- No hypervisor snapshot is deleted twice or from under a live node exactly when no round drops a
live entry other than the one being explored. -/
theorem deletions_clean_iff_no_live_dropped (sorting : Sorting (FrontierEntry S))
    (actions : List (LifetimeAction S)) :
    (∀ before, before <+: actions → (run sorting {} before).Clean) ↔
      ∀ before action, before ++ [action] <+: actions →
        DropsNoLive sorting (run sorting {} before) action := by
  refine Run.forall_states_iff ordered_run ⟨nodup_nil, by simp⟩ ?_ actions
  intro s action ordered clean
  cases action with
  | create parentID skipped timeNS coverage rngState =>
    exact iff_of_true (clean_create ordered clean parentID skipped timeNS coverage rngState) trivial
  | runGC frontier fe => exact clean_runGC_iff ordered clean frontier fe

def crowded : List (LifetimeAction Nat) :=
  .create 0 0 0 0 0 :: replicate 51 (.create 1 0 0 0 0) ++
    [.runGC ((range 51).map fun n => ⟨n + 2, 0⟩).toArray (some 1)]

/-- The image of the entry that does not fit is deleted twice. -/
theorem crowded_frontier_deletes_twice :
    (run FrontierEntry.byScore {} crowded).deleted = [52, 52] ∧
      ¬ (run FrontierEntry.byScore {} crowded).Clean := by
  have deleted : (run FrontierEntry.byScore {} crowded).deleted = [52, 52] := by
    decide +kernel
  refine ⟨deleted, fun clean => ?_⟩
  have once := clean.once
  rw [deleted] at once
  exact absurd once (by decide)

end Lifetime

end OpenThesis.Orchestrator
