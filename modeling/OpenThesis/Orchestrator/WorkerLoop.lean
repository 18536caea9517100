import OpenThesis.Orchestrator.Collect
import OpenThesis.Orchestrator.Trail

/-!
# The loop of a worker

The parts of `workerLoop` (`internal/orchestrator/pool.go`) in any order: what the worker may
restore next is live and still has its image.
-/

namespace OpenThesis.Orchestrator

open Fault SnapshotTree Explorer Keyed FrontierEntry List Option

universe u

/-- A worker with its frontier and images. -/
structure LoopWorker (S : Type u) where
  worker : PoolWorker := {}
  frontier : Frontier S := newFrontier
  nextSnap : ID := 0
  deleted : List ID := []

/-- The parts of an iteration. Scores are arbitrary, and so is what other workers use up in between.
-/
inductive LoopAction (S : Type u) where
  | setupRootSnapshot (skipped : Nat) (coverage rngState : UInt64) (score : S)
  | pop (score : S)
  | restoreVM (restored : Bool)
  | takeStep (step : Nat)
  | hit (kind : Kind) (target targetB : String) (params : Params)
  | runForInstructions (virtualNS : UInt64)
  | childSnapshot (skipped : Nat) (coverage rngState : UInt64) (score : S)
  | runGC

namespace LoopWorker

def nextHypID {S : Type u} (w : LoopWorker S) (skipped : Nat) : ID :=
  w.nextSnap + skipped + 1

section

variable {S : Type u} [BEq S] [LT S] [DecidableLT S]

def pushNew (w : LoopWorker S) (hypID : ID) (score : S) (worker : PoolWorker) : LoopWorker S :=
  { w with
    worker
    nextSnap := hypID
    frontier := (worker.frontier.drop w.worker.frontier.length).foldl
      (fun frontier snapshotID => frontier.push { snapshotID, score }) w.frontier }

def pop (w : LoopWorker S) (score : S) : LoopWorker S :=
  match w.worker.rootID with
  | none => w
  | some snapshotID =>
    let frontier :=
      if w.frontier.isEmpty then w.frontier.push { snapshotID, score } else w.frontier
    match frontier.pop with
    | none => w
    | some (e, frontier) =>
      { w with
        worker := { w.worker with fe := some e.snapshotID, bursting := false }
        frontier }

/-- One action of a worker on its own tree and frontier. -/
def act (maxDepth : UInt32) (sorting : Sorting (FrontierEntry S)) (w : LoopWorker S) :
    LoopAction S → LoopWorker S
  | .setupRootSnapshot skipped coverage rngState score =>
    let hypID := w.nextHypID skipped
    w.pushNew hypID score (w.worker.setupRootSnapshot hypID coverage rngState)
  | .pop score => w.pop score
  | .restoreVM restored =>
    match w.worker.fe with
    | none => w
    | some snapshotID => { w with worker := w.worker.restoreVM snapshotID restored }
  | .takeStep step => { w with worker := { w.worker with stepHint := step } }
  | .hit kind target targetB params =>
    if w.worker.bursting then
      { w with worker := w.worker.hit kind (w.worker.entry kind target targetB params) }
    else w
  | .runForInstructions virtualNS =>
    { w with worker := { w.worker with currentTimeNS := w.worker.currentTimeNS + virtualNS } }
  | .childSnapshot skipped coverage rngState score =>
    if w.worker.bursting then
      let hypID := w.nextHypID skipped
      w.pushNew hypID score (w.worker.maybeChildSnapshot maxDepth hypID coverage rngState)
    else w
  | .runGC =>
    let round := workerRunGC sorting w.worker.tree w.frontier w.worker.fe
    { w with
      worker := { w.worker with tree := round.tree }
      frontier := round.frontier
      deleted := w.deleted ++ round.deleted }

def run (maxDepth : UInt32) (sorting : Sorting (FrontierEntry S)) (w : LoopWorker S)
    (actions : List (LoopAction S)) : LoopWorker S :=
  actions.foldl (act maxDepth sorting) w

end

def restorable {S : Type u} (w : LoopWorker S) : List ID :=
  w.frontier.ids ++ (w.worker.fe.toList ++ w.worker.rootID.toList)

end LoopWorker

def Intact (t : SnapshotTree.Tree) (deleted : List ID) (id : ID) : Prop :=
  ∃ snap, t.snapshots[id]? = some snap ∧ snap.hypervisorID ∉ deleted

/-- The entries of the frontier, the entry being explored, and the root snapshot, which is on the
frontier only at first. -/
structure Held (t : SnapshotTree.Tree) (nextSnap : ID) (deleted ids : List ID)
    (fe root : Option ID) : Prop where
  numbered : Numbered t nextSnap deleted
  rooted : Rooted t
  top : ∀ ⦃id : ID⦄ ⦃snap : Snapshot⦄, t.snapshots[id]? = some snap →
    id ≠ SnapshotTree.rootID → snap.parentID = SnapshotTree.rootID → root = some id
  once : ids.Nodup
  proper : ∀ id ∈ ids ++ (fe.toList ++ root.toList), id ≠ SnapshotTree.rootID
  intact : ∀ id ∈ ids ++ (fe.toList ++ root.toList), Intact t deleted id
  popped : ∀ id ∈ fe, id ∉ ids
  apart : ∀ id ∈ root, fe ≠ none → id ∉ ids
  started : root = none → fe = none
  waiting : fe = none → ids.Perm root.toList

theorem held_initial : Held newTree 0 [] [] none none where
  numbered := numbered_newTree
  rooted := rooted_newTree
  top := by
    intro id snap live notRoot _
    rw [newTree_lookup, if_neg notRoot] at live
    contradiction
  once := nodup_nil
  proper := by simp
  intact := by simp
  popped := by simp
  apart := by simp
  started := fun _ => rfl
  waiting := fun _ => .rfl

section

variable {t next : SnapshotTree.Tree} {nextSnap : ID} {deleted ids more : List ID}
  {fe root : Option ID} {parent snap : Snapshot}

theorem Held.perm (held : Held t nextSnap deleted ids fe root) (perm : more.Perm ids) :
    Held t nextSnap deleted more fe root where
  numbered := held.numbered
  rooted := held.rooted
  top := held.top
  once := perm.nodup_iff.mpr held.once
  proper := fun id member => held.proper id ((perm.append_right _).mem_iff.mp member)
  intact := fun id member => held.intact id ((perm.append_right _).mem_iff.mp member)
  popped := fun id exploring member => held.popped id exploring (perm.mem_iff.mp member)
  apart := fun id isRoot exploring member => held.apart id isRoot exploring (perm.mem_iff.mp member)
  started := held.started
  waiting := fun idle => perm.trans (held.waiting idle)

theorem Held.skip {hypID : ID} (held : Held t nextSnap deleted ids fe root)
    (later : nextSnap ≤ hypID) : Held t hypID deleted ids fe root :=
  { held with numbered := held.numbered.skip later }

theorem Held.pop {id : ID} (held : Held t nextSnap deleted (id :: ids) fe root)
    (entered : root ≠ none) : Held t nextSnap deleted ids (some id) root := by
  have back : ∀ other ∈ ids ++ ((some id).toList ++ root.toList),
      other ∈ (id :: ids) ++ (fe.toList ++ root.toList) := by
    intro other member
    simp only [toList_some, mem_append, mem_cons, not_mem_nil, or_false] at member ⊢
    tauto
  refine ⟨held.numbered, held.rooted, held.top, (nodup_cons.mp held.once).2,
    fun other member => held.proper other (back other member),
    fun other member => held.intact other (back other member), ?_, ?_,
    fun none => absurd none entered, by simp⟩
  · intro other exploring
    rw [← Option.some.inj exploring]
    exact (nodup_cons.mp held.once).1
  · intro top isRoot _ member
    cases exploring : fe with
    | some _ =>
      exact held.apart top isRoot (by simp [exploring]) (mem_cons_of_mem _ member)
    | none =>
      have length := (held.waiting exploring).length_eq
      rw [mem_def.mp isRoot, toList_some, length_cons, length_cons,
        Nat.succ_inj, length_nil, length_eq_zero_iff] at length
      rw [length] at member
      exact absurd member not_mem_nil

theorem Held.restart {id : ID} (held : Held t nextSnap deleted [] fe (some id)) :
    Held t nextSnap deleted [] (some id) (some id) := by
  have back : ∀ other ∈ [] ++ ((some id).toList ++ (some id).toList),
      other ∈ [] ++ (fe.toList ++ (some id).toList) := by
    simp
  exact ⟨held.numbered, held.rooted, held.top, held.once,
    fun other member => held.proper other (back other member),
    fun other member => held.intact other (back other member), by simp, by simp, by simp, by simp⟩

theorem Intact.grow {id : ID} (intact : Intact t deleted id) (logged : Logged t)
    (grows : Grows t next parent snap) : Intact next deleted id := by
  rcases intact with ⟨before, live, kept⟩
  exact ⟨_, grows.lookup_of_live logged live, kept⟩

theorem Numbered.intact_new (numbered : Numbered t nextSnap deleted)
    (grows : Grows t next parent snap) (later : nextSnap < snap.hypervisorID) :
    Intact next deleted snap.id :=
  ⟨snap, grows.lookup_id, fun gone => absurd (numbered.past _ gone) (Nat.not_le_of_lt later)⟩

theorem Held.fresh (held : Held t nextSnap deleted ids fe root) (grows : Grows t next parent snap) :
    snap.id ∉ ids ++ (fe.toList ++ root.toList) := by
  intro member
  rcases held.intact _ member with ⟨before, live, -⟩
  rw [grows.id, held.numbered.sound.logged.lookup_nextID] at live
  contradiction

theorem Held.setup (held : Held t nextSnap deleted ids fe none)
    (grows : Grows t next parent snap) (later : nextSnap < snap.hypervisorID) :
    Held next snap.hypervisorID deleted [snap.id] fe (some snap.id) := by
  have logged := held.numbered.sound.logged
  have idle := held.started rfl
  have new : ∀ id ∈ [snap.id] ++ (fe.toList ++ (some snap.id).toList), id = snap.id := by
    simp [idle]
  constructor
  case numbered => exact held.numbered.grow grows later
  case rooted => exact grows.rooted logged held.rooted
  case top =>
    intro id found live notRoot atTop
    rcases grows.lookup_cases live with ⟨rfl, rfl⟩ | ⟨before, old, -, rfl⟩
    · rfl
    · have earlier := held.top old notRoot atTop
      contradiction
  case once => exact nodup_singleton _
  case proper =>
    intro id member
    rw [new id member]
    exact grows.id_ne_rootID logged
  case intact =>
    intro id member
    rw [new id member]
    exact held.numbered.intact_new grows later
  case popped => simp [idle]
  case apart => exact fun _ _ exploring => absurd idle exploring
  case started => simp
  case waiting => exact fun _ => .rfl

theorem Held.child (held : Held t nextSnap deleted ids fe root)
    (grows : Grows t next parent snap) (later : nextSnap < snap.hypervisorID)
    (exploring : fe = some snap.parentID) :
    Held next snap.hypervisorID deleted (snap.id :: ids) fe root := by
  have logged := held.numbered.sound.logged
  have fresh := held.fresh grows
  rw [mem_append, not_or, mem_append, not_or] at fresh
  constructor
  case numbered => exact held.numbered.grow grows later
  case rooted => exact grows.rooted logged held.rooted
  case top =>
    intro id found live notRoot atTop
    rcases grows.lookup_cases live with ⟨rfl, rfl⟩ | ⟨before, old, -, rfl⟩
    · have member : found.parentID ∈ ids ++ (fe.toList ++ root.toList) := by simp [exploring]
      exact absurd atTop (held.proper _ member)
    · exact held.top old notRoot atTop
  case once => exact nodup_cons.mpr ⟨fresh.1, held.once⟩
  case proper =>
    intro id member
    rcases mem_cons.mp member with rfl | older
    · exact grows.id_ne_rootID logged
    · exact held.proper id older
  case intact =>
    intro id member
    rcases mem_cons.mp member with rfl | older
    · exact held.numbered.intact_new grows later
    · exact (held.intact id older).grow logged grows
  case popped =>
    intro id explored member
    rcases mem_cons.mp member with rfl | older
    · exact fresh.2.1 (mem_toList.mpr explored)
    · exact held.popped id explored older
  case apart =>
    intro id isRoot some member
    rcases mem_cons.mp member with rfl | older
    · exact fresh.2.2 (mem_toList.mpr isRoot)
    · exact held.apart id isRoot some older
  case started => exact held.started
  case waiting =>
    intro idle
    rw [exploring] at idle
    contradiction

end

section

variable {S : Type u} [BEq S] [LT S] [DecidableLT S] {sorting : Sorting (FrontierEntry S)}
  {t : SnapshotTree.Tree} {nextSnap : ID} {deleted : List ID} {frontier : Frontier S}
  {fe root : Option ID}

theorem workerRunGC_frontier (t : SnapshotTree.Tree) (frontier : Frontier S) (fe : Option ID) :
    (workerRunGC sorting t frontier fe).frontier =
      (frontier.trim sorting maxFrontierPerWorker).2 := by
  unfold workerRunGC
  dsimp only
  split
  · rfl
  · rfl

theorem rooted_workerRunGC (sound : Sound t) (rooted : Rooted t) (frontier : Frontier S)
    (fe : Option ID) : Rooted (workerRunGC sorting t frontier fe).tree := by
  rcases @workerRunGC_cases S _ _ _ sorting t frontier fe with ⟨-, tree, -⟩ | ⟨tree, -⟩
  · rw [tree]
    exact rooted
  · rw [tree]
    exact rooted_prune sound.listed rooted _

theorem mem_workerRunGC (sound : Sound t) {id : ID}
    (asked : id ∈ (frontier.trim sorting maxFrontierPerWorker).2.ids ++ fe.toList)
    (live : id ∈ t.snapshots) : id ∈ (workerRunGC sorting t frontier fe).tree.snapshots := by
  rcases @workerRunGC_cases S _ _ _ sorting t frontier fe with ⟨-, tree, -⟩ | ⟨tree, -⟩
  · rw [tree]
    exact live
  · have exact := pruneExact_of_listed sound.listed sound.currentLive
      ((frontier.trim sorting maxFrontierPerWorker).2.ids ++ fe.toList)
    rw [tree]
    exact (exact.kept id).mpr ⟨live, Or.inr ⟨id, asked, live, Forest.AncestorOrSelf.refl _ id⟩⟩

omit [BEq S] [LT S] [DecidableLT S] in
theorem Held.size_le (held : Held t nextSnap deleted frontier.ids fe root) (idle : fe = none) :
    frontier.size ≤ maxFrontierPerWorker := by
  have length := (held.waiting idle).length_eq
  rw [Frontier.ids, length_map, Array.length_toList] at length
  rw [length]
  exact length_toList_le.trans (by decide)

theorem Held.not_dropped (held : Held t nextSnap deleted frontier.ids fe root) {id : ID}
    (member : id ∈ (frontier.trim sorting maxFrontierPerWorker).2.ids ++
      (fe.toList ++ root.toList)) :
    fe = some id ∨ id ∉ (frontier.trim sorting maxFrontierPerWorker).1 := by
  have perm := frontier.ids_trim_perm sorting maxFrontierPerWorker
  have once := perm.nodup_iff.mpr held.once
  rcases mem_append.mp member with kept | other
  · exact Or.inr fun dropped => (nodup_append'.mp once).2.2 dropped kept
  · rcases mem_append.mp other with exploring | isRoot
    · exact Or.inl (mem_toList.mp exploring)
    · right
      intro dropped
      have inside : id ∈ frontier.ids := perm.mem_iff.mp (mem_append_left _ dropped)
      cases exploring : fe with
      | some _ =>
        exact held.apart id (mem_toList.mp isRoot) (by simp [exploring]) inside
      | none =>
        rw [(Frontier.trim_dropped_eq_nil_iff _ _ _).mpr (held.size_le exploring)] at dropped
        exact absurd dropped not_mem_nil

theorem Numbered.intact_collect (numbered : Numbered t nextSnap deleted) {id : ID}
    (intact : Intact t deleted id) (spared : fe = some id ∨
      id ∉ (frontier.trim sorting maxFrontierPerWorker).1)
    (live : id ∈ (workerRunGC sorting t frontier fe).tree.snapshots) :
    Intact (workerRunGC sorting t frontier fe).tree
      (deleted ++ (workerRunGC sorting t frontier fe).deleted) id := by
  rcases @Numbered.collects_workerRunGC S _ _ _ sorting _ _ _ numbered frontier fe with
    ⟨pruned, collects, eq⟩
  rcases mem_iff_lookup.mp live with ⟨snap, found⟩
  rcases collects.kept found with ⟨before, old, hyp, -⟩
  rcases intact with ⟨same, oldSame, kept⟩
  cases old.symm.trans oldSame
  refine ⟨snap, found, ?_⟩
  rw [eq, ← hyp, mem_append, mem_append]
  rintro (past | image | now)
  · exact kept past
  · rcases mem_droppedImages.mp image with
      ⟨other, dropped, notExploring, otherSnap, otherLive, shared⟩
    obtain rfl := numbered.distinct otherLive old shared
    exact spared.elim notExploring fun notDropped => notDropped dropped
  · rcases collects.source _ now with ⟨other, otherSnap, otherLive, missing, shared⟩
    obtain rfl := numbered.distinct otherLive old shared
    exact missing live

section

variable (held : Held t nextSnap deleted frontier.ids fe root)

include held

theorem Held.top_workerRunGC ⦃id : ID⦄
    ⦃snap : Snapshot⦄ (live : (workerRunGC sorting t frontier fe).tree.snapshots[id]? = some snap)
    (notRoot : id ≠ SnapshotTree.rootID) (atTop : snap.parentID = SnapshotTree.rootID) :
    root = some id := by
  rcases @Numbered.collects_workerRunGC S _ _ _ sorting _ _ _ held.numbered frontier fe with
    ⟨pruned, collects, -⟩
  rcases collects.kept live with ⟨before, old, -, parentEq⟩
  exact held.top old notRoot (parentEq.trans atTop)

theorem Held.live_workerRunGC {id : ID}
    (member : id ∈ (workerRunGC sorting t frontier fe).frontier.ids ++
      (fe.toList ++ root.toList)) : id ∈ (workerRunGC sorting t frontier fe).tree.snapshots := by
  rw [workerRunGC_frontier] at member
  have sound := held.numbered.sound
  have perm := frontier.ids_trim_perm sorting maxFrontierPerWorker
  have asked : ∀ other ∈ (frontier.trim sorting maxFrontierPerWorker).2.ids ++ fe.toList,
      other ≠ SnapshotTree.rootID ∧
        other ∈ (workerRunGC sorting t frontier fe).tree.snapshots := by
    intro other inside
    have before : other ∈ frontier.ids ++ (fe.toList ++ root.toList) := by
      rcases mem_append.mp inside with kept | exploring
      · exact mem_append_left _ (perm.mem_iff.mp (mem_append_right _ kept))
      · exact mem_append_right _ (mem_append_left _ exploring)
    rcases held.intact other before with ⟨snap, live, -⟩
    exact ⟨held.proper other before,
      mem_workerRunGC sound inside (mem_iff_lookup.mpr ⟨snap, live⟩)⟩
  rw [← append_assoc] at member
  rcases mem_append.mp member with inside | isRoot
  · exact (asked id inside).2
  · have isRoot := mem_toList.mp isRoot
    by_cases none : (frontier.trim sorting maxFrontierPerWorker).2.ids ++ fe.toList = []
    · -- nothing was pruned
      have unchanged : (workerRunGC sorting t frontier fe).tree = t := by
        unfold workerRunGC
        dsimp only
        rw [none]
        rfl
      rw [unchanged]
      rcases held.intact id (by simp [mem_def.mp isRoot]) with ⟨snap, live, -⟩
      exact mem_iff_lookup.mpr ⟨snap, live⟩
    · rcases exists_mem_of_ne_nil _ none with ⟨other, inside⟩
      rcases asked other inside with ⟨notRoot, live⟩
      have numbered := @Numbered.runGC S _ _ _ sorting _ _ _ held.numbered frontier fe
      rcases (rooted_workerRunGC sound held.rooted frontier fe).exists_top numbered.sound.logged
        live notRoot with ⟨top, snap, found, topNotRoot, atTop⟩
      have same := held.top_workerRunGC found topNotRoot atTop
      rw [mem_def.mp isRoot, Option.some.injEq] at same
      rw [same]
      exact mem_iff_lookup.mpr ⟨snap, found⟩

theorem Held.runGC :
    Held (workerRunGC sorting t frontier fe).tree nextSnap
      (deleted ++ (workerRunGC sorting t frontier fe).deleted)
      (workerRunGC sorting t frontier fe).frontier.ids fe root := by
  have perm := frontier.ids_trim_perm sorting maxFrontierPerWorker
  have once := perm.nodup_iff.mpr held.once
  have kept : ∀ id ∈ (workerRunGC sorting t frontier fe).frontier.ids,
      id ∈ frontier.ids := by
    rw [workerRunGC_frontier]
    exact fun id member => perm.mem_iff.mp (mem_append_right _ member)
  have back : ∀ id ∈ (workerRunGC sorting t frontier fe).frontier.ids ++
      (fe.toList ++ root.toList), id ∈ frontier.ids ++ (fe.toList ++ root.toList) := by
    intro id member
    rcases mem_append.mp member with entry | other
    · exact mem_append_left _ (kept id entry)
    · exact mem_append_right _ other
  constructor
  case numbered => exact held.numbered.runGC frontier fe
  case rooted => exact rooted_workerRunGC held.numbered.sound held.rooted frontier fe
  case top => exact held.top_workerRunGC
  case once =>
    rw [workerRunGC_frontier]
    exact (nodup_append'.mp once).2.1
  case proper => exact fun id member => held.proper id (back id member)
  case intact =>
    intro id member
    have live := held.live_workerRunGC member
    rw [workerRunGC_frontier] at member
    exact held.numbered.intact_collect (held.intact id (back id (by rwa [workerRunGC_frontier])))
      (held.not_dropped member) live
  case popped => exact fun id exploring member => held.popped id exploring (kept id member)
  case apart =>
    exact fun id isRoot exploring member => held.apart id isRoot exploring (kept id member)
  case started => exact held.started
  case waiting =>
    intro idle
    have alone := held.waiting idle
    have fits : frontier.size ≤ maxFrontierPerWorker := held.size_le idle
    rw [workerRunGC_frontier]
    rw [(Frontier.trim_dropped_eq_nil_iff _ _ _).mpr fits, nil_append] at perm
    exact perm.trans alone

end

end

namespace PoolWorker

/-- One more entry on the frontier, for a snapshot with the given image. -/
structure Enters (w after : PoolWorker) (hypID : ID) (snap : Snapshot) : Prop where
  hyp : snap.hypervisorID = hypID
  grows : ∃ parent, Grows w.tree after.tree parent snap
  frontier : after.frontier = w.frontier ++ [snap.id]
  fe : after.fe = w.fe

theorem setupRootSnapshot_cases {w : PoolWorker} (logged : Logged w.tree) (hypID : ID)
    (coverage rngState : UInt64) : w.setupRootSnapshot hypID coverage rngState = w ∨
      (w.rootID = none ∧ ∃ snap, Enters w (w.setupRootSnapshot hypID coverage rngState) hypID snap ∧
        (w.setupRootSnapshot hypID coverage rngState).rootID = some snap.id) := by
  cases isRoot : w.rootID with
  | some _ =>
    left
    simp only [setupRootSnapshot, isRoot]
  | none =>
    right
    rcases mem_iff_lookup.mp logged.rootLive with ⟨root, live⟩
    rcases create_of_live live hypID w.currentTimeNS coverage rngState 0 0 with
      ⟨next, snap, created, grows, -, hyp, -⟩
    simp only [setupRootSnapshot, isRoot, created]
    exact ⟨trivial, snap, ⟨hyp, ⟨root, grows⟩, rfl, rfl⟩, rfl⟩

theorem maybeChildSnapshot_cases (w : PoolWorker) (maxDepth : UInt32) (childHypID : ID)
    (coverage rngState : UInt64) : w.maybeChildSnapshot maxDepth childHypID coverage rngState = w ∨
      ∃ snap, w.fe = some snap.parentID ∧
        Enters w (w.maybeChildSnapshot maxDepth childHypID coverage rngState) childHypID snap ∧
        (w.maybeChildSnapshot maxDepth childHypID coverage rngState).rootID = w.rootID := by
  cases exploring : w.fe with
  | none =>
    left
    simp only [maybeChildSnapshot, exploring]
  | some snapshotID =>
    cases live : w.tree.snapshots[snapshotID]? with
    | none =>
      left
      simp only [maybeChildSnapshot, exploring, SnapshotTree.Tree.get, live]
    | some parent =>
      rcases create_of_live live childHypID w.currentTimeNS coverage rngState 0 0 with
        ⟨next, snap, created, grows, parentEq, hyp, -⟩
      simp only [maybeChildSnapshot, exploring, SnapshotTree.Tree.get, live, created]
      by_cases deep : parent.depth ≥ maxDepth
      · left
        rw [if_pos deep]
      · right
        rw [if_neg deep]
        exact ⟨snap, congrArg some parentEq.symm, ⟨hyp, ⟨parent, grows⟩, rfl, exploring.symm⟩, rfl⟩

theorem restoreVM_fe {w : PoolWorker} {snapshotID : ID} (exploring : w.fe = some snapshotID)
    (restored : Bool) : (w.restoreVM snapshotID restored).fe = w.fe ∧
      (w.restoreVM snapshotID restored).tree = w.tree ∧
      (w.restoreVM snapshotID restored).rootID = w.rootID := by
  unfold restoreVM
  rw [exploring]
  by_cases pushed : snapshotID ∈ w.frontier
  · rw [if_pos pushed]
    cases w.tree.get snapshotID with
    | error _ => exact ⟨rfl, rfl, rfl⟩
    | ok snap =>
      cases restored with
      | false | true => exact ⟨rfl, rfl, rfl⟩
  · rw [if_neg pushed]
    exact ⟨exploring, rfl, rfl⟩

end PoolWorker

namespace LoopWorker

variable {S : Type u} {w : LoopWorker S}

def Safe (w : LoopWorker S) : Prop :=
  Held w.worker.tree w.nextSnap w.deleted w.frontier.ids w.worker.fe w.worker.rootID

theorem nextSnap_lt_nextHypID (w : LoopWorker S) (skipped : Nat) :
    w.nextSnap < w.nextHypID skipped :=
  Nat.lt_succ_of_le (Nat.le_add_right _ _)

variable [BEq S] [LT S] [DecidableLT S]

theorem Safe.pushNew_self (safe : w.Safe) (skipped : Nat) (score : S) :
    (w.pushNew (w.nextHypID skipped) score w.worker).Safe := by
  simp only [pushNew, drop_length, foldl_nil]
  exact Held.skip safe (w.nextSnap_lt_nextHypID skipped).le

theorem pushNew_ids (w : LoopWorker S) (hypID : ID) (score : S) {worker : PoolWorker}
    {snap : Snapshot} (enters : w.worker.Enters worker hypID snap) :
    (w.pushNew hypID score worker).frontier.ids.Perm (snap.id :: w.frontier.ids) := by
  simp only [pushNew, enters.frontier, drop_left, foldl_cons, foldl_nil]
  exact Frontier.ids_push_perm _ _

theorem Safe.setupRootSnapshot (safe : w.Safe) (skipped : Nat) (coverage rngState : UInt64)
    (score : S) : (w.pushNew (w.nextHypID skipped) score
      (w.worker.setupRootSnapshot (w.nextHypID skipped) coverage rngState)).Safe := by
  rcases PoolWorker.setupRootSnapshot_cases safe.numbered.sound.logged (w.nextHypID skipped)
    coverage rngState with same | ⟨none, snap, enters, isRoot⟩
  · rw [same]
    exact safe.pushNew_self skipped score
  · have held : Held _ _ _ _ _ _ := safe
    rw [none] at held
    rcases enters.grows with ⟨parent, grows⟩
    have empty : w.frontier.ids = [] := perm_nil.mp (held.waiting (held.started rfl))
    have perm := w.pushNew_ids (w.nextHypID skipped) score enters
    rw [empty] at perm
    have later := w.nextSnap_lt_nextHypID skipped
    have after := (held.setup grows (enters.hyp ▸ later)).perm perm
    rw [enters.hyp, ← enters.fe, ← isRoot] at after
    exact after

theorem Safe.childSnapshot (safe : w.Safe) (maxDepth : UInt32) (skipped : Nat)
    (coverage rngState : UInt64) (score : S) : (w.pushNew (w.nextHypID skipped) score
      (w.worker.maybeChildSnapshot maxDepth (w.nextHypID skipped) coverage rngState)).Safe := by
  rcases w.worker.maybeChildSnapshot_cases maxDepth (w.nextHypID skipped) coverage rngState with
    same | ⟨snap, exploring, enters, isRoot⟩
  · rw [same]
    exact safe.pushNew_self skipped score
  · rcases enters.grows with ⟨parent, grows⟩
    have later := w.nextSnap_lt_nextHypID skipped
    have after := (Held.child safe grows (enters.hyp ▸ later) exploring).perm
      (w.pushNew_ids (w.nextHypID skipped) score enters)
    rw [enters.hyp, ← enters.fe, ← isRoot] at after
    exact after

theorem Safe.pop (safe : w.Safe) (score : S) : (w.pop score).Safe := by
  unfold LoopWorker.pop
  cases isRoot : w.worker.rootID with
  | none => exact safe
  | some root =>
    have held : Held _ _ _ _ _ _ := safe
    rw [isRoot] at held
    dsimp only
    by_cases empty : w.frontier.isEmpty = true
    · rw [if_pos empty]
      have none : w.frontier.ids = [] := by
        rw [Frontier.ids, Array.isEmpty_iff.mp empty]
        rfl
      rw [none] at held
      cases popped : (w.frontier.push { snapshotID := root, score }).pop with
      | none => exact safe
      | some result =>
        rcases result with ⟨e, rest⟩
        have perm := (Frontier.ids_pop_perm popped).trans (Frontier.ids_push_perm _ _)
        rw [none, perm_singleton, cons.injEq] at perm
        unfold Safe
        dsimp only
        rw [perm.1, perm.2, isRoot]
        exact held.restart
    · rw [if_neg empty]
      cases popped : w.frontier.pop with
      | none => exact safe
      | some result =>
        rcases result with ⟨e, rest⟩
        have after := (held.perm (Frontier.ids_pop_perm popped)).pop (some_ne_none _)
        rw [← isRoot] at after
        exact after

theorem safe_act (safe : w.Safe) (maxDepth : UInt32) (sorting : Sorting (FrontierEntry S))
    (action : LoopAction S) : (w.act maxDepth sorting action).Safe := by
  cases action with
  | setupRootSnapshot skipped coverage rngState score =>
    exact safe.setupRootSnapshot skipped coverage rngState score
  | pop score => exact safe.pop score
  | restoreVM restored =>
    simp only [act]
    cases exploring : w.worker.fe with
    | none => exact safe
    | some snapshotID =>
      rcases PoolWorker.restoreVM_fe exploring restored with ⟨fe, tree, root⟩
      unfold Safe
      dsimp only
      rw [fe, tree, root]
      exact safe
  | takeStep step => exact safe
  | hit kind target targetB params =>
    simp only [act]
    split
    · exact safe
    · exact safe
  | runForInstructions virtualNS => exact safe
  | childSnapshot skipped coverage rngState score =>
    simp only [act]
    split
    · exact safe.childSnapshot maxDepth skipped coverage rngState score
    · exact safe
  | runGC => exact Held.runGC safe

theorem safe_run (maxDepth : UInt32) (sorting : Sorting (FrontierEntry S))
    (actions : List (LoopAction S)) : (run maxDepth sorting {} actions).Safe :=
  foldlRecOn (motive := Safe) actions (act maxDepth sorting) held_initial
    fun _ safe action _ => safe_act safe maxDepth sorting action

/-- In every run of a worker, whatever it may restore next is live in its tree,
and the hypervisor snapshot was not deleted. -/
theorem restorable_is_intact (maxDepth : UInt32) (sorting : Sorting (FrontierEntry S))
    (actions : List (LoopAction S)) (id : ID)
    (member : id ∈ (run maxDepth sorting {} actions).restorable) :
    Intact (run maxDepth sorting {} actions).worker.tree
      (run maxDepth sorting {} actions).deleted id :=
  (safe_run maxDepth sorting actions).intact id member

def collected : List (LoopAction Nat) :=
  .setupRootSnapshot 0 0 0 1 :: .pop 1 :: .restoreVM true ::
    replicate 51 (.childSnapshot 0 0 0 1) ++ [.runGC, .pop 1]

theorem restorable_is_intact_collected :
    (run 10 byScore {} collected).deleted = [52, 52] ∧
      51 ∈ (run 10 byScore {} collected).restorable ∧
      Intact (run 10 byScore {} collected).worker.tree
        (run 10 byScore {} collected).deleted 51 := by
  obtain ⟨deleted, member⟩ : (run 10 byScore {} collected).deleted = [52, 52] ∧
      51 ∈ (run 10 byScore {} collected).restorable := by
    decide +kernel
  exact ⟨deleted, member, restorable_is_intact 10 byScore collected 51 member⟩

end LoopWorker

end OpenThesis.Orchestrator
