import OpenThesis.Explorer.Session

/-!
# The exploration loop

`Run` starts bursts from entries of the frontier (`internal/explorer/explorer.go`). Answers of the
hypervisor, random numbers, ratings and picks are inputs; `hypIDs` and `restores` are not in the
program.
-/

namespace OpenThesis.Explorer

open SnapshotTree List

universe u

structure RunConfig where
  maxDepth : UInt32
  maxStates : Nat
  branchFactor : Int
  mcts : Bool

def RunConfig.branches (cfg : RunConfig) : Int :=
  if cfg.branchFactor ≤ 0 then 1 else cfg.branchFactor

/-- What the environment answers in a burst. -/
structure Burst (S : Type u) where
  cancelled : Bool := false
  restoreErr : Option String := none
  setSeedErr : Option String := none
  snapshot : Except String ID
  rngState : UInt64 := 0
  rating : Rating S

/-- Whether to stop, the node selected without the heap, its energy, and the bursts, numbered by how
many are left. -/
structure Turn (S : Type u) where
  stopped : Bool := false
  selected : ID := rootID
  energy : Int := 0
  bursts : Nat → Burst S

structure Restore where
  node : ID
  passed : ID
  wanted : Except String ID

/-- The explorer and what it asked of the hypervisor. -/
structure ExplorerRun (n : Nat) (S : Type u) where
  explorer : ExplorerState n S
  hypIDs : List ID := [0]
  restores : List Restore := []

namespace ExplorerRun

variable {n : Nat} {S : Type u}

def runForward (cfg : RunConfig) (r : ExplorerRun n S) (parentID : ID) (burst : Burst S) :
    ExplorerRun n S × Except String ID :=
  let r := { r with explorer := { r.explorer with states := r.explorer.states + 1 } }
  match r.explorer.tree.get parentID with
  | .error err => (r, .error s!"explorer run forward: {err}")
  | .ok parent =>
    if cfg.maxDepth ≤ parent.depth then (r, .ok parentID)
    else
      match burst.snapshot with
      | .error err => (r, .error s!"explorer snapshot: {err}")
      | .ok hypSnapID =>
        match r.explorer.tree.create parentID hypSnapID 0 r.explorer.coverage.hash
            burst.rngState 0 0 with
        | .error err => (r, .error s!"explorer create snapshot: {err}")
        | .ok (childID, tree) =>
          ({ r with
             explorer := { r.explorer with tree }
             hypIDs := r.hypIDs ++ [hypSnapID] }, .ok childID)

def restore (r : ExplorerRun n S) (entry : ID) : ExplorerRun n S :=
  { r with
    restores := r.restores ++
      [{ node := entry, passed := entry, wanted := r.explorer.tree.hypervisorID entry }] }

variable [BEq S] [LT S] [DecidableLT S]

def pushFrontier (r : ExplorerRun n S) (id : ID) (rating : Rating S) : ExplorerRun n S :=
  { r with explorer := r.explorer.pushFrontier id rating }

def forward (cfg : RunConfig) (r : ExplorerRun n S) (parentID : ID) (burst : Burst S) :
    ExplorerRun n S × Except String ID :=
  match r.runForward cfg parentID burst with
  | (r, .error err) => (r, .error err)
  | (r, .ok childID) =>
    (if childID ≠ parentID then r.pushFrontier childID burst.rating else r, .ok childID)

def branch (cfg : RunConfig) (entry : ID) (r : ExplorerRun n S) (burst : Burst S) :
    ExplorerRun n S :=
  if burst.restoreErr.isSome then r
  else if burst.setSeedErr.isSome then r.restore entry
  else ((r.restore entry).forward cfg entry burst).1

def full (cfg : RunConfig) (r : ExplorerRun n S) : Bool :=
  0 < cfg.maxStates && cfg.maxStates ≤ r.explorer.states

def branchAll (cfg : RunConfig) (entry : ID) (bursts : Nat → Burst S) :
    Nat → ExplorerRun n S → ExplorerRun n S
  | 0, r => r
  | left + 1, r =>
    if (bursts left).cancelled || r.full cfg then r
    else branchAll cfg entry bursts left (r.branch cfg entry (bursts left))

end ExplorerRun

variable {n : Nat} {S : Type u} [BEq S] [LT S] [DecidableLT S]

def popHeap (decay : S → S) (currentStep : Nat) :
    Nat → Frontier (Priority S) → Option (FrontierEntry (Priority S) × Frontier (Priority S))
  | 0, frontier => frontier.pop
  | tries + 1, frontier =>
    match frontier.pop with
    | none => none
    | some (entry, rest) =>
      if 50 < currentStep - entry.score.createdAtStep ∧ 0 < rest.size then
        popHeap decay currentStep tries
          (rest.push { entry with score := { entry.score with score := decay entry.score.score } })
      else some (entry, rest)

def popFrontier (cfg : RunConfig) (decay : S → S) (e : ExplorerState n S) (turn : Turn S) :
    Option (ID × Int × Frontier (Priority S)) :=
  let heap := (popHeap decay e.states 3 e.frontier).map fun (entry, rest) =>
    (entry.snapshotID, entry.score.energy, rest)
  if cfg.mcts then
    match e.tree.get turn.selected with
    | .error _ => heap
    | .ok _ => some (turn.selected, turn.energy, e.frontier)
  else heap

namespace ExplorerRun

def turn (cfg : RunConfig) (decay : S → S) (r : ExplorerRun n S) (input : Turn S) :
    Option (ExplorerRun n S) :=
  if input.stopped || r.full cfg || (r.explorer.frontier.size = 0 && !cfg.mcts) then none
  else
    (popFrontier cfg decay r.explorer input).map fun (entry, energy, frontier) =>
      branchAll cfg entry input.bursts
        (if energy ≤ 0 then cfg.branches else energy).toNat
        { r with explorer := { r.explorer with frontier } }

def loop (cfg : RunConfig) (decay : S → S) : List (Turn S) → ExplorerRun n S → ExplorerRun n S
  | [], r => r
  | input :: inputs, r =>
    match r.turn cfg decay input with
    | none => r
    | some r => loop cfg decay inputs r

def run (cfg : RunConfig) (decay : S → S) (r : ExplorerRun n S) (first : Burst S)
    (inputs : List (Turn S)) : ExplorerRun n S :=
  match r.forward cfg rootID first with
  | (r, .error _) => r
  | (r, .ok _) => loop cfg decay inputs r

omit [BEq S] [LT S] [DecidableLT S]

structure Numbered (tree : SnapshotTree.Tree) (hypIDs : List ID) : Prop where
  logged : Logged tree
  length : tree.nextID = hypIDs.length
  given : ∀ ⦃id : ID⦄ ⦃snap : Snapshot⦄, tree.snapshots[id]? = some snap →
    hypIDs[id]? = some snap.hypervisorID

/-- The entries of the frontier are live, and so were the nodes that were restored. -/
structure Backed (r : ExplorerRun n S) : Prop where
  numbered : Numbered r.explorer.tree r.hypIDs
  live : ∀ id ∈ r.explorer.frontier.ids, id ∈ r.explorer.tree.snapshots
  restored : ∀ x ∈ r.restores, x.passed = x.node ∧
    ∃ hypID, x.wanted = .ok hypID ∧ r.hypIDs[x.node]? = some hypID

theorem getElem?_of_isPrefix {hypIDs later : List ID} (kept : hypIDs <+: later) {id hypID : ID}
    (given : hypIDs[id]? = some hypID) : later[id]? = some hypID := by
  obtain ⟨more, rfl⟩ := kept
  obtain ⟨inside, _⟩ := List.getElem?_eq_some_iff.mp given
  rw [List.getElem?_append_left inside, given]

theorem numbered_newTree : Numbered newTree [0] where
  logged := sound_newTree.logged
  length := rfl
  given id snap live := by
    rw [newTree_lookup] at live
    split_ifs at live with root
    rw [root, ← Option.some.inj live]
    rfl

theorem Numbered.grows {tree next : SnapshotTree.Tree} {hypIDs : List ID}
    (numbered : Numbered tree hypIDs) {parent snap : Snapshot}
    (grows : Grows tree next parent snap) : Numbered next (hypIDs ++ [snap.hypervisorID]) := by
  constructor
  case logged => exact grows.logged numbered.logged
  case length =>
    rw [grows.nextID, length_append, numbered.length]
    rfl
  case given =>
    intro id found live
    rw [grows.lookup] at live
    split_ifs at live with new above
    · rw [new, grows.id, numbered.length, ← Option.some.inj live]
      exact List.getElem?_concat_length
    · have old := getElem?_of_isPrefix (prefix_append _ [snap.hypervisorID])
        (numbered.given grows.parentLive)
      rw [above, ← Option.some.inj live]
      exact old
    · exact getElem?_of_isPrefix (prefix_append _ _) (numbered.given live)

structure Advances (r next : ExplorerRun n S) : Prop where
  frontier : next.explorer.frontier = r.explorer.frontier
  restores : next.restores = r.restores
  tree : (next.explorer.tree = r.explorer.tree ∧ next.hypIDs = r.hypIDs) ∨
    ∃ parent snap, Grows r.explorer.tree next.explorer.tree parent snap ∧
      next.hypIDs = r.hypIDs ++ [snap.hypervisorID]

theorem advances_runForward (cfg : RunConfig) (r : ExplorerRun n S) (parentID : ID)
    (burst : Burst S) : Advances r (r.runForward cfg parentID burst).1 := by
  unfold runForward
  dsimp only
  cases found : r.explorer.tree.get parentID with
  | error err => exact ⟨rfl, rfl, Or.inl ⟨rfl, rfl⟩⟩
  | ok parent =>
    dsimp only
    split
    · exact ⟨rfl, rfl, Or.inl ⟨rfl, rfl⟩⟩
    · cases burst.snapshot with
      | error err => exact ⟨rfl, rfl, Or.inl ⟨rfl, rfl⟩⟩
      | ok hypSnapID =>
        dsimp only
        cases live : r.explorer.tree.snapshots[parentID]? with
        | none =>
          rw [create_of_missing live]
          exact ⟨rfl, rfl, Or.inl ⟨rfl, rfl⟩⟩
        | some parent =>
          obtain ⟨next, snap, created, grows, _, given, _⟩ := create_of_live live hypSnapID 0
            r.explorer.coverage.hash burst.rngState 0 0
          rw [created]
          refine ⟨rfl, rfl, Or.inr ⟨parent, snap, grows, ?_⟩⟩
          rw [given]

namespace Advances

variable {r next : ExplorerRun n S}

theorem numbered (advances : Advances r next) (numbered : Numbered r.explorer.tree r.hypIDs) :
    Numbered next.explorer.tree next.hypIDs := by
  rcases advances.tree with ⟨tree, hypIDs⟩ | ⟨parent, snap, grows, hypIDs⟩
  · rw [tree, hypIDs]
    exact numbered
  · rw [hypIDs]
    exact numbered.grows grows

theorem isPrefix_hypIDs (advances : Advances r next) : r.hypIDs <+: next.hypIDs := by
  rcases advances.tree with ⟨_, hypIDs⟩ | ⟨_, _, _, hypIDs⟩
  · rw [hypIDs]
  · rw [hypIDs]
    exact prefix_append _ _

theorem mem_of_live (advances : Advances r next) (logged : Logged r.explorer.tree) {id : ID}
    (live : id ∈ r.explorer.tree.snapshots) : id ∈ next.explorer.tree.snapshots := by
  rcases advances.tree with ⟨tree, _⟩ | ⟨_, _, grows, _⟩
  · rw [tree]
    exact live
  · exact grows.mem_of_live logged live

end Advances

variable {r : ExplorerRun n S} {entry : ID}

theorem Backed.advances {next : ExplorerRun n S} (backed : r.Backed) (advances : Advances r next) :
    next.Backed where
  numbered := advances.numbered backed.numbered
  live id mem := by
    rw [advances.frontier] at mem
    exact advances.mem_of_live backed.numbered.logged (backed.live id mem)
  restored x mem := by
    rw [advances.restores] at mem
    obtain ⟨same, hypID, wanted, given⟩ := backed.restored x mem
    exact ⟨same, hypID, wanted, getElem?_of_isPrefix advances.isPrefix_hypIDs given⟩

theorem Backed.restore (backed : r.Backed) (live : entry ∈ r.explorer.tree.snapshots) :
    (r.restore entry).Backed where
  numbered := backed.numbered
  live := backed.live
  restored x mem := by
    rcases mem_append.mp mem with old | new
    · exact backed.restored x old
    · obtain rfl := mem_singleton.mp new
      obtain ⟨snap, found⟩ := Keyed.mem_iff_lookup.mp live
      refine ⟨rfl, snap.hypervisorID, ?_, backed.numbered.given found⟩
      simp only [SnapshotTree.Tree.hypervisorID, found]

variable [BEq S] [LT S] [DecidableLT S]

theorem Backed.pushFrontier (backed : r.Backed) (id : ID) (rating : Rating S) :
    (r.pushFrontier id rating).Backed := by
  have tree : (r.pushFrontier id rating).explorer.tree = r.explorer.tree :=
    r.explorer.tree_pushFrontier id rating
  constructor
  case numbered =>
    rw [tree]
    exact backed.numbered
  case restored => exact backed.restored
  case live =>
    rw [tree]
    intro other mem
    cases found : r.explorer.tree.get id with
    | error err =>
      rw [ExplorerRun.pushFrontier, ExplorerState.pushFrontier_of_error found] at mem
      exact backed.live other mem
    | ok snap =>
      rw [ExplorerRun.pushFrontier, (ExplorerState.pushFrontier_of_get found rating).1] at mem
      rcases mem_cons.mp ((Frontier.ids_push_perm _ _).mem_iff.mp mem) with new | old
      · rw [new]
        exact mem_of_get found
      · exact backed.live other old

theorem mem_ids_of_popHeap {decay : S → S} {currentStep tries : Nat}
    {frontier rest : Frontier (Priority S)} {entry : FrontierEntry (Priority S)}
    (popped : popHeap decay currentStep tries frontier = some (entry, rest)) :
    ∀ id ∈ entry.snapshotID :: rest.ids, id ∈ frontier.ids := by
  induction tries generalizing frontier with
  | zero => exact fun id mem => (Frontier.ids_pop_perm popped).mem_iff.mp mem
  | succ tries ih =>
    unfold popHeap at popped
    cases top : frontier.pop with
    | none =>
      rw [top] at popped
      contradiction
    | some pair =>
      obtain ⟨first, others⟩ := pair
      rw [top] at popped
      dsimp only at popped
      have taken := Frontier.ids_pop_perm top
      split_ifs at popped with old
      · intro id mem
        have pushed := (Frontier.ids_push_perm others _).mem_iff.mp (ih popped id mem)
        exact taken.mem_iff.mp pushed
      · cases popped
        exact fun id mem => taken.mem_iff.mp mem

theorem forward_cases (cfg : RunConfig) (r : ExplorerRun n S) (parentID : ID) (burst : Burst S) :
    (r.forward cfg parentID burst).1 = (r.runForward cfg parentID burst).1 ∨
      ∃ childID, (r.forward cfg parentID burst).1 =
        (r.runForward cfg parentID burst).1.pushFrontier childID burst.rating := by
  unfold ExplorerRun.forward
  cases r.runForward cfg parentID burst with
  | mk next result =>
    cases result with
    | error err => exact Or.inl rfl
    | ok childID =>
      dsimp only
      split
      · exact Or.inr ⟨childID, rfl⟩
      · exact Or.inl rfl

section

variable (backed : r.Backed) (cfg : RunConfig)

include backed cfg

theorem Backed.forward (parentID : ID) (burst : Burst S) :
    (r.forward cfg parentID burst).1.Backed := by
  have next := backed.advances (advances_runForward cfg r parentID burst)
  rcases forward_cases cfg r parentID burst with same | ⟨childID, pushed⟩
  · rw [same]
    exact next
  · rw [pushed]
    exact next.pushFrontier childID burst.rating

theorem mem_forward (parentID : ID) (burst : Burst S)
    {id : ID} (live : id ∈ r.explorer.tree.snapshots) :
    id ∈ (r.forward cfg parentID burst).1.explorer.tree.snapshots := by
  have next := (advances_runForward cfg r parentID burst).mem_of_live backed.numbered.logged live
  rcases forward_cases cfg r parentID burst with same | ⟨childID, pushed⟩
  · rw [same]
    exact next
  · rw [pushed, ExplorerRun.pushFrontier, ExplorerState.tree_pushFrontier]
    exact next

theorem Backed.branch (live : entry ∈ r.explorer.tree.snapshots) (burst : Burst S) :
    (r.branch cfg entry burst).Backed ∧
      entry ∈ (r.branch cfg entry burst).explorer.tree.snapshots := by
  have restored := backed.restore live
  unfold ExplorerRun.branch
  split_ifs
  · exact ⟨backed, live⟩
  · exact ⟨restored, live⟩
  · exact ⟨restored.forward cfg entry burst, mem_forward restored cfg entry burst live⟩

theorem Backed.branchAll
    (live : entry ∈ r.explorer.tree.snapshots) (bursts : Nat → Burst S) (left : Nat) :
    (ExplorerRun.branchAll cfg entry bursts left r).Backed := by
  induction left generalizing r with
  | zero => exact backed
  | succ left ih =>
    unfold ExplorerRun.branchAll
    split
    · exact backed
    · obtain ⟨next, stays⟩ := backed.branch cfg live (bursts left)
      exact ih next stays

end

theorem mem_of_popFrontier (backed : r.Backed) {cfg : RunConfig} {decay : S → S} {input : Turn S}
    {energy : Int} {rest : Frontier (Priority S)}
    (popped : popFrontier cfg decay r.explorer input = some (entry, energy, rest)) :
    entry ∈ r.explorer.tree.snapshots ∧ ∀ id ∈ rest.ids, id ∈ r.explorer.tree.snapshots := by
  have heap : ((popHeap decay r.explorer.states 3 r.explorer.frontier).map
      fun (entry, rest) => (entry.snapshotID, entry.score.energy, rest)) =
        some (entry, energy, rest) →
      entry ∈ r.explorer.tree.snapshots ∧ ∀ id ∈ rest.ids, id ∈ r.explorer.tree.snapshots := by
    intro taken
    obtain ⟨⟨top, others⟩, pop, same⟩ := Option.map_eq_some_iff.mp taken
    obtain ⟨rfl, pair⟩ := Prod.mk.inj same
    cases pair
    have inside := mem_ids_of_popHeap pop
    exact ⟨backed.live _ (inside _ mem_cons_self),
      fun id mem => backed.live id (inside id (mem_cons_of_mem _ mem))⟩
  unfold popFrontier at popped
  dsimp only at popped
  split_ifs at popped
  · cases selected : r.explorer.tree.get input.selected with
    | error err =>
      rw [selected] at popped
      exact heap popped
    | ok snap =>
      rw [selected] at popped
      obtain ⟨rfl, same⟩ := Prod.mk.inj (Option.some.inj popped)
      cases same
      exact ⟨mem_of_get selected, backed.live⟩
  · exact heap popped

theorem Backed.loop (backed : r.Backed) (cfg : RunConfig) (decay : S → S) (inputs : List (Turn S)) :
    (ExplorerRun.loop cfg decay inputs r).Backed := by
  induction inputs generalizing r with
  | nil => exact backed
  | cons input inputs ih =>
    unfold ExplorerRun.loop
    cases taken : r.turn cfg decay input with
    | none => exact backed
    | some next =>
      apply ih
      unfold ExplorerRun.turn at taken
      split_ifs at taken
      obtain ⟨⟨entry, energy, rest⟩, popped, rfl⟩ := Option.map_eq_some_iff.mp taken
      obtain ⟨live, stays⟩ := mem_of_popFrontier backed popped
      have without : ExplorerRun.Backed
          { r with explorer := { r.explorer with frontier := rest } } :=
        ⟨backed.numbered, stays, backed.restored⟩
      exact without.branchAll cfg live input.bursts _

theorem backed_run (coverageMapSize : Int64) (deterministicCoverage : Bool) (cfg : RunConfig)
    (decay : S → S) (first : Burst S) (inputs : List (Turn S)) :
    (run cfg decay { explorer := newExplorer S coverageMapSize deterministicCoverage } first
      inputs).Backed := by
  have fresh : ExplorerRun.Backed
      { explorer := newExplorer S coverageMapSize deterministicCoverage } := by
    refine ⟨numbered_newTree, fun id mem => ?_, fun x mem => ?_⟩
    · cases mem
    · cases mem
  have next := fresh.forward cfg rootID first
  unfold run
  cases outcome : ExplorerRun.forward cfg
      { explorer := newExplorer S coverageMapSize deterministicCoverage } rootID first with
  | mk after result =>
    rw [outcome] at next
    cases result with
    | error err => exact next
    | ok childID => exact next.loop cfg decay inputs

/-- Every burst is restored from the snapshot of its node exactly if the hypervisor gave these nodes
their own identifiers. -/
theorem restores_wanted_iff (coverageMapSize : Int64) (deterministicCoverage : Bool)
    (cfg : RunConfig) (decay : S → S) (first : Burst S) (inputs : List (Turn S)) :
    let r := run cfg decay { explorer := newExplorer S coverageMapSize deterministicCoverage }
      first inputs
    (∀ x ∈ r.restores, x.wanted = .ok x.passed) ↔
      ∀ x ∈ r.restores, r.hypIDs[x.node]? = some x.node := by
  intro r
  have backed : r.Backed :=
    backed_run coverageMapSize deterministicCoverage cfg decay first inputs
  refine forall₂_congr fun x mem => ?_
  obtain ⟨passed, hypID, wanted, given⟩ := backed.restored x mem
  rw [wanted, given, passed, Except.ok.injEq, Option.some.injEq]

/-- The hypervisor calls its first snapshot 7: the burst from node 1 restores snapshot 1,
where 7 was taken. -/
theorem restores_node :
    let burst (hypID : ID) : Burst Nat :=
      { snapshot := .ok hypID, rating := { score := 0, energy := 1 } }
    let r := run { maxDepth := 5, maxStates := 0, branchFactor := 1, mcts := false } id
      { explorer := newExplorer Nat 4 false } (burst 7) [{ bursts := fun _ => burst 8 }]
    r.restores.map (·.node) = [1] ∧ r.restores.map (·.passed) = [1] ∧
      r.restores.map (·.wanted.toOption) = [some 7] ∧ r.hypIDs = [0, 7, 8] ∧
      ¬ ∀ x ∈ r.restores, x.wanted = .ok x.passed := by
  decide +kernel

end ExplorerRun

end OpenThesis.Explorer
