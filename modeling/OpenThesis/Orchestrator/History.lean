import OpenThesis.SnapshotTree.Run

/-!
# The merged history of a pool

The merged history of the workers (`TreeHistory` in `internal/orchestrator/pool.go`). Every worker
numbers its nodes from zero.
-/

namespace OpenThesis.Orchestrator

open SnapshotTree List

structure Merge where
  seen : Std.ExtTreeSet ID := ∅
  merged : List NodeInfo := []

namespace Merge

def visit (m : Merge) (n : NodeInfo) : Merge :=
  if n.id ∈ m.seen then m
  else
    { seen := m.seen.insert n.id
      merged := m.merged ++ [n] }

def visitTree (m : Merge) (tree : SnapshotTree.Tree) : Merge :=
  tree.history.foldl visit m

def Numbered (m : Merge) : Prop :=
  ∀ id, id ∈ m.seen ↔ id < m.merged.length

variable {m : Merge} {n : NodeInfo}

theorem numbered_empty : ({} : Merge).Numbered := by
  intro id
  simp

theorem visit_of_next (numbered : m.Numbered) (next : n.id = m.merged.length) :
    (m.visit n).Numbered ∧ (m.visit n).merged = m.merged ++ [n] := by
  have unseen : n.id ∉ m.seen := fun seen => Nat.lt_irrefl _ (next ▸ (numbered n.id).mp seen)
  unfold visit
  rw [if_neg unseen]
  constructor
  · intro id
    rw [Std.ExtTreeSet.mem_insert, numbered id, compare_eq_iff_eq, next, length_append,
      length_singleton, Nat.lt_succ_iff_lt_or_eq, or_comm, eq_comm]
  · rfl

theorem foldl_visit {nodes : List NodeInfo} {first : Nat}
    (ids : ∀ ⦃i n⦄, nodes[i]? = some n → n.id = first + i) (numbered : m.Numbered)
    (covered : first ≤ m.merged.length) : (nodes.foldl visit m).Numbered ∧
      (nodes.foldl visit m).merged = m.merged ++ nodes.drop (m.merged.length - first) := by
  induction nodes generalizing first m with
  | nil => simpa using numbered
  | cons n nodes ih =>
    have head : n.id = first := ids (i := 0) rfl
    have tail : ∀ ⦃i k⦄, nodes[i]? = some k → k.id = first + 1 + i := by
      intro i k found
      rw [ids (i := i + 1) found, Nat.add_assoc, Nat.add_comm 1]
    rw [foldl_cons]
    cases Nat.lt_or_eq_of_le covered with
    | inl old =>
      rw [visit, if_pos ((numbered n.id).mpr (head ▸ old))]
      have rest := ih tail numbered old
      rwa [show m.merged.length - first = m.merged.length - (first + 1) + 1 by omega,
        drop_succ_cons]
    | inr next =>
      obtain ⟨numbered', added⟩ := visit_of_next numbered (head.trans next)
      have rest := ih tail numbered' (by rw [added, length_append, next]; rfl)
      rw [added, length_append, next, length_singleton, Nat.sub_self,
        drop_zero, append_assoc, singleton_append] at rest
      rwa [next, Nat.sub_self, drop_zero]

theorem visitTree_of_log {tree : SnapshotTree.Tree} (log : Log tree.history)
    (numbered : m.Numbered) : (m.visitTree tree).Numbered ∧
      (m.visitTree tree).merged = m.merged ++ tree.history.drop m.merged.length := by
  have ids : ∀ ⦃i n⦄, tree.history[i]? = some n → n.id = 0 + i := by
    intro i n found
    rw [log.ids found, Nat.zero_add]
  exact foldl_visit ids numbered (Nat.zero_le _)

theorem foldl_visitTree {trees : List SnapshotTree.Tree}
    (logs : ∀ tree ∈ trees, Log tree.history) (numbered : m.Numbered) (i : Nat) :
    (trees.foldl visitTree m).merged[i]? = m.merged[i]?.or (trees.findSome? (·.history[i]?)) ∧
      (trees.foldl visitTree m).merged.length =
        trees.foldl (fun length tree => max length tree.history.length) m.merged.length := by
  induction trees generalizing m with
  | nil => simp
  | cons tree trees ih =>
    rw [forall_mem_cons] at logs
    obtain ⟨numbered', merged⟩ := visitTree_of_log logs.1 numbered
    obtain ⟨entry, length⟩ := ih logs.2 numbered'
    constructor
    · rw [foldl_cons, entry, merged, findSome?_cons, List.getElem?_append,
        List.getElem?_drop]
      split
      case isTrue old =>
        rw [List.getElem?_eq_getElem old]
        rfl
      case isFalse new =>
        rw [Nat.not_lt] at new
        rw [List.getElem?_eq_none new, Nat.add_sub_cancel' new]
        cases tree.history[i]? <;> rfl
    · rw [foldl_cons, foldl_cons, length, merged, length_append,
        length_drop]
      congr 1
      omega

end Merge

def treeHistory (trees : List SnapshotTree.Tree) : List NodeInfo :=
  (trees.foldl Merge.visitTree {}).merged

def maxDepth (history : List NodeInfo) : UInt32 :=
  history.foldl (fun deepest n => if deepest < n.depth then n.depth else deepest) 0

variable {trees : List SnapshotTree.Tree}

theorem getElem?_treeHistory (logs : ∀ tree ∈ trees, Log tree.history) (i : Nat) :
    (treeHistory trees)[i]? = trees.findSome? (·.history[i]?) :=
  (Merge.foldl_visitTree logs Merge.numbered_empty i).1.trans (Option.none_or ..)

theorem length_treeHistory (logs : ∀ tree ∈ trees, Log tree.history) : (treeHistory trees).length =
      trees.foldl (fun length tree => max length tree.history.length) 0 :=
  (Merge.foldl_visitTree logs Merge.numbered_empty 0).2

variable {n : NodeInfo} {history : List NodeInfo}

theorem mem_of_mem_treeHistory (logs : ∀ tree ∈ trees, Log tree.history)
    (mem : n ∈ treeHistory trees) : ∃ tree ∈ trees, n ∈ tree.history := by
  obtain ⟨i, entry⟩ := mem_iff_getElem?.mp mem
  rw [getElem?_treeHistory logs] at entry
  obtain ⟨tree, treeMem, found⟩ := exists_of_findSome?_eq_some entry
  exact ⟨tree, treeMem, mem_of_getElem? found⟩

theorem maxDepth_le_iff {bound : UInt32} :
    maxDepth history ≤ bound ↔ ∀ n ∈ history, n.depth ≤ bound := by
  have fromLevel : ∀ deepest : UInt32,
      history.foldl (fun deepest n => if deepest < n.depth then n.depth else deepest) deepest ≤
          bound ↔ deepest ≤ bound ∧ ∀ n ∈ history, n.depth ≤ bound := by
    induction history with
    | nil => simp
    | cons n history ih =>
      intro deepest
      rw [foldl_cons, ih, forall_mem_cons, ← and_assoc]
      refine and_congr_left fun _ => ?_
      split
      case isTrue deeper =>
        exact ⟨fun le => ⟨UInt32.le_trans (UInt32.le_of_lt deeper) le, le⟩, And.right⟩
      case isFalse shallow =>
        rw [UInt32.not_lt] at shallow
        exact ⟨fun le => ⟨le, UInt32.le_trans shallow le⟩, And.left⟩
  exact (fromLevel 0).trans (and_iff_right (UInt32.zero_le))

theorem depth_le_maxDepth (mem : n ∈ history) : n.depth ≤ maxDepth history :=
  maxDepth_le_iff.mp (UInt32.le_refl _) n mem

theorem foldl_max_add_length {lengths : List Nat} {longest : Nat} (nonempty : 0 < longest)
    (positive : ∀ length ∈ lengths, 0 < length) :
    lengths.foldl max longest + lengths.length ≤ longest + lengths.sum ∧
      (lengths.foldl max longest + lengths.length = longest + lengths.sum ↔
        (longest :: lengths).Pairwise fun a b => a = 1 ∨ b = 1) := by
  induction lengths generalizing longest with
  | nil => simp
  | cons length lengths ih =>
    rw [forall_mem_cons] at positive
    have longer : 0 < max longest length := lt_max_of_lt_left nonempty
    obtain ⟨bound, rest⟩ := ih longer positive.2
    rw [foldl_cons, length_cons, sum_cons]
    refine ⟨by omega, ?_⟩
    simp only [pairwise_cons, forall_mem_cons] at rest ⊢
    by_cases one : longest = 1 ∨ length = 1
    · rw [show lengths.foldl max (max longest length) + (lengths.length + 1) =
          longest + (length + lengths.sum) ↔
            lengths.foldl max (max longest length) + lengths.length =
              max longest length + lengths.sum by omega, rest]
      rcases one with rfl | rfl
      · simp [max_eq_right (Nat.succ_le_of_lt positive.1)]
      · simp [max_eq_left (Nat.succ_le_of_lt nonempty)]
    · constructor
      · intro equal
        omega
      · intro pairs
        exact absurd pairs.1.1 one

theorem length_pos_of_log (log : Log history) : 0 < history.length :=
  (List.getElem?_eq_some_iff.mp log.root).1

theorem depth_of_root (log : Log history) (found : history[rootID]? = some n) : n.depth = 0 := by
  rw [log.root] at found
  rw [← Option.some.inj found]

theorem getElem?_treeHistory_of_alone (logs : ∀ tree ∈ trees, Log tree.history)
    (alone : trees.Pairwise fun a b => a.history.length = 1 ∨ b.history.length = 1)
    {tree : SnapshotTree.Tree} (mem : tree ∈ trees) {i : Nat} (notRoot : i ≠ rootID)
    (found : tree.history[i]? = some n) : (treeHistory trees)[i]? = some n := by
  have longer : ∀ {other : SnapshotTree.Tree} {k}, other.history[i]? = some k →
      other.history.length ≠ 1 := by
    intro other k entry one
    have bound := (List.getElem?_eq_some_iff.mp entry).1
    rw [one] at bound
    exact notRoot (Nat.lt_one_iff.mp bound)
  rw [getElem?_treeHistory logs]
  cases first : trees.findSome? (·.history[i]?) with
  | none =>
    rw [findSome?_eq_none_iff] at first
    rw [first tree mem] at found
    exact found
  | some k =>
    obtain ⟨other, otherMem, entry⟩ := exists_of_findSome?_eq_some first
    have same : other = tree := by
      by_contra different
      have symmetric : Std.Symm fun a b : SnapshotTree.Tree =>
          a.history.length = 1 ∨ b.history.length = 1 := ⟨fun _ _ => Or.symm⟩
      rcases alone.forall otherMem mem different with one | one
      · exact longer entry one
      · exact longer found one
    rw [← entry, same, found]

theorem length_treeHistory_eq_iff (logs : ∀ tree ∈ trees, Log tree.history) :
    (treeHistory trees).length + (trees.length - 1) = (trees.map (·.history.length)).sum ↔
      trees.Pairwise fun a b => a.history.length = 1 ∨ b.history.length = 1 := by
  rw [length_treeHistory logs]
  cases trees with
  | nil => simp
  | cons tree trees =>
    rw [forall_mem_cons] at logs
    have positive : ∀ length ∈ trees.map (·.history.length), 0 < length := by
      intro length mem
      obtain ⟨other, otherMem, rfl⟩ := mem_map.mp mem
      exact length_pos_of_log (logs.2 other otherMem)
    have counted := (foldl_max_add_length (length_pos_of_log logs.1) positive).2
    rw [foldl_map, length_map, show tree.history.length :: trees.map (·.history.length) =
        (tree :: trees).map (·.history.length) from rfl, pairwise_map] at counted
    rw [← counted, foldl_cons, length_cons, Nat.add_sub_cancel, map_cons, sum_cons, Nat.zero_max]

theorem maxDepth_treeHistory (logs : ∀ tree ∈ trees, Log tree.history)
    (alone : trees.Pairwise fun a b => a.history.length = 1 ∨ b.history.length = 1) :
    maxDepth (treeHistory trees) = maxDepth (trees.flatMap (·.history)) := by
  apply UInt32.le_antisymm
  · rw [maxDepth_le_iff]
    intro n mem
    exact depth_le_maxDepth (mem_flatMap.mpr (mem_of_mem_treeHistory logs mem))
  · rw [maxDepth_le_iff]
    intro n mem
    obtain ⟨tree, treeMem, nMem⟩ := mem_flatMap.mp mem
    obtain ⟨i, found⟩ := mem_iff_getElem?.mp nMem
    by_cases root : i = rootID
    · rw [depth_of_root (logs tree treeMem) (root ▸ found)]
      exact UInt32.zero_le
    · exact depth_le_maxDepth
        (mem_of_getElem? (getElem?_treeHistory_of_alone logs alone treeMem root found))

/-- The merge loses neither a node nor the deepest level exactly if at most one
worker has more than the tree root. -/
theorem treeHistory_complete_iff (workers : List (List Op)) :
    (maxDepth (treeHistory (workers.map newTree.applyAll)) =
          maxDepth ((workers.map newTree.applyAll).flatMap (·.history)) ∧
        (treeHistory (workers.map newTree.applyAll)).length + (workers.length - 1) =
          ((workers.map newTree.applyAll).map (·.history.length)).sum) ↔
      (workers.map newTree.applyAll).Pairwise fun a b =>
        a.history.length = 1 ∨ b.history.length = 1 := by
  have logs : ∀ tree ∈ workers.map newTree.applyAll, Log tree.history := by
    intro tree mem
    obtain ⟨ops, _, rfl⟩ := mem_map.mp mem
    exact (sound_applyAll ops).logged.log
  have lengths := length_treeHistory_eq_iff logs
  rw [length_map] at lengths
  constructor
  · intro complete
    exact lengths.mp complete.2
  · intro alone
    exact ⟨maxDepth_treeHistory logs alone, lengths.mpr alone⟩

/-- The first worker takes two snapshots from its root snapshot, the second takes one from the
other. The third level of the second worker and three nodes are lost. -/
theorem treeHistory_loses_depth :
    ∃ first second : List Op,
      maxDepth (treeHistory ([first, second].map newTree.applyAll)) = 2 ∧
        maxDepth (([first, second].map newTree.applyAll).flatMap (·.history)) = 3 ∧
        (treeHistory ([first, second].map newTree.applyAll)).length = 4 ∧
        (([first, second].map newTree.applyAll).map (·.history.length)).sum = 8 := by
  refine ⟨[.create 0 1 0 0 0 0 0, .create 1 2 0 0 0 0 0, .create 1 3 0 0 0 0 0],
    [.create 0 1 0 0 0 0 0, .create 1 2 0 0 0 0 0, .create 2 3 0 0 0 0 0], ?_⟩
  decide +kernel

end OpenThesis.Orchestrator
