import OpenThesis.SnapshotTree.Validate

/-!
# Eviction by age

`PruneOldestExcept` deletes the oldest unprotected nodes.
-/

namespace OpenThesis.SnapshotTree

open Forest List

/-- A live node that is neither the root nor an ancestor of `currentID`. -/
def Unprotected (t : Tree) (currentID id : ID) : Prop :=
  id ∈ t.snapshots ∧ id ≠ rootID ∧ ¬ AncestorOrSelf t.parent? id currentID

open Classical in
noncomputable def olderUnprotected (t : Tree) (currentID id : ID) : Nat :=
  (t.liveIDs.filter fun other => Unprotected t currentID other ∧ other < id).card

/-- The unprotected nodes older than all but as many as the tree is over its
size. -/
def Victim (t : Tree) (currentID : ID) (maxSize : Int) (id : ID) : Prop :=
  Unprotected t currentID id ∧
    (olderUnprotected t currentID id : Int) < t.snapshots.size - maxSize

/-- An operation that orphans nobody: an eviction takes the live children of
its victims along. -/
def OrphansNone (t : Tree) : Op → Prop
  | .pruneOldestExcept currentID maxSize =>
    ∀ ⦃id : ID⦄ ⦃snap : Snapshot⦄, t.snapshots[id]? = some snap → id ≠ rootID →
      Victim t currentID maxSize snap.parentID → Victim t currentID maxSize id
  | _ => True

theorem mem_take_iff_of_ascending {items : List ID} (ascending : items.Pairwise (· < ·))
    (count : Nat) (item : ID) : item ∈ items.take count ↔
      item ∈ items ∧ (items.filter fun other => other < item).length < count := by
  induction items generalizing count with
  | nil => simp
  | cons first rest ih =>
    rcases pairwise_cons.mp ascending with ⟨smallest, restAscending⟩
    cases count with
    | zero => simp
    | succ count =>
      rw [take_succ_cons, mem_cons, mem_cons, ih restAscending]
      by_cases isFirst : item = first
      · subst isFirst
        have none : (item :: rest).filter (fun other => other < item) = [] := by
          apply filter_eq_nil_iff.mpr
          intro other member
          rcases mem_cons.mp member with rfl | later
          · simp
          · simpa using Nat.le_of_lt (smallest other later)
        simp [none]
      · by_cases later : item ∈ rest
        · have less := smallest item later
          simp [isFirst, later, less]
        · simp [isFirst, later]

variable (t : Tree)

theorem mem_evictionCandidates (currentID id : ID) :
    id ∈ t.evictionCandidates currentID ↔ Unprotected t currentID id := by
  rw [Tree.evictionCandidates, mem_filter, mem_keys_iff, decide_eq_true_eq,
    mem_protected, Unprotected]
  tauto

theorem length_older (currentID id : ID) :
    ((t.evictionCandidates currentID).filter fun other => other < id).length =
      olderUnprotected t currentID id := by
  classical
  have nodup : ((t.evictionCandidates currentID).filter fun other => other < id).Nodup :=
    ((keys_nodup t).filter _).filter _
  rw [← toFinset_card_of_nodup nodup, olderUnprotected]
  apply congrArg
  ext other
  rw [mem_toFinset, mem_filter, mem_evictionCandidates, Finset.mem_filter,
    mem_liveIDs, decide_eq_true_eq]
  constructor
  · rintro ⟨unprotected, older⟩
    exact ⟨unprotected.1, unprotected, older⟩
  · rintro ⟨-, unprotected, older⟩
    exact ⟨unprotected, older⟩

theorem mem_evicted (currentID : ID) (maxSize : Int) (id : ID) :
    id ∈ t.evicted currentID maxSize ↔ Victim t currentID maxSize id := by
  have ascending : (t.evictionCandidates currentID).Pairwise (· < ·) :=
    (keys_ascending t).filter _
  unfold Tree.evicted
  rw [mem_take_iff_of_ascending ascending, mem_evictionCandidates, length_older, Victim]
  apply and_congr_right
  intro unprotected
  have inside : olderUnprotected t currentID id < (t.evictionCandidates currentID).length := by
    have member := (mem_evictionCandidates t currentID id).mpr unprotected
    rw [← length_older]
    exact length_filter_lt_length_iff_exists.mpr ⟨id, member, by simp⟩
  split <;> omega

theorem evict_snapshots (currentID : ID) (maxSize : Int) :
    (t.pruneOldestExcept currentID maxSize).2.snapshots =
      (t.removeNodes (t.evicted currentID maxSize)).snapshots := by
  unfold Tree.pruneOldestExcept
  by_cases small : (t.snapshots.size : Int) ≤ maxSize
  · have nobody : t.evicted currentID maxSize = [] := by
      apply eq_nil_iff_forall_not_mem.mpr
      intro id member
      have victim := ((mem_evicted t currentID maxSize id).mp member).2
      omega
    rw [if_pos small, nobody]
    rfl
  · rw [if_neg small, resetCurrent_snapshots]

theorem rooted_apply_iff {t : Tree} (sound : Sound t) (rooted : Rooted t) (op : Op) :
    Rooted (t.apply op) ↔ OrphansNone t op := by
  cases op with
  | create | setCurrent | prune => exact iff_of_true (rooted_apply sound rooted rfl) trivial
  | pruneOldestExcept currentID maxSize =>
    have swept : Rooted (t.apply (.pruneOldestExcept currentID maxSize)) ↔
        Rooted (t.removeNodes (t.evicted currentID maxSize)) := by
      simp only [Rooted, Tree.apply, evict_snapshots]
    rw [swept, rooted_removeNodes_iff sound.listed _ rooted]
    simp only [mem_evicted, OrphansNone]

theorem rooted_prefixes_iff (ops : List Op) :
    (∀ before, before <+: ops → Rooted (newTree.applyAll before)) ↔
      ∀ before op, before ++ [op] <+: ops → OrphansNone (newTree.applyAll before) op :=
  Run.forall_states_iff sound_applyAll rooted_newTree
    (fun _ op sound rooted => rooted_apply_iff sound rooted op) ops

/-- With fewer than `2 ^ 32` creations, every tree of a run passes `Validate` exactly when no
eviction leaves a child of a victim behind. -/
theorem validate_run_iff {ops : List Op} (few : creates ops < 2 ^ 32) :
    (∀ before, before <+: ops → (newTree.applyAll before).validate = .ok ()) ↔
      ∀ before op, before ++ [op] <+: ops → OrphansNone (newTree.applyAll before) op := by
  rw [← rooted_prefixes_iff]
  apply forall_congr'
  intro before
  apply imp_congr_right
  intro inside
  have short := length_history_le (lt_of_le_of_lt inside.sublist.countP_le few)
  have sound := sound_applyAll before
  rw [sound.validate_iff]
  exact and_iff_left (sound.logged.deepens short)

/-- The oldest node is the parent of the youngest: evicting it down to two
nodes leaves an orphan. -/
theorem validate_fails_after_eviction :
    (newTree.applyAll
      [.create 0 0 0 0 0 0 0, .create 1 0 0 0 0 0 0, .pruneOldestExcept 0 2]).validate =
      .error "tree validate: snapshot 2 has missing parent 1" := by
  decide

theorem orphansNone_sibling_evicted :
    creates [.create 0 0 0 0 0 0 0, .create 0 0 0 0 0 0 0, .pruneOldestExcept 2 2] < 2 ^ 32 ∧
      OrphansNone (newTree.applyAll [.create 0 0 0 0 0 0 0, .create 0 0 0 0 0 0 0])
        (.pruneOldestExcept 2 2) := by
  refine ⟨by decide, (validate_run_iff (by decide)).mp ?_ _ _ (prefix_refl _)⟩
  have checked : ∀ before ∈
      [Op.create 0 0 0 0 0 0 0, .create 0 0 0 0 0 0 0, .pruneOldestExcept 2 2].inits,
      (newTree.applyAll before).validate = .ok () := by
    decide
  intro before inside
  exact checked before ((mem_inits _ _).mpr inside)

end OpenThesis.SnapshotTree
