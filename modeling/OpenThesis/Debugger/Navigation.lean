import OpenThesis.Keyed.Core
import OpenThesis.Run.Core
import OpenThesis.SnapshotTree.Core

/-!
# Navigation in the snapshot tree

The debugger (`internal/debugger/debugger.go`, `timetravel.go`) moves between snapshots. The tree
and the answers of the hypervisor are arbitrary.
-/

namespace OpenThesis

open SnapshotTree Keyed

/-- The debugger. -/
structure Debugger where
  tree : SnapshotTree.Tree
  vm : Bool
  current : ID

namespace Debugger

def errNoSnapshot : String := "debugger: no snapshot at this point"

def errVMNotRunning : String := "debugger: vm not running"

/-- What the hypervisor answers. -/
structure Answers where
  restore : Except String Unit
  setSeed : Except String Unit
  snapshot : Except String ID

structure Move where
  debugger : Debugger
  restored : Option ID
  result : Except String Unit

section

variable (answers : Answers) (d : Debugger)

def restoreAt (label : String) (id : ID) : Move :=
  match answers.restore with
  | .error e => ⟨d, some id, .error s!"{label} restore: {e}"⟩
  | .ok () =>
    match d.tree.setCurrent id with
    | .error e => ⟨{ d with current := id }, some id, .error s!"{label} set current: {e}"⟩
    | .ok tree => ⟨{ d with tree, current := id }, some id, .ok ()⟩

def rewind (snapID : ID) : Move :=
  if d.vm then
    match d.tree.get snapID with
    | .error _ => ⟨d, none, .error s!"rewind: {errNoSnapshot}"⟩
    | .ok _ => d.restoreAt answers "rewind" snapID
  else ⟨d, none, .error errVMNotRunning⟩

def forward (targetID : ID) : Move :=
  if d.vm then
    match d.tree.get targetID with
    | .error _ => ⟨d, none, .error s!"forward: {errNoSnapshot}"⟩
    | .ok target =>
      if target.depth ≤ d.tree.depth d.current then
        ⟨d, none, .error s!"forward: target {targetID} is not ahead of current {d.current}"⟩
      else d.restoreAt answers "forward" targetID
  else ⟨d, none, .error errVMNotRunning⟩

def stepBack : Move :=
  if d.vm then
    if d.current = rootID then ⟨d, none, .error s!"step back: {errNoSnapshot}"⟩
    else
      match d.tree.get d.current with
      | .error e => ⟨d, none, .error s!"step back get current: {e}"⟩
      | .ok cur => d.rewind answers cur.parentID
  else ⟨d, none, .error errVMNotRunning⟩

def children (id : ID) : Except String (List ID) :=
  match d.tree.snapshots[id]? with
  | none => .error s!"tree children {id}: {errNotFound}"
  | some snap => .ok snap.children

def stepForward : Move :=
  if d.vm then
    match d.children d.current with
    | .error e => ⟨d, none, .error s!"step forward children: {e}"⟩
    | .ok [] => ⟨d, none, .error s!"step forward: {errNoSnapshot}"⟩
    | .ok (child :: _) => d.forward answers child
  else ⟨d, none, .error errVMNotRunning⟩

def jumpTo (id : ID) : Move :=
  if d.vm then
    match d.tree.get id with
    | .error _ => ⟨d, none, .error s!"jump to: {errNoSnapshot}"⟩
    | .ok _ =>
      if d.tree.depth id < d.tree.depth d.current then d.rewind answers id
      else if d.tree.depth d.current < d.tree.depth id then d.forward answers id
      else d.rewind answers id
  else ⟨d, none, .error errVMNotRunning⟩

def branch (newSeed : UInt64) : Debugger × Except String ID :=
  if d.vm then
    match d.tree.get d.current with
    | .error e => (d, .error s!"branch get current: {e}")
    | .ok cur =>
      match d.tree.create d.current 0 cur.timeNS cur.coverage newSeed 0 0 with
      | .error e => (d, .error s!"branch create snapshot: {e}")
      | .ok (newID, tree) =>
        let d := { d with tree }
        match answers.setSeed with
        | .error e => (d, .error s!"branch set seed: {e}")
        | .ok () =>
          match answers.snapshot with
          | .error e => (d, .error s!"branch take snapshot: {e}")
          | .ok _ => (d, .ok newID)
  else (d, .error errVMNotRunning)

end

inductive Command where
  | branch (newSeed : UInt64)
  | rewind (snapID : ID)
  | forward (targetID : ID)
  | stepBack
  | stepForward
  | jumpTo (id : ID)
  deriving DecidableEq, Repr

structure Action where
  command : Command
  answers : Answers

structure Session where
  debugger : Debugger
  taken : ID → Option ID

def Command.move (answers : Answers) (d : Debugger) : Command → Option Move
  | branch _ => none
  | rewind snapID => some (d.rewind answers snapID)
  | forward targetID => some (d.forward answers targetID)
  | stepBack => some (d.stepBack answers)
  | stepForward => some (d.stepForward answers)
  | jumpTo id => some (d.jumpTo answers id)

namespace Session

def snapshotOf (s : Session) (id : ID) : Option ID :=
  (s.taken id).or ((s.debugger.tree.snapshots[id]?).map Snapshot.hypervisorID)

/-- The debugger after a command, and the snapshots that branches took. -/
def step (s : Session) (action : Action) : Session :=
  match action.command with
  | .branch newSeed =>
    let branched := s.debugger.branch action.answers newSeed
    { debugger := branched.1
      taken := match branched.2, action.answers.snapshot with
        | .ok newID, .ok snapID => Function.update s.taken newID (some snapID)
        | _, _ => s.taken }
  | command =>
    match command.move action.answers s.debugger with
    | some move => { s with debugger := move.debugger }
    | none => s

end Session

def rewindTarget (d : Debugger) (id : ID) : Option ID :=
  if d.vm ∧ id ∈ d.tree.snapshots then some id else none

def forwardTarget (d : Debugger) (id : ID) : Option ID :=
  if d.vm ∧ id ∈ d.tree.snapshots ∧ d.tree.depth d.current < d.tree.depth id then some id else none

def Command.target (d : Debugger) : Command → Option ID
  | branch _ => none
  | rewind snapID => d.rewindTarget snapID
  | forward targetID => d.forwardTarget targetID
  | stepBack =>
    if d.current = rootID then none
    else (d.tree.snapshots[d.current]?).bind fun cur => d.rewindTarget cur.parentID
  | stepForward =>
    (d.tree.snapshots[d.current]?).bind fun cur => cur.children.head?.bind d.forwardTarget
  | jumpTo id => d.rewindTarget id

/-- The move succeeds exactly if it has a target and the hypervisor restores the identifier of the
target in the tree. -/
def Move.Goes (answers : Answers) (target : Option ID) (move : Move) : Prop :=
  match target, answers.restore with
  | some id, .ok () =>
    move.result = .ok () ∧ move.restored = some id ∧ move.debugger.current = id
  | _, _ => ∃ e, move.result = .error e

section

variable {answers : Answers} {d : Debugger} {id : ID}

theorem Move.goes_none (move : Move) {e : String} (failed : move.result = .error e) :
    move.Goes answers none :=
  ⟨e, failed⟩

theorem restoreAt_goes (label : String) (live : id ∈ d.tree.snapshots) :
    (d.restoreAt answers label id).Goes answers (some id) := by
  unfold restoreAt Move.Goes
  cases answers.restore with
  | error e => exact ⟨_, rfl⟩
  | ok done =>
    simp [SnapshotTree.Tree.setCurrent, live]

theorem get_cases (t : SnapshotTree.Tree) (id : ID) :
    (id ∈ t.snapshots ∧ ∃ snap, t.get id = .ok snap ∧ t.snapshots[id]? = some snap) ∨
      (id ∉ t.snapshots ∧ (∃ e, t.get id = .error e) ∧ t.snapshots[id]? = none) := by
  unfold SnapshotTree.Tree.get
  cases found : t.snapshots[id]? with
  | none => exact .inr ⟨not_mem_iff_lookup.mpr found, ⟨_, rfl⟩, rfl⟩
  | some snap => exact .inl ⟨mem_iff_lookup.mpr ⟨snap, found⟩, snap, rfl, rfl⟩

theorem rewind_goes : (d.rewind answers id).Goes answers (d.rewindTarget id) := by
  unfold rewind rewindTarget
  by_cases vm : d.vm = true
  · rcases get_cases d.tree id with ⟨live, snap, found, -⟩ | ⟨missing, ⟨e, failed⟩, -⟩
    · simp only [vm, live, found, and_self, if_true]
      exact restoreAt_goes "rewind" live
    · simp only [vm, missing, failed, and_false, if_true, if_false]
      exact Move.goes_none _ rfl
  · rw [if_neg vm, if_neg fun running => vm running.1]
    exact Move.goes_none _ rfl

theorem forward_goes : (d.forward answers id).Goes answers (d.forwardTarget id) := by
  unfold forward forwardTarget
  by_cases vm : d.vm = true
  · rcases get_cases d.tree id with ⟨live, snap, found, lookup⟩ | ⟨missing, ⟨e, failed⟩, -⟩
    · have depth : d.tree.depth id = snap.depth := by simp only [SnapshotTree.Tree.depth, lookup]
      simp only [vm, live, found, depth, true_and, if_true]
      by_cases ahead : d.tree.depth d.current < snap.depth
      · rw [if_pos ahead, if_neg (UInt32.not_le.mpr ahead)]
        exact restoreAt_goes "forward" live
      · rw [if_neg ahead, if_pos (UInt32.not_lt.mp ahead)]
        exact Move.goes_none _ rfl
    · simp only [vm, missing, failed, false_and, and_false, if_true, if_false]
      exact Move.goes_none _ rfl
  · rw [if_neg vm, if_neg fun running => vm running.1]
    exact Move.goes_none _ rfl

theorem goes_of_not_vm (vm : ¬ d.vm = true) (command : Command) {move : Move} {e : String}
    (failed : move.result = .error e) : move.Goes answers (command.target d) := by
  have none : command.target d = none := by
    cases command <;> simp [Command.target, rewindTarget, forwardTarget, vm]
  rw [none]
  exact move.goes_none failed

theorem stepBack_goes : (d.stepBack answers).Goes answers (Command.target d .stepBack) := by
  by_cases vm : d.vm = true
  · rw [stepBack, if_pos vm, Command.target]
    split_ifs with root
    · exact Move.goes_none _ rfl
    · rcases get_cases d.tree d.current with ⟨-, cur, found, lookup⟩ | ⟨-, ⟨e, failed⟩, lookup⟩
      · simp only [found, lookup, Option.bind_some]
        exact rewind_goes
      · simp only [failed, lookup, Option.bind_none]
        exact Move.goes_none _ rfl
  · rw [stepBack, if_neg vm]
    exact goes_of_not_vm vm .stepBack rfl

theorem stepForward_goes :
    (d.stepForward answers).Goes answers (Command.target d .stepForward) := by
  by_cases vm : d.vm = true
  · rw [stepForward, if_pos vm, Command.target, children]
    cases d.tree.snapshots[d.current]? with
    | none => exact Move.goes_none _ rfl
    | some cur =>
      cases listed : cur.children with
      | nil =>
        simp only [listed, Option.bind_some, List.head?_nil, Option.bind_none]
        exact Move.goes_none _ rfl
      | cons child others =>
        simp only [listed, Option.bind_some, List.head?_cons]
        exact forward_goes
  · rw [stepForward, if_neg vm]
    exact goes_of_not_vm vm .stepForward rfl

theorem jumpTo_goes : (d.jumpTo answers id).Goes answers (Command.target d (.jumpTo id)) := by
  by_cases vm : d.vm = true
  · rw [jumpTo, if_pos vm]
    rcases get_cases d.tree id with ⟨live, snap, found, -⟩ | ⟨missing, ⟨e, failed⟩, -⟩
    · simp only [found, Command.target]
      split_ifs with behind ahead
      · exact rewind_goes
      · have same : d.rewindTarget id = d.forwardTarget id := by
          simp [rewindTarget, forwardTarget, ahead]
        rw [same]
        exact forward_goes
      · exact rewind_goes
    · simp only [failed, Command.target, rewindTarget, missing, and_false, if_false]
      exact Move.goes_none _ rfl
  · rw [jumpTo, if_neg vm]
    exact goes_of_not_vm vm (.jumpTo id) rfl

theorem Command.move_goes {command : Command} {move : Move}
    (moved : command.move answers d = some move) : move.Goes answers (command.target d) := by
  cases command with
  | branch newSeed => contradiction
  | rewind snapID =>
    cases moved
    exact rewind_goes
  | forward targetID =>
    cases moved
    exact forward_goes
  | stepBack =>
    cases moved
    exact stepBack_goes
  | stepForward =>
    cases moved
    exact stepForward_goes
  | jumpTo id =>
    cases moved
    exact jumpTo_goes

end

/-- A move that succeeds restores the snapshot of the node it ends at, and a branch that fails
leaves the tree. -/
def Session.Right (s : Session) (action : Action) : Prop :=
  match action.command with
  | .branch newSeed =>
    ∀ e, (s.debugger.branch action.answers newSeed).2 = .error e →
      (s.debugger.branch action.answers newSeed).1.tree = s.debugger.tree
  | command => ∀ move, command.move action.answers s.debugger = some move →
      move.result = .ok () → move.restored = s.snapshotOf move.debugger.current

/-- A move goes to a node whose two identifiers are the same, and the hypervisor's part of a branch
does not fail. -/
def Session.Matches (s : Session) (action : Action) : Prop :=
  match action.command with
  | .branch _ => s.debugger.vm = true → s.debugger.current ∈ s.debugger.tree.snapshots →
      (∃ done, action.answers.setSeed = .ok done) ∧ ∃ snapID, action.answers.snapshot = .ok snapID
  | command => ∀ id, command.target s.debugger = some id → action.answers.restore = .ok () →
      s.snapshotOf id = some id

section

variable (s : Session) (answers : Answers)

theorem branch_right_iff (newSeed : UInt64) :
    s.Right ⟨.branch newSeed, answers⟩ ↔ s.Matches ⟨.branch newSeed, answers⟩ := by
  simp only [Session.Right, Session.Matches, branch]
  by_cases vm : s.debugger.vm = true
  · rcases get_cases s.debugger.tree s.debugger.current with
      ⟨live, cur, found, lookup⟩ | ⟨missing, ⟨e, failed⟩, -⟩
    · have grown : ∀ tree : SnapshotTree.Tree, s.debugger.tree.nextID + 1 = tree.nextID →
          tree ≠ s.debugger.tree := by
        rintro tree next rfl
        exact Nat.succ_ne_self _ next
      simp only [vm, found, live, SnapshotTree.Tree.create, lookup, if_true, forall_const]
      cases answers.setSeed with
      | error e => simp [grown]
      | ok done =>
        cases answers.snapshot with
        | error e => simp [grown]
        | ok snapID => simp
    · simp [vm, failed, missing]
  · simp [vm]

theorem move_right_iff {command : Command} (moves : ∀ newSeed, command ≠ .branch newSeed) :
    s.Right ⟨command, answers⟩ ↔ s.Matches ⟨command, answers⟩ := by
  obtain ⟨move, moved⟩ : ∃ move, command.move answers s.debugger = some move := by
    cases command with
    | branch newSeed => exact absurd rfl (moves newSeed)
    | _ => exact ⟨_, rfl⟩
  have goes := Command.move_goes moved
  have right : s.Right ⟨command, answers⟩ ↔
      (move.result = .ok () → move.restored = s.snapshotOf move.debugger.current) := by
    cases command with
    | branch newSeed => exact absurd rfl (moves newSeed)
    | _ => simp [Session.Right, moved]
  have holds : s.Matches ⟨command, answers⟩ ↔
      ∀ id, command.target s.debugger = some id → answers.restore = .ok () →
        s.snapshotOf id = some id := by
    cases command with
    | branch newSeed => exact absurd rfl (moves newSeed)
    | _ => rfl
  rw [right, holds]
  unfold Move.Goes at goes
  cases target : command.target s.debugger with
  | none =>
    rw [target] at goes
    obtain ⟨e, failed⟩ := goes
    simp [failed]
  | some id =>
    rw [target] at goes
    cases restore : answers.restore with
    | error e =>
      rw [restore] at goes
      obtain ⟨e, failed⟩ := goes
      simp [failed]
    | ok done =>
      rw [restore] at goes
      obtain ⟨ended, restored, current⟩ := goes
      simp [ended, restored, current, eq_comm]

theorem right_iff_matches (action : Action) : s.Right action ↔ s.Matches action := by
  obtain ⟨command, answers⟩ := action
  cases command with
  | branch newSeed => exact branch_right_iff s answers newSeed
  | _ => exact move_right_iff s answers (by simp)

end

def Session.start (d : Debugger) : Session :=
  ⟨d, fun _ => none⟩

/-- Every command of a sequence does what it has to do exactly if every move goes to a node with the
identifier of its hypervisor snapshot, and the hypervisor carries out its part of every branch. -/
theorem session_right_iff (d : Debugger) (actions : List Action) :
    (∀ before action, before ++ [action] <+: actions →
        (before.foldl Session.step (Session.start d)).Right action) ↔
      ∀ before action, before ++ [action] <+: actions →
        (before.foldl Session.step (Session.start d)).Matches action :=
  Run.forall_actions_iff fun _ action _ _ => right_iff_matches _ action

def rewindExample : Debugger where
  tree := match newTree.create rootID 7 0 0 0 0 0 with
    | .ok (_, tree) => tree
    | .error _ => newTree
  vm := true
  current := rootID

/-- The rewind to the node asks the hypervisor for snapshot 1, and a branch whose snapshot fails
has added a node. -/
theorem navigation_restores_tree_identifier :
    (Session.start rewindExample).snapshotOf 1 = some 7 ∧
      (let move := rewindExample.rewind ⟨.ok (), .ok (), .ok 8⟩ 1
       move.result = .ok () ∧ move.debugger.current = 1 ∧ move.restored = some 1) ∧
      (let branched := rewindExample.branch ⟨.ok (), .ok (), .error "disk full"⟩ 5
       branched.2 = .error "branch take snapshot: disk full" ∧
         branched.1.tree.nextID = rewindExample.tree.nextID + 1) := by
  decide +kernel

end Debugger

end OpenThesis
