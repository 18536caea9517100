import Mathlib.Data.Set.Basic
import OpenThesis.Run.Core

/-!
# Threads that act on one cell at a time

A thread is a sequence of actions on single cells.
-/

namespace OpenThesis.Threads

open List Function

universe u v

abbrev Store {ρ : Type u} (V : ρ → Type v) :=
  (cell : ρ) → V cell

/-- Reads and writes of cells, one after the other. -/
inductive Thread {ρ : Type u} (V : ρ → Type v) where
  | done
  | act (cell : ρ) (effect : V cell → V cell) (next : V cell → Thread V)

variable {ρ : Type u} {V : ρ → Type v}

namespace Thread

def read (cell : ρ) (next : V cell → Thread V) : Thread V :=
  act cell id next

def write (cell : ρ) (effect : V cell → V cell) (next : Thread V) : Thread V :=
  act cell effect fun _ => next

def writeEach {α : Type*} (cell : ρ) (effect : α → V cell → V cell) (items : List α)
    (next : Thread V) : Thread V :=
  items.foldr (fun item rest => write cell (effect item) rest) next

def isDone : Thread V → Bool
  | done => true
  | act .. => false

/-- All that a thread reads lies in one set of cells, all that it changes in another. -/
inductive Within (reads writes : Set ρ) : Thread V → Prop where
  | done : Within reads writes done
  | read {cell : ρ} {next : V cell → Thread V} (isRead : cell ∈ reads)
      (rest : ∀ value, Within reads writes (next value)) : Within reads writes (act cell id next)
  | act {cell : ρ} {effect : V cell → V cell} {next : V cell → Thread V}
      (isWritten : cell ∈ writes) (rest : ∀ value, Within reads writes (next value)) :
      Within reads writes (act cell effect next)

variable {cell : ρ}

theorem Within.write {reads writes : Set ρ} {effect : V cell → V cell} {next : Thread V}
    (isWritten : cell ∈ writes) (rest : next.Within reads writes) :
    (write cell effect next).Within reads writes :=
  .act isWritten fun _ => rest

theorem Within.writeEach {α : Type*} {reads writes : Set ρ} {effect : α → V cell → V cell}
    {items : List α} {next : Thread V} (isWritten : cell ∈ writes)
    (rest : next.Within reads writes) : (writeEach cell effect items next).Within reads writes := by
  induction items with
  | nil => exact rest
  | cons item items ih => exact .write isWritten ih

variable [DecidableEq ρ]

def run : Thread V → Store V → Store V
  | done, s => s
  | act cell effect next, s =>
    (next (s cell)).run (update s cell (effect (s cell)))

@[simp]
theorem run_done (s : Store V) : (done : Thread V).run s = s :=
  rfl

@[simp]
theorem run_act (cell : ρ) (effect : V cell → V cell) (next : V cell → Thread V) (s : Store V) :
    (act cell effect next).run s = (next (s cell)).run (update s cell (effect (s cell))) :=
  rfl

@[simp]
theorem run_read (cell : ρ) (next : V cell → Thread V) (s : Store V) :
    (read cell next).run s = (next (s cell)).run s := by
  rw [read, run_act, id_eq, update_eq_self]

@[simp]
theorem run_write (cell : ρ) (effect : V cell → V cell) (next : Thread V) (s : Store V) :
    (write cell effect next).run s = next.run (update s cell (effect (s cell))) :=
  rfl

@[simp]
theorem run_writeEach {α : Type*} (cell : ρ) (effect : α → V cell → V cell) (items : List α)
    (next : Thread V) (s : Store V) : (writeEach cell effect items next).run s =
      next.run (update s cell
        (items.foldl (fun value item => effect item value) (s cell))) := by
  induction items generalizing s with
  | nil =>
    rw [foldl_nil, update_eq_self]
    rfl
  | cons item items ih =>
    change (writeEach cell effect items next).run (update s cell _) = _
    rw [ih, update_self, update_idem, foldl_cons]

variable {reads writes : Set ρ} {thread : Thread V}

theorem Within.run_apply (within : thread.Within reads writes) (untouched : cell ∉ writes)
    (s : Store V) : thread.run s cell = s cell := by
  induction within generalizing s with
  | done => rfl
  | read isRead rest ih => rw [← Thread.read, run_read, ih]
  | @act other effect next isWritten rest ih =>
    have apart : cell ≠ other := fun same => untouched (same ▸ isWritten)
    rw [run_act, ih, update_of_ne apart]

theorem Within.run_update (within : thread.Within reads writes) (unread : cell ∉ reads)
    (untouched : cell ∉ writes) (value : V cell) (s : Store V) :
    thread.run (update s cell value) = update (thread.run s) cell value := by
  induction within generalizing s with
  | done => rfl
  | @read other next isRead rest ih =>
    have apart : other ≠ cell := fun same => unread (same ▸ isRead)
    rw [← Thread.read, run_read, run_read, ih, update_of_ne apart]
  | @act other effect next isWritten rest ih =>
    have apart : other ≠ cell := fun same => untouched (same ▸ isWritten)
    rw [run_act, run_act, update_of_ne apart, update_comm apart.symm, ih]

def step : Thread V → Store V → Thread V × Store V
  | done, s => (done, s)
  | act cell effect next, s => (next (s cell), update s cell (effect (s cell)))

theorem run_step (thread : Thread V) (s : Store V) :
    (thread.step s).1.run (thread.step s).2 = thread.run s := by
  cases thread with
  | done | act cell effect next => rfl

theorem Within.step (within : thread.Within reads writes) (s : Store V) :
    (thread.step s).1.Within reads writes := by
  cases within with
  | done => exact .done
  | read isRead rest | act isWritten rest => exact rest _

end Thread

/-- A thread with the cells that it may use. -/
structure Task {ρ : Type u} (V : ρ → Type v) where
  reads : Set ρ
  writes : Set ρ
  thread : Thread V
  within : thread.Within reads writes

/-- Neither of two tasks writes what the other reads or writes. -/
def Task.Independent (first second : Task V) : Prop :=
  (∀ cell ∈ first.writes, cell ∉ second.reads ∧ cell ∉ second.writes) ∧
    ∀ cell ∈ second.writes, cell ∉ first.reads ∧ cell ∉ first.writes

/-- Tasks on one store. -/
structure Pool {ρ : Type u} (V : ρ → Type v) where
  store : Store V
  tasks : List (Task V)

variable [DecidableEq ρ]

def Task.step (task : Task V) (s : Store V) : Task V :=
  { task with
    thread := (task.thread.step s).1
    within := task.within.step s }

def runAll (tasks : List (Task V)) (s : Store V) : Store V :=
  tasks.foldl (fun s task => task.thread.run s) s

namespace Pool

def advance (pool : Pool V) (position : Nat) : Pool V :=
  match pool.tasks[position]? with
  | none => pool
  | some task =>
    { store := (task.thread.step pool.store).2
      tasks := pool.tasks.set position (task.step pool.store) }

def exec (pool : Pool V) (schedule : List Nat) : Pool V :=
  schedule.foldl advance pool

def Finished (pool : Pool V) : Prop :=
  ∀ task ∈ pool.tasks, task.thread.isDone = true

instance (pool : Pool V) : Decidable pool.Finished :=
  inferInstanceAs (Decidable (∀ task ∈ pool.tasks, task.thread.isDone = true))

/-- Every task before a position is done, or independent of the task there. -/
def InTurn (pool : Pool V) (position : Nat) : Prop :=
  ∀ task ∈ pool.tasks[position]?, ∀ earlier ∈ pool.tasks.take position,
    earlier.thread.isDone = true ∨ earlier.Independent task

end Pool

theorem Task.Independent.run_step {earlier task : Task V} (independent : earlier.Independent task)
    (s : Store V) : (task.thread.step (earlier.thread.run s)).1 = (task.thread.step s).1 ∧
      (task.thread.step (earlier.thread.run s)).2 = earlier.thread.run (task.thread.step s).2 := by
  obtain ⟨reads, writes, thread, within⟩ := task
  cases within with
  | done => exact ⟨rfl, rfl⟩
  | @read cell next isRead rest =>
    have kept : earlier.thread.run s cell = s cell :=
      earlier.within.run_apply (fun written => (independent.1 cell written).1 isRead) s
    simp only [Thread.step, id_eq, update_eq_self, kept, true_and]
    rw [← kept, update_eq_self]
  | @act cell effect next isWritten rest =>
    obtain ⟨unread, untouched⟩ := independent.2 cell isWritten
    have kept : earlier.thread.run s cell = s cell := earlier.within.run_apply untouched s
    simp only [Thread.step, kept, true_and]
    exact (earlier.within.run_update unread untouched _ s).symm

theorem run_eq_of_isDone {thread : Thread V} (isDone : thread.isDone = true) (s : Store V) :
    thread.run s = s := by
  cases thread with
  | done => rfl
  | act cell effect next => cases isDone

theorem runAll_step {tasks : List (Task V)} {task : Task V}
    (apart : ∀ earlier ∈ tasks, earlier.thread.isDone = true ∨ earlier.Independent task)
    (s : Store V) : (task.thread.step (runAll tasks s)).1 = (task.thread.step s).1 ∧
      (task.thread.step (runAll tasks s)).2 = runAll tasks (task.thread.step s).2 := by
  induction tasks generalizing s with
  | nil => exact ⟨rfl, rfl⟩
  | cons earlier tasks ih =>
    have rest := ih fun other inside => apart other (mem_cons_of_mem _ inside)
    simp only [runAll, foldl_cons] at rest ⊢
    rcases apart earlier mem_cons_self with isDone | independent
    · rw [run_eq_of_isDone isDone, run_eq_of_isDone isDone]
      exact rest s
    · obtain ⟨left, store⟩ := independent.run_step s
      rw [(rest _).1, (rest _).2, left, store]
      exact ⟨rfl, rfl⟩

namespace Pool

theorem runAll_advance {pool : Pool V} {position : Nat} (inTurn : pool.InTurn position) :
    runAll (pool.advance position).tasks (pool.advance position).store =
      runAll pool.tasks pool.store := by
  cases found : pool.tasks[position]? with
  | none => rw [advance, found]
  | some task =>
    obtain ⟨inside, isTask⟩ := List.getElem?_eq_some_iff.mp found
    obtain ⟨before, after, split, length, set⟩ : ∃ before after,
        pool.tasks = before ++ task :: after ∧ before.length = position ∧
          pool.tasks.set position (task.step pool.store) =
            before ++ task.step pool.store :: after := by
      simpa only [isTask] using exists_of_set inside
    have apart : ∀ earlier ∈ before, earlier.thread.isDone = true ∨ earlier.Independent task := by
      intro earlier isBefore
      refine inTurn task found earlier ?_
      rw [split, ← length, take_left]
      exact isBefore
    obtain ⟨left, store⟩ := runAll_step apart pool.store
    have taken : (task.step pool.store).thread.run
        (runAll before (task.thread.step pool.store).2) =
          task.thread.run (runAll before pool.store) := by
      change (task.thread.step pool.store).1.run _ = _
      rw [← store, ← left, Thread.run_step]
    rw [advance, found]
    dsimp only
    rw [set, split]
    simp only [runAll, foldl_append, foldl_cons] at taken ⊢
    rw [taken]

theorem runAll_of_finished {pool : Pool V} (finished : pool.Finished) :
    runAll pool.tasks pool.store = pool.store := by
  obtain ⟨store, tasks⟩ := pool
  induction tasks with
  | nil => rfl
  | cons task tasks ih =>
    have first := run_eq_of_isDone (finished task mem_cons_self) store
    rw [runAll, foldl_cons, first]
    exact ih fun other inside => finished other (mem_cons_of_mem _ inside)

/-- A schedule whose actions are all in turn ends, once every task is done, as if the
tasks had run one after another. -/
theorem exec_eq_runAll {pool : Pool V} {schedule : List Nat}
    (inTurn : ∀ before position, before ++ [position] <+: schedule →
      (pool.exec before).InTurn position) (finished : (pool.exec schedule).Finished) :
    (pool.exec schedule).store = runAll pool.tasks pool.store := by
  have kept : runAll (pool.exec schedule).tasks (pool.exec schedule).store =
      runAll pool.tasks pool.store := by
    refine Run.holds_of_conditions (motive := fun schedule =>
      runAll (pool.exec schedule).tasks (pool.exec schedule).store = runAll pool.tasks pool.store)
      rfl (fun before position earlier now => ?_) inTurn
    rw [exec, foldl_concat]
    exact (runAll_advance now).trans earlier
  rw [← kept, runAll_of_finished finished]

end Pool

end OpenThesis.Threads
