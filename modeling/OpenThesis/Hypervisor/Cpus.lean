import Mathlib.Data.List.FinRange
import OpenThesis.Run.Core

/-!
# Isolated CPUs

Each VM is pinned to an isolated CPU (`internal/hypervisor/firecracker_cpu.go`). The pool and the
table of the VMs are locked for single accesses. The process noted for a CPU is not in the program.
-/

namespace OpenThesis.Hypervisor

open Function

/-- The CPUs, and which are free. -/
structure CPUPool where
  cpus : List Nat
  nodup : cpus.Nodup
  free : Fin cpus.length → Bool
  idx : Nat := 0

namespace CPUPool

def full (cpus : List Nat) (nodup : cpus.Nodup) : CPUPool :=
  { cpus, nodup, free := fun _ => true }

def slot (pool : CPUPool) (inhabited : 0 < pool.cpus.length) (i : Nat) : Fin pool.cpus.length :=
  ⟨(pool.idx + i) % pool.cpus.length, Nat.mod_lt _ inhabited⟩

/-- The first free CPU from the cursor on. -/
def next (pool : CPUPool) : Option (Nat × CPUPool) :=
  if inhabited : 0 < pool.cpus.length then
    match (List.range pool.cpus.length).find? fun i => pool.free (pool.slot inhabited i) with
    | some i =>
      let slot := pool.slot inhabited i
      some (pool.cpus.get slot,
        { pool with
          free := update pool.free slot false
          idx := (slot + 1) % pool.cpus.length })
    | none => none
  else
    none

def release (pool : CPUPool) (cpu : Nat) : CPUPool :=
  match (List.finRange pool.cpus.length).find? fun i => pool.cpus.get i = cpu with
  | some i => { pool with free := update pool.free i true }
  | none => pool

def IsFree (pool : CPUPool) (cpu : Nat) : Prop :=
  ∃ i, pool.cpus.get i = cpu ∧ pool.free i = true

instance (pool : CPUPool) (cpu : Nat) : Decidable (pool.IsFree cpu) := by
  unfold IsFree
  infer_instance

theorem next_spec {pool pool' : CPUPool} {cpu : Nat} (taken : pool.next = some (cpu, pool')) :
    pool.IsFree cpu ∧ ¬pool'.IsFree cpu ∧ ∀ other, pool'.IsFree other → pool.IsFree other := by
  rw [next] at taken
  split_ifs at taken with inhabited
  cases found : (List.range pool.cpus.length).find? fun i => pool.free (pool.slot inhabited i) with
  | none => simp [found] at taken
  | some i =>
    rw [found] at taken
    cases taken
    have isFree : pool.free (pool.slot inhabited i) = true := by
      simpa using List.find?_some found
    refine ⟨⟨_, rfl, isFree⟩, ?_, ?_⟩
    · rintro ⟨j, same, free⟩
      obtain rfl := pool.nodup.get_inj_iff.mp same
      dsimp only at free
      rw [update_self] at free
      cases free
    · rintro other ⟨j, same, free⟩
      refine ⟨j, same, ?_⟩
      dsimp only at free
      rw [update_apply] at free
      split_ifs at free
      exact free

theorem isFree_release {pool : CPUPool} {cpu other : Nat}
    (free : (pool.release cpu).IsFree other) : pool.IsFree other ∨ other = cpu := by
  rw [release] at free
  cases found : (List.finRange pool.cpus.length).find? fun i => pool.cpus.get i = cpu with
  | none =>
    rw [found] at free
    exact Or.inl free
  | some i =>
    rw [found] at free
    obtain ⟨j, same, free⟩ := free
    dsimp only at same free
    rw [update_apply] at free
    split_ifs at free with here
    · have isCPU : pool.cpus.get i = cpu := by
        simpa using List.find?_some found
      rw [← here] at isCPU
      exact Or.inr (same.symm.trans isCPU)
    · exact Or.inl ⟨j, same, free⟩

end CPUPool

structure FcVM where
  process : Nat
  pinnedCPU : Option Nat
  deriving DecidableEq

inductive CallKind
  | start
  | startFromSnapshot
  | restore
  | stop
  deriving DecidableEq

structure Call where
  kind : CallKind
  name : String
  deriving DecidableEq

inductive Progress
  | begun
  | found (fcv : FcVM)
  | killed (fcv : FcVM)
  | waited (fcv : FcVM)
  /-- Nothing is in the way of a new process, or of the removal of the record. -/
  | cleared
  | launched (process : Nat)
  | taken (process : Nat) (cpu : Option Nat)
  | pinned (process : Nat) (cpu : Option Nat)
  | returned (success : Bool)
  deriving DecidableEq

inductive Outcome
  | done
  | failed
  | timedOut
  | inPlace
  deriving DecidableEq

/-- Processes and the CPUs they are pinned to. -/
structure Host where
  pool : CPUPool
  vms : String → Option FcVM
  fresh : Nat
  exited : Nat → Bool
  owner : Nat → Option Nat

namespace Host

def start (pool : CPUPool) : Host :=
  ⟨pool, fun _ => none, 0, fun _ => false, fun _ => none⟩

def giveBack (h : Host) : Option Nat → Host
  | some cpu =>
    { h with pool := h.pool.release cpu, owner := update h.owner cpu none }
  | none => h

/-- One step of a call. `Start` takes the CPU before the steps that may fail, the others after
them. -/
def advance (h : Host) (call : Call) : Progress → Outcome → Host × Progress
  | .begun, .done =>
    match call.kind with
    | .start => (h, if (h.vms call.name).isSome then .returned false else .cleared)
    | .startFromSnapshot => (h, .cleared)
    | .restore | .stop =>
      (h, match h.vms call.name with
        | some fcv => .found fcv
        | none => .returned false)
  -- the snapshot is not known
  | .found fcv, .failed => (h, if call.kind = .restore then .returned false else .found fcv)
  | .found fcv, .inPlace => (h, if call.kind = .restore then .returned true else .found fcv)
  | .found fcv, .done => (h, .killed fcv)
  | .killed fcv, .done => (h, if h.exited fcv.process then .waited fcv else .killed fcv)
  | .killed fcv, .timedOut => (h, if call.kind = .restore then .waited fcv else .killed fcv)
  | .waited fcv, .done => (h.giveBack fcv.pinnedCPU, .cleared)
  | .cleared, .failed => (h, if call.kind = .stop then .cleared else .returned false)
  | .cleared, .done =>
    if call.kind = .stop then
      ({ h with vms := update h.vms call.name none }, .returned true)
    else
      ({ h with fresh := h.fresh + 1 }, .launched h.fresh)
  | .launched p, .failed => (h, if call.kind = .start then .launched p else .returned false)
  | .launched p, .done =>
    match h.pool.next with
    | some (cpu, pool) =>
      ({ h with pool, owner := update h.owner cpu (some p) }, .taken p (some cpu))
    | none => (h, .taken p none)
  | .taken p cpu, .failed => (h.giveBack cpu, .pinned p none)
  | .taken p cpu, .done => (h, .pinned p cpu)
  -- the CPU is not given back
  | .pinned p cpu, .failed => (h, if call.kind = .start then .returned false else .pinned p cpu)
  | .pinned p cpu, .done =>
    ({ h with vms := update h.vms call.name (some ⟨p, cpu⟩) }, .returned true)
  | progress, _ => (h, progress)

/-- No two VMs that are running are pinned to one CPU, and no CPU of a running VM is free. -/
structure Exclusive (h : Host) : Prop where
  unshared : ∀ a b fcv fcv' cpu, h.vms a = some fcv → h.vms b = some fcv' →
    h.exited fcv.process = false → h.exited fcv'.process = false →
    fcv.pinnedCPU = some cpu → fcv'.pinnedCPU = some cpu → a = b
  reserved : ∀ a fcv cpu, h.vms a = some fcv → h.exited fcv.process = false →
    fcv.pinnedCPU = some cpu → ¬h.pool.IsFree cpu

/-- A call that stops waiting has seen the exit of the process, and no one else has given back the
CPU that it gives back. -/
def Proper (h : Host) : Progress → Outcome → Prop
  | .killed fcv, .timedOut => h.exited fcv.process = true
  | .waited fcv, .done => ∀ cpu ∈ fcv.pinnedCPU, h.owner cpu = some fcv.process
  | _, _ => True

instance (h : Host) (progress : Progress) (outcome : Outcome) :
    Decidable (h.Proper progress outcome) := by
  unfold Proper
  split <;> infer_instance

end Host

/-- Calls in progress on a host. -/
structure System (ι : Type) where
  host : Host
  calls : ι → Progress

inductive SystemEvent (ι : Type)
  | call (i : ι) (outcome : Outcome)
  | exit (process : Nat)

namespace System

variable {ι : Type} [DecidableEq ι] (call : ι → Call)

def start (pool : CPUPool) : System ι :=
  ⟨Host.start pool, fun _ => .begun⟩

/-- One call moves on, or a process exits. -/
def step (s : System ι) : SystemEvent ι → System ι
  | .call i outcome =>
    let (host, progress) := s.host.advance (call i) (s.calls i) outcome
    ⟨host, update s.calls i progress⟩
  | .exit process =>
    { s with host := { s.host with exited := update s.host.exited process true } }

def run (pool : CPUPool) (events : List (SystemEvent ι)) : System ι :=
  events.foldl (step call) (start pool)

def Proper (s : System ι) : SystemEvent ι → Prop
  | .call i outcome => s.host.Proper (s.calls i) outcome
  | .exit _ => True

instance (s : System ι) (event : SystemEvent ι) : Decidable (s.Proper event) := by
  unfold Proper
  split <;> infer_instance

end System

section

variable {ι : Type}

/-- What a call relies on. A process that is not in a record yet belongs to the call that has
launched it. -/
def CallSound (h : Host) (launcher : Nat → Option ι) (i : ι) : Progress → Prop
  | .begun | .cleared | .returned _ => True
  | .found fcv | .killed fcv => fcv.process < h.fresh ∧ launcher fcv.process = none
  | .waited fcv =>
    fcv.process < h.fresh ∧ launcher fcv.process = none ∧ h.exited fcv.process = true
  | .launched p => p < h.fresh ∧ launcher p = some i
  | .taken p cpu | .pinned p cpu =>
    p < h.fresh ∧ launcher p = some i ∧ ∀ c, cpu = some c → h.owner c = some p

structure HostSound (h : Host) (launcher : Nat → Option ι) : Prop where
  owned : ∀ cpu p, h.owner cpu = some p → ¬h.pool.IsFree cpu
  registered : ∀ a fcv, h.vms a = some fcv → fcv.process < h.fresh ∧ launcher fcv.process = none
  pinned : ∀ a fcv, h.vms a = some fcv → h.exited fcv.process = false →
    ∀ cpu, fcv.pinnedCPU = some cpu → h.owner cpu = some fcv.process
  distinct : ∀ a b fcv fcv', h.vms a = some fcv → h.vms b = some fcv' →
    fcv.process = fcv'.process → a = b

theorem HostSound.exclusive {h : Host} {launcher : Nat → Option ι} (sound : HostSound h launcher) :
    h.Exclusive where
  unshared := by
    intro a b fcv fcv' cpu found found' running running' isPinned isPinned'
    have owner := sound.pinned a fcv found running cpu isPinned
    have owner' := sound.pinned b fcv' found' running' cpu isPinned'
    exact sound.distinct a b fcv fcv' found found' (Option.some.inj (owner.symm.trans owner'))
  reserved := by
    intro a fcv cpu found running isPinned
    exact sound.owned cpu fcv.process (sound.pinned a fcv found running cpu isPinned)

/-- What a step of a call leaves to the host, to itself and to the other calls. -/
structure Kept (i : ι) (h' : Host) (progress' : Progress) (h : Host)
    (launcher launcher' : Nat → Option ι) : Prop where
  host : HostSound h' launcher'
  own : CallSound h' launcher' i progress'
  others : ∀ j progress, j ≠ i → CallSound h launcher j progress →
    CallSound h' launcher' j progress

variable {h : Host} {launcher : Nat → Option ι} {i : ι} {progress : Progress}

section

variable (sound : HostSound h launcher)

include sound

theorem Kept.quiet (own : CallSound h launcher i progress) :
    Kept i h progress h launcher launcher :=
  ⟨sound, own, fun _ _ _ => id⟩

theorem kept_giveBack {cpu p : Nat} (owner : h.owner cpu = some p)
    (released : launcher p = none ∧ h.exited p = true ∨ launcher p = some i)
    (own : CallSound (h.giveBack (some cpu)) launcher i progress) :
    Kept i (h.giveBack (some cpu)) progress h launcher launcher where
  host := by
    refine ⟨?_, sound.registered, ?_, sound.distinct⟩
    · intro other q owner' free
      change update h.owner cpu none other = some q at owner'
      rw [update_apply] at owner'
      split_ifs at owner' with same
      rcases CPUPool.isFree_release free with free | here
      · exact sound.owned other q owner' free
      · exact same here
    · intro a fcv found running other isPinned
      have owner' := sound.pinned a fcv found running other isPinned
      refine (update_of_ne ?_ ..).trans owner'
      rintro rfl
      -- the record would be one of the process that gives the CPU back
      cases owner.symm.trans owner'
      rcases released with ⟨-, exited⟩ | inFlight
      · exact absurd (running.symm.trans exited) nofun
      · exact absurd ((sound.registered a fcv found).2.symm.trans inFlight) nofun
  own := own
  others := by
    intro j progress ne holds
    have apart {q c : Nat} (inFlight : launcher q = some j) (owner' : h.owner c = some q) :
        update h.owner cpu none c = some q := by
      refine (update_of_ne ?_ ..).trans owner'
      rintro rfl
      cases owner.symm.trans owner'
      rcases released with ⟨recorded, -⟩ | own
      · exact absurd (recorded.symm.trans inFlight) nofun
      · exact ne (Option.some.inj (inFlight.symm.trans own))
    cases progress with
    | taken q c | pinned q c =>
      exact ⟨holds.1, holds.2.1, fun c same => apart holds.2.1 (holds.2.2 c same)⟩
    | _ => exact holds

theorem kept_launch :
    Kept i { h with fresh := h.fresh + 1 } (.launched h.fresh) h launcher
      (update launcher h.fresh (some i)) := by
  have older {p : Nat} (below : p < h.fresh) :
      p < h.fresh + 1 ∧ update launcher h.fresh (some i) p = launcher p :=
    ⟨Nat.lt_succ_of_lt below, update_of_ne below.ne ..⟩
  refine ⟨⟨sound.owned, ?_, sound.pinned, sound.distinct⟩, ⟨Nat.lt_succ_self _, update_self ..⟩, ?_⟩
  · intro a fcv found
    obtain ⟨below, recorded⟩ := sound.registered a fcv found
    exact ⟨(older below).1, (older below).2.trans recorded⟩
  · intro j progress _ holds
    cases progress with
    | begun | cleared | returned => trivial
    | found fcv | killed fcv => exact ⟨(older holds.1).1, (older holds.1).2.trans holds.2⟩
    | waited fcv => exact ⟨(older holds.1).1, (older holds.1).2.trans holds.2.1, holds.2.2⟩
    | launched p => exact ⟨(older holds.1).1, (older holds.1).2.trans holds.2⟩
    | taken p cpu | pinned p cpu =>
      exact ⟨(older holds.1).1, (older holds.1).2.trans holds.2.1, holds.2.2⟩

theorem kept_take {p cpu : Nat} {pool : CPUPool}
    (own : CallSound h launcher i (.launched p)) (next : h.pool.next = some (cpu, pool)) :
    Kept i { h with pool, owner := update h.owner cpu (some p) } (.taken p (some cpu)) h
      launcher launcher := by
  obtain ⟨wasFree, isTaken, shrinks⟩ := CPUPool.next_spec next
  -- the CPU was free, so that nobody has it
  have others {c q : Nat} (owner : h.owner c = some q) :
      update h.owner cpu (some p) c = some q := by
    refine (update_of_ne ?_ ..).trans owner
    rintro rfl
    exact sound.owned c q owner wasFree
  refine ⟨⟨?_, sound.registered, ?_, sound.distinct⟩, ⟨own.1, own.2, ?_⟩, ?_⟩
  · intro other q owner free
    change update h.owner cpu (some p) other = some q at owner
    rw [update_apply] at owner
    split_ifs at owner with same
    · subst same
      exact isTaken free
    · exact sound.owned other q owner (shrinks other free)
  · intro a fcv found running other isPinned
    exact others (sound.pinned a fcv found running other isPinned)
  · rintro c ⟨⟩
    exact update_self ..
  · intro j progress _ holds
    cases progress with
    | taken q c | pinned q c => exact ⟨holds.1, holds.2.1, fun c same => others (holds.2.2 c same)⟩
    | _ => exact holds

theorem kept_register {p : Nat} {cpu : Option Nat} {name : String} {success : Bool}
    (own : CallSound h launcher i (.pinned p cpu)) :
    Kept i { h with vms := update h.vms name (some ⟨p, cpu⟩) } (.returned success) h
      launcher (update launcher p none) := by
  obtain ⟨below, inFlight, owner⟩ := own
  have recorded {q : Nat} (isNone : launcher q = none) :
      update launcher p none q = none := by
    rw [update_apply]
    split_ifs
    · rfl
    · exact isNone
  have elsewhere {j : ι} {q : Nat} (ne : j ≠ i) (other : launcher q = some j) :
      update launcher p none q = some j := by
    refine (update_of_ne ?_ ..).trans other
    rintro rfl
    exact ne (Option.some.inj (other.symm.trans inFlight))
  have newOrOld {a : String} {fcv : FcVM}
      (found : update h.vms name (some ⟨p, cpu⟩) a = some fcv) :
      a = name ∧ fcv = ⟨p, cpu⟩ ∨ a ≠ name ∧ h.vms a = some fcv := by
    rw [update_apply] at found
    split_ifs at found with here
    · exact Or.inl ⟨here, (Option.some.inj found).symm⟩
    · exact Or.inr ⟨here, found⟩
  -- no record is one of the process that is registered now
  have unrecorded {a : String} {fcv : FcVM} (found : h.vms a = some fcv) : fcv.process ≠ p := by
    rintro rfl
    exact absurd ((sound.registered a fcv found).2.symm.trans inFlight) nofun
  refine ⟨⟨sound.owned, ?_, ?_, ?_⟩, trivial, ?_⟩
  · intro a fcv found
    rcases newOrOld found with ⟨-, rfl⟩ | ⟨-, found⟩
    · exact ⟨below, update_self ..⟩
    · obtain ⟨below, isNone⟩ := sound.registered a fcv found
      exact ⟨below, recorded isNone⟩
  · intro a fcv found running c isPinned
    rcases newOrOld found with ⟨-, rfl⟩ | ⟨-, found⟩
    · exact owner c isPinned
    · exact sound.pinned a fcv found running c isPinned
  · intro a b fcv fcv' found found' same
    rcases newOrOld found with ⟨rfl, rfl⟩ | ⟨-, before⟩
    · rcases newOrOld found' with ⟨rfl, -⟩ | ⟨-, before'⟩
      · rfl
      · exact (unrecorded before' same.symm).elim
    · rcases newOrOld found' with ⟨-, rfl⟩ | ⟨-, before'⟩
      · exact (unrecorded before same).elim
      · exact sound.distinct a b fcv fcv' before before' same
  · intro j progress ne holds
    cases progress with
    | begun | cleared | returned => trivial
    | found fcv | killed fcv => exact ⟨holds.1, recorded holds.2⟩
    | waited fcv => exact ⟨holds.1, recorded holds.2.1, holds.2.2⟩
    | launched q => exact ⟨holds.1, elsewhere ne holds.2⟩
    | taken q c | pinned q c => exact ⟨holds.1, elsewhere ne holds.2.1, holds.2.2⟩

theorem kept_remove {name : String} {success : Bool} :
    Kept i { h with vms := update h.vms name none } (.returned success) h launcher
      launcher := by
  have earlier {a : String} {fcv : FcVM} (found : update h.vms name none a = some fcv) :
      h.vms a = some fcv := by
    rw [update_apply] at found
    split_ifs at found
    exact found
  exact ⟨⟨sound.owned, fun a fcv found => sound.registered a fcv (earlier found),
    fun a fcv found => sound.pinned a fcv (earlier found),
    fun a b fcv fcv' found found' => sound.distinct a b fcv fcv' (earlier found) (earlier found')⟩,
    trivial, fun _ _ _ => id⟩

theorem kept_begin {call : Call} :
    Kept i (h.advance call .begun .done).1 (h.advance call .begun .done).2 h launcher launcher := by
  have found : CallSound h launcher i (match h.vms call.name with
      | some fcv => .found fcv
      | none => .returned false) := by
    cases there : h.vms call.name with
    | none => trivial
    | some fcv => exact sound.registered call.name fcv there
  rw [Host.advance]
  cases call.kind with
  | start =>
    refine .quiet sound ?_
    split_ifs <;> trivial
  | startFromSnapshot => exact .quiet sound trivial
  | restore | stop => exact .quiet sound found

theorem kept_branch {condition : Prop} [Decidable condition] {yes no : Progress}
    (first : CallSound h launcher i yes) (second : CallSound h launcher i no) :
    Kept i h (if condition then yes else no) h launcher launcher := by
  refine .quiet sound ?_
  split_ifs
  · exact first
  · exact second

variable {call : Call} {outcome : Outcome}

theorem kept_killed {fcv : FcVM} (own : CallSound h launcher i (.killed fcv))
    (proper : h.Proper (.killed fcv) outcome) :
    Kept i (h.advance call (.killed fcv) outcome).1 (h.advance call (.killed fcv) outcome).2 h
      launcher launcher := by
  cases outcome with
  | done =>
    by_cases exited : h.exited fcv.process = true
    · rw [Host.advance, if_pos exited]
      exact .quiet sound ⟨own.1, own.2, exited⟩
    · rw [Host.advance, if_neg exited]
      exact .quiet sound own
  | timedOut => exact kept_branch sound ⟨own.1, own.2, proper⟩ own
  | _ => exact .quiet sound own

theorem kept_waited {fcv : FcVM} (own : CallSound h launcher i (.waited fcv))
    (proper : h.Proper (.waited fcv) outcome) :
    Kept i (h.advance call (.waited fcv) outcome).1 (h.advance call (.waited fcv) outcome).2 h
      launcher launcher := by
  cases outcome with
  | done =>
    obtain ⟨process, pinnedCPU⟩ := fcv
    cases pinnedCPU with
    | none => exact .quiet sound trivial
    | some cpu => exact kept_giveBack sound (proper cpu rfl) (Or.inl own.2) trivial
  | _ => exact .quiet sound own

theorem kept_taken {p : Nat} {cpu : Option Nat} (own : CallSound h launcher i (.taken p cpu)) :
    Kept i (h.advance call (.taken p cpu) outcome).1 (h.advance call (.taken p cpu) outcome).2 h
      launcher launcher := by
  cases outcome with
  | failed =>
    cases cpu with
    | none => exact .quiet sound own
    | some cpu =>
      exact kept_giveBack sound (own.2.2 cpu rfl) (Or.inr own.2.1) ⟨own.1, own.2.1, nofun⟩
  | _ => exact .quiet sound own

end

theorem kept_advance (call : Call) {outcome : Outcome} (sound : HostSound h launcher)
    (own : CallSound h launcher i progress) (proper : h.Proper progress outcome) :
    ∃ launcher', Kept i (h.advance call progress outcome).1 (h.advance call progress outcome).2 h
      launcher launcher' := by
  cases progress with
  | begun =>
    cases outcome with
    | done => exact ⟨launcher, kept_begin sound⟩
    | _ => exact ⟨launcher, .quiet sound own⟩
  | found fcv =>
    cases outcome with
    | done => exact ⟨launcher, .quiet sound own⟩
    | failed | inPlace => exact ⟨launcher, kept_branch sound trivial own⟩
    | timedOut => exact ⟨launcher, .quiet sound own⟩
  | killed fcv => exact ⟨launcher, kept_killed sound own proper⟩
  | waited fcv => exact ⟨launcher, kept_waited sound own proper⟩
  | cleared =>
    cases outcome with
    | done =>
      rw [Host.advance]
      split_ifs
      · exact ⟨launcher, kept_remove sound⟩
      · exact ⟨_, kept_launch sound⟩
    | failed => exact ⟨launcher, kept_branch sound trivial trivial⟩
    | _ => exact ⟨launcher, .quiet sound own⟩
  | launched p =>
    cases outcome with
    | done =>
      rw [Host.advance]
      cases next : h.pool.next with
      | none => exact ⟨launcher, .quiet sound ⟨own.1, own.2, nofun⟩⟩
      | some result => exact ⟨launcher, kept_take sound own next⟩
    | failed => exact ⟨launcher, kept_branch sound own trivial⟩
    | _ => exact ⟨launcher, .quiet sound own⟩
  | taken p cpu => exact ⟨launcher, kept_taken sound own⟩
  | pinned p cpu =>
    cases outcome with
    | done => exact ⟨_, kept_register sound own⟩
    | failed => exact ⟨launcher, kept_branch sound trivial own⟩
    | _ => exact ⟨launcher, .quiet sound own⟩
  | returned success => exact ⟨launcher, .quiet sound own⟩

end

namespace System

variable {ι : Type} [DecidableEq ι] {call : ι → Call}

/-- The host and all calls are sound for some assignment of processes to calls. -/
def Sound (s : System ι) : Prop :=
  ∃ launcher, HostSound s.host launcher ∧ ∀ i, CallSound s.host launcher i (s.calls i)

omit [DecidableEq ι] in
theorem sound_start (pool : CPUPool) : (start pool : System ι).Sound :=
  ⟨fun _ => none, ⟨nofun, nofun, nofun, nofun⟩, fun _ => trivial⟩

theorem sound_exit {s : System ι} (sound : s.Sound) (process : Nat) :
    (s.step call (.exit process)).Sound := by
  obtain ⟨launcher, host, calls⟩ := sound
  have later {p : Nat} (exited : s.host.exited p = true) :
      update s.host.exited process true p = true := by
    rw [update_apply]
    split_ifs
    · rfl
    · exact exited
  refine ⟨launcher, ⟨host.owned, host.registered, ?_, host.distinct⟩, fun i => ?_⟩
  · intro a fcv found running
    refine host.pinned a fcv found ?_
    rw [← Bool.not_eq_true]
    intro exited
    exact absurd ((later exited).symm.trans running) nofun
  · have own := calls i
    change CallSound _ launcher i (s.calls i)
    cases progress : s.calls i with
    | waited fcv =>
      rw [progress] at own
      exact ⟨own.1, own.2.1, later own.2.2⟩
    | _ =>
      rw [progress] at own
      exact own

theorem sound_call {s : System ι} (sound : s.Sound) {i : ι} {outcome : Outcome}
    (proper : s.host.Proper (s.calls i) outcome) : (s.step call (.call i outcome)).Sound := by
  obtain ⟨launcher, host, calls⟩ := sound
  obtain ⟨launcher', kept⟩ := kept_advance (call i) host (calls i) proper
  refine ⟨launcher', kept.host, fun j => ?_⟩
  by_cases same : j = i
  · subst same
    have here : (s.step call (.call j outcome)).calls j =
        (s.host.advance (call j) (s.calls j) outcome).2 := update_self ..
    rw [here]
    exact kept.own
  · have there : (s.step call (.call i outcome)).calls j = s.calls j :=
      update_of_ne same ..
    rw [there]
    exact kept.others j _ same (calls j)

theorem sound_step {s : System ι} (sound : s.Sound) {event : SystemEvent ι}
    (proper : s.Proper event) : (s.step call event).Sound := by
  cases event with
  | call i outcome => exact sound_call sound proper
  | exit process => exact sound_exit sound process

/-- The CPUs are exclusive if a CPU is given back only by the VM that it was taken for, once, and
after its process has exited. -/
theorem exclusive_of_proper (call : ι → Call) (pool : CPUPool) (events : List (SystemEvent ι))
    (proper : ∀ before event, before ++ [event] <+: events →
      (run call pool before).Proper event) :
    (run call pool events).host.Exclusive := by
  have sound : (run call pool events).Sound :=
    Run.foldl_of_conditions (motive := Sound) (sound_start pool)
      (fun _ _ sound meets => sound_step sound meets) proper
  obtain ⟨launcher, host, -⟩ := sound
  exact host.exclusive

def steps (i : ι) (outcomes : List Outcome) : List (SystemEvent ι) :=
  outcomes.map (.call i)

def inTurn : Fin 3 → Call
  | 0 => ⟨.start, "a"⟩
  | 1 => ⟨.restore, "a"⟩
  | 2 => ⟨.start, "b"⟩

def restored : List (SystemEvent (Fin 3)) :=
  steps 0 (.replicate 5 .done) ++ steps 1 [.done, .done] ++ [.exit 0] ++
    steps 1 (.replicate 6 .done) ++ steps 2 (.replicate 5 .done)

theorem restored_exclusive :
    let pool := CPUPool.full [2, 3] (by decide)
    (∀ before event, before ++ [event] <+: restored → (run inTurn pool before).Proper event) ∧
      (run inTurn pool restored).host.vms "a" = some ⟨1, some 3⟩ ∧
      (run inTurn pool restored).host.vms "b" = some ⟨2, some 2⟩ ∧
      (run inTurn pool restored).host.Exclusive := by
  intro pool
  have proper : ∀ before event, before ++ [event] <+: restored →
      (run inTurn pool before).Proper event :=
    Run.forall_actions_iff_forall_fin.mpr (by decide +kernel)
  exact ⟨proper, by decide +kernel, by decide +kernel, exclusive_of_proper _ _ _ proper⟩

def overlapping : Fin 5 → Call
  | 0 => ⟨.start, "a"⟩
  | 1 => ⟨.restore, "a"⟩
  | 2 => ⟨.start, "b"⟩
  | 3 => ⟨.stop, "a"⟩
  | 4 => ⟨.start, "c"⟩

def givenBackTwice : List (SystemEvent (Fin 5)) :=
  steps 0 (.replicate 5 .done) ++ steps 1 [.done, .done] ++ [.exit 0] ++
    steps 1 [.done, .done, .failed] ++ steps 2 (.replicate 5 .done) ++
    steps 3 (.replicate 5 .done) ++ steps 4 (.replicate 5 .done)

theorem cpu_shared :
    let pool := CPUPool.full [3] (by decide)
    let before := (run overlapping pool (givenBackTwice.take 21)).host
    let host := (run overlapping pool givenBackTwice).host
    before.vms "b" = some ⟨1, some 3⟩ ∧ before.exited 1 = false ∧ before.pool.IsFree 3 ∧
      host.vms "b" = some ⟨1, some 3⟩ ∧ host.vms "c" = some ⟨2, some 3⟩ ∧
      host.exited 1 = false ∧ host.exited 2 = false ∧ ¬host.Exclusive := by
  intro pool before host
  have first : host.vms "b" = some ⟨1, some 3⟩ := by
    decide +kernel
  have second : host.vms "c" = some ⟨2, some 3⟩ := by
    decide +kernel
  have running : host.exited 1 = false := by
    decide +kernel
  have running' : host.exited 2 = false := by
    decide +kernel
  refine ⟨by decide +kernel, by decide +kernel, by decide +kernel, first, second, running,
    running', fun exclusive => ?_⟩
  clear_value host
  have same := exclusive.unshared "b" "c" ⟨1, some 3⟩ ⟨2, some 3⟩ 3 first second running running'
    rfl rfl
  exact absurd same (by decide)

end System

end OpenThesis.Hypervisor
