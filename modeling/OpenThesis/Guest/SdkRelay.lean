import Mathlib.Data.List.Nodup
import Mathlib.Data.List.Perm.Basic
import Mathlib.Data.Nat.Basic
import Mathlib.Data.Option.Basic
import OpenThesis.Run.Core

/-!
# The relay of SDK lines

The Go agent copies the lines of a FIFO to the host and keeps those whose write fails until the host
connects again. A line is named by its place in the FIFO.
-/

namespace OpenThesis.Guest

open List

inductive RelayStage where
  | idle
  /-- It holds a line and the connection that it loaded for it. -/
  | writing (line conn : Nat)
  | failed (line : Nat)
  deriving DecidableEq, Repr

structure Flush where
  conn : Nat
  lines : Option (List Nat)
  deriving DecidableEq, Repr

/-- Connections are numbered as they were accepted. The lines delivered and the writes that failed
are not in the program. -/
structure SdkRelay where
  nextLine : Nat
  conns : Nat
  dead : Nat → Bool
  agentConn : Nat
  stage : RelayStage
  sdkPending : List Nat
  flushes : List Flush
  delivered : List Nat
  failures : List (Nat × Nat)

namespace SdkRelay

def start : SdkRelay where
  nextLine := 0
  conns := 1
  dead _ := false
  agentConn := 0
  stage := .idle
  sdkPending := []
  flushes := []
  delivered := []
  failures := []

def pendingLimit : Nat := 8192

def write (s : SdkRelay) (line conn : Nat) : SdkRelay :=
  if s.dead conn then { s with failures := s.failures ++ [(line, conn)] }
  else { s with delivered := s.delivered ++ [line] }

def relaySDKFIFO (s : SdkRelay) : SdkRelay :=
  match s.stage with
  | .idle => { s with nextLine := s.nextLine + 1, stage := .writing s.nextLine s.agentConn }
  | .writing line conn =>
    { s.write line conn with stage := if s.dead conn then .failed line else .idle }
  | .failed line =>
    { s with
      stage := .idle
      sdkPending :=
        if s.sdkPending.length < pendingLimit then s.sdkPending ++ [line] else s.sdkPending }

def vsockReconnectLoopChan (s : SdkRelay) : SdkRelay :=
  { s with
    conns := s.conns + 1
    agentConn := s.conns
    flushes := s.flushes ++ [{ conn := s.conns, lines := none }] }

def flushSDKPending (s : SdkRelay) (position : Nat) : SdkRelay :=
  match s.flushes[position]? with
  | none => s
  | some flush =>
    match flush.lines with
    | none =>
      { s with
        sdkPending := []
        flushes := s.flushes.set position { flush with lines := some s.sdkPending } }
    | some [] => s
    | some (line :: rest) =>
      { s.write line flush.conn with
        flushes := s.flushes.set position { flush with lines := some rest } }

end SdkRelay

/-- A step of one of the threads. -/
inductive RelayAction where
  | relay
  | reconnect
  | flush (position : Nat)
  | die (conn : Nat)
  deriving DecidableEq, Repr

namespace SdkRelay

/-- A step of one thread; a connection may die at any time. -/
def step (s : SdkRelay) : RelayAction → SdkRelay
  | .relay => s.relaySDKFIFO
  | .reconnect => s.vsockReconnectLoopChan
  | .flush position => s.flushSDKPending position
  | .die conn =>
    if conn < s.conns then { s with dead := Function.update s.dead conn true } else s

def run (actions : List RelayAction) : SdkRelay :=
  actions.foldl step start

def RelayStage.line : RelayStage → List Nat
  | .idle => []
  | .writing line _ | .failed line => [line]

def flushLines (flush : Flush) : List Nat :=
  flush.lines.getD []

def held (s : SdkRelay) : List Nat :=
  RelayStage.line s.stage ++ s.sdkPending ++ s.flushes.flatMap flushLines

def writes (s : SdkRelay) : RelayAction → Option (Nat × Nat)
  | .relay =>
    match s.stage with
    | .writing line conn => some (line, conn)
    | _ => none
  | .flush position => do
      let flush ← s.flushes[position]?
      let lines ← flush.lines
      let line ← lines.head?
      return (line, flush.conn)
  | _ => none

inductive Moves (s : SdkRelay) (action : RelayAction) (after : SdkRelay) : Prop where
  | read (taken : after.held.Perm (s.nextLine :: s.held))
      (delivered : after.delivered = s.delivered)
      (next : after.nextLine = s.nextLine + 1) (failures : after.failures = s.failures)
  | deliver (line conn : Nat) (written : s.writes action = some (line, conn))
      (up : s.dead conn = false) (taken : s.held.Perm (line :: after.held))
      (delivered : after.delivered = s.delivered ++ [line]) (next : after.nextLine = s.nextLine)
      (failures : after.failures = s.failures)
  | keep (kept : after.held.Perm s.held) (delivered : after.delivered = s.delivered)
      (next : after.nextLine = s.nextLine)
      (failures : ∀ failure ∈ after.failures, failure ∈ s.failures ∨ failure.1 ∈ s.held)
  /-- A flush whose write fails, or a list that is full. -/
  | drop (line : Nat) (taken : s.held.Perm (line :: after.held))
      (delivered : after.delivered = s.delivered) (next : after.nextLine = s.nextLine)
      (lost : (∃ position conn, action = .flush position ∧
          s.writes action = some (line, conn) ∧ s.dead conn = true) ∨
        (action = .relay ∧ s.stage = .failed line ∧ ¬ s.sdkPending.length < pendingLimit))
      (failures : ∀ failure ∈ after.failures, failure ∈ s.failures ∨ failure.1 ∈ s.held)

theorem flatMap_flushLines_set {flushes : List Flush} {position : Nat} {flush : Flush}
    (found : flushes[position]? = some flush) (next : Flush) :
    ∃ others, (flushes.flatMap flushLines).Perm (flushLines flush ++ others) ∧
      ((flushes.set position next).flatMap flushLines).Perm (flushLines next ++ others) := by
  obtain ⟨inside, isFlush⟩ := List.getElem?_eq_some_iff.mp found
  obtain ⟨before, after, split, _, set⟩ : ∃ before after,
      flushes = before ++ flush :: after ∧ before.length = position ∧
        flushes.set position next = before ++ next :: after := by
    simpa only [isFlush] using exists_of_set inside
  refine ⟨before.flatMap flushLines ++ after.flatMap flushLines, ?_, ?_⟩
  · rw [split, flatMap_append, flatMap_cons]
    exact perm_append_comm_assoc ..
  · rw [set, flatMap_append, flatMap_cons]
    exact perm_append_comm_assoc ..

theorem moves_relay (s : SdkRelay) : s.Moves .relay s.relaySDKFIFO := by
  unfold relaySDKFIFO
  split
  case h_1 idle =>
    refine .read ?_ rfl rfl rfl
    rw [held, held, idle]
    exact .refl _
  case h_2 line conn writing =>
    have isHeld : s.held = line :: (s.sdkPending ++ s.flushes.flatMap flushLines) := by
      rw [held, writing]
      rfl
    have written : s.writes .relay = some (line, conn) := by
      rw [writes, writing]
    cases isDead : s.dead conn with
    | true =>
      rw [write, if_pos isDead, if_pos rfl]
      refine .keep ?_ rfl rfl fun failure isFailure => ?_
      · rw [isHeld]
        exact .refl _
      · rcases mem_append.mp isFailure with earlier | now
        · exact .inl earlier
        · rw [mem_singleton.mp now, isHeld]
          exact .inr mem_cons_self
    | false =>
      have up : ¬ s.dead conn = true := Bool.eq_false_iff.mp isDead
      rw [write, if_neg up, if_neg Bool.false_ne_true]
      refine .deliver line conn written isDead ?_ rfl rfl rfl
      rw [isHeld]
      exact .refl _
  case h_3 line failed =>
    have isHeld : s.held = line :: (s.sdkPending ++ s.flushes.flatMap flushLines) := by
      rw [held, failed]
      rfl
    split
    case isTrue room =>
      refine .keep ?_ rfl rfl fun failure => .inl
      rw [isHeld]
      exact (perm_append_singleton line s.sdkPending).append_right _
    case isFalse full =>
      refine .drop line ?_ rfl rfl (.inr ⟨rfl, failed, full⟩) fun failure => .inl
      rw [isHeld]
      exact .refl _

theorem moves_flush (s : SdkRelay) (position : Nat) :
    s.Moves (.flush position) (s.flushSDKPending position) := by
  unfold flushSDKPending
  split
  case h_1 => exact .keep (.refl _) rfl rfl fun failure => .inl
  case h_2 flush found =>
    split
    case h_1 untaken =>
      obtain ⟨others, before, after⟩ := flatMap_flushLines_set found
        { flush with lines := some s.sdkPending }
      refine .keep ?_ rfl rfl fun failure => .inl
      have noLines : flushLines flush = [] := by rw [flushLines, untaken, Option.getD_none]
      rw [noLines, nil_append] at before
      rw [held, held, append_nil, append_assoc]
      exact (after.trans (before.symm.append_left _)).append_left _
    case h_2 => exact .keep (.refl _) rfl rfl fun failure => .inl
    case h_3 line rest taken =>
      obtain ⟨others, before, after⟩ := flatMap_flushLines_set found
        { flush with lines := some rest }
      have itsLines : flushLines flush = line :: rest := by
        rw [flushLines, taken, Option.getD_some]
      rw [itsLines] at before
      have written : s.writes (.flush position) = some (line, flush.conn) := by
        simp only [writes, found, taken, Option.bind_eq_bind, Option.bind_some, head?_cons,
          Option.pure_def]
      have moved : s.held.Perm (line :: (RelayStage.line s.stage ++ s.sdkPending ++
          (s.flushes.set position { flush with lines := some rest }).flatMap flushLines)) := by
        have lines := before.trans (after.symm.cons line)
        exact (lines.append_left _).trans perm_middle
      cases isDead : s.dead flush.conn with
      | true =>
        rw [write, if_pos isDead]
        refine .drop line moved rfl rfl (.inl ⟨position, flush.conn, rfl, written, isDead⟩) ?_
        intro failure isFailure
        rcases mem_append.mp isFailure with earlier | now
        · exact .inl earlier
        · rw [mem_singleton.mp now]
          exact .inr (moved.symm.subset mem_cons_self)
      | false =>
        rw [write, if_neg (Bool.eq_false_iff.mp isDead)]
        exact .deliver line flush.conn written isDead moved rfl rfl rfl

theorem moves_step (s : SdkRelay) (action : RelayAction) : s.Moves action (s.step action) := by
  cases action with
  | relay => exact s.moves_relay
  | reconnect =>
    refine .keep ?_ rfl rfl fun failure => .inl
    rw [held, held, step, vsockReconnectLoopChan, flatMap_append]
    exact Perm.of_eq (congrArg _ (append_nil _))
  | flush position => exact s.moves_flush position
  | die conn =>
    rw [step]
    split
    · exact .keep (.refl _) rfl rfl fun failure => .inl
    · exact .keep (.refl _) rfl rfl fun failure => .inl

/-- No line is there twice. -/
structure Once (s : SdkRelay) : Prop where
  nodup : (s.delivered ++ s.held).Nodup
  old : ∀ line ∈ s.delivered ++ s.held, line < s.nextLine
  failed : ∀ failure ∈ s.failures, failure.1 < s.nextLine

theorem once_start : start.Once where
  nodup := nodup_nil
  old := nofun
  failed := nofun

theorem Once.of_subperm {s after : SdkRelay} (once : s.Once)
    (lines : (after.delivered ++ after.held).Subperm (s.delivered ++ s.held))
    (next : after.nextLine = s.nextLine)
    (failures : ∀ failure ∈ after.failures, failure ∈ s.failures ∨ failure.1 ∈ s.held) :
    after.Once where
  nodup := by
    obtain ⟨same, permutes, isSub⟩ := lines
    exact permutes.nodup_iff.mp (once.nodup.sublist isSub)
  old := by
    rw [next]
    exact fun line inside => once.old line (lines.subset inside)
  failed := by
    rw [next]
    intro failure isFailure
    rcases failures failure isFailure with earlier | isHeld
    · exact once.failed failure earlier
    · exact once.old _ (mem_append_right _ isHeld)

theorem Once.of_read {s after : SdkRelay} (once : s.Once)
    (lines : (after.delivered ++ after.held).Perm (s.nextLine :: (s.delivered ++ s.held)))
    (next : after.nextLine = s.nextLine + 1) (failures : after.failures = s.failures) :
    after.Once where
  nodup := by
    rw [lines.nodup_iff, nodup_cons]
    exact ⟨fun inside => (once.old _ inside).false, once.nodup⟩
  old := by
    rw [next]
    intro line inside
    rcases mem_cons.mp (lines.subset inside) with rfl | earlier
    · exact Nat.lt_succ_self _
    · exact (once.old line earlier).trans (Nat.lt_succ_self _)
  failed := by
    rw [next, failures]
    exact fun failure isFailure => (once.failed failure isFailure).trans (Nat.lt_succ_self _)

theorem Once.step {s : SdkRelay} (once : s.Once) (action : RelayAction) : (s.step action).Once := by
  cases s.moves_step action with
  | read taken delivered next failures =>
    refine once.of_read ?_ next failures
    rw [delivered]
    exact (taken.append_left _).trans perm_middle
  | deliver line conn written up taken delivered next failures =>
    refine once.of_subperm ?_ next fun failure isFailure => .inl (failures ▸ isFailure)
    rw [delivered, append_assoc]
    exact (taken.symm.append_left _).subperm
  | keep kept delivered next failures =>
    refine once.of_subperm ?_ next failures
    rw [delivered]
    exact (kept.append_left _).subperm
  | drop line taken delivered next lost failures =>
    refine once.of_subperm ?_ next failures
    rw [delivered]
    have lines := taken.symm.append_left s.delivered
    exact ((sublist_cons_self line _).append_left _).subperm.trans lines.subperm

theorem once_run (actions : List RelayAction) : (run actions).Once :=
  foldlRecOn (motive := Once) actions step once_start fun _ once action _ => once.step action

def keeps (s : SdkRelay) : RelayAction → Option Nat
  | .relay =>
    match s.stage with
    | .failed line => some line
    | _ => none
  | _ => none

def Fits (s : SdkRelay) (action : RelayAction) : Prop :=
  ∀ _line ∈ s.keeps action, s.sdkPending.length < pendingLimit

instance (s : SdkRelay) (action : RelayAction) : Decidable (s.Fits action) :=
  inferInstanceAs (Decidable (∀ _line ∈ s.keeps action, _))

/-- A line is delivered only when no earlier one is held, and a flush writes only to a
connection that is up. -/
def InTurn (s : SdkRelay) (action : RelayAction) : Prop :=
  ∀ write ∈ s.writes action, (s.dead write.2 = false → ∀ line ∈ s.held, write.1 ≤ line) ∧
    (action ≠ .relay → s.dead write.2 = false)

instance (s : SdkRelay) (action : RelayAction) : Decidable (s.InTurn action) :=
  inferInstanceAs (Decidable (∀ write ∈ s.writes action, _ ∧ _))

/-- The lines delivered are the first ones, in order, and the others are held. -/
structure Ordered (s : SdkRelay) : Prop where
  sorted : s.delivered.Pairwise (· < ·)
  before : ∀ line ∈ s.delivered, ∀ later ∈ s.held, line < later
  complete : ∀ line < s.nextLine, line ∈ s.delivered ∨ line ∈ s.held

theorem ordered_start : start.Ordered where
  sorted := .nil
  before := nofun
  complete := nofun

section

variable {s after : SdkRelay} (ordered : s.Ordered)
include ordered

theorem Ordered.of_read (once : s.Once) (taken : after.held.Perm (s.nextLine :: s.held))
    (delivered : after.delivered = s.delivered) (next : after.nextLine = s.nextLine + 1) :
    after.Ordered where
  sorted := by
    rw [delivered]
    exact ordered.sorted
  before := by
    rw [delivered]
    intro line isDelivered later isHeld
    rcases mem_cons.mp (taken.subset isHeld) with rfl | earlier
    · exact once.old line (mem_append_left _ isDelivered)
    · exact ordered.before line isDelivered later earlier
  complete := by
    rw [next, delivered]
    intro line bound
    rcases Nat.lt_succ_iff_lt_or_eq.mp bound with earlier | rfl
    · exact (ordered.complete line earlier).imp_right fun isHeld =>
        taken.symm.subset (mem_cons_of_mem _ isHeld)
    · exact .inr (taken.symm.subset mem_cons_self)

theorem Ordered.of_deliver (once : s.Once) {line : Nat}
    (first : ∀ later ∈ s.held, line ≤ later) (taken : s.held.Perm (line :: after.held))
    (delivered : after.delivered = s.delivered ++ [line]) (next : after.nextLine = s.nextLine) :
    after.Ordered := by
  have nodup : (line :: after.held).Nodup := taken.nodup_iff.mp once.nodup.of_append_right
  have isHeld {later : Nat} (inside : later ∈ after.held) : later ∈ s.held :=
    taken.symm.subset (mem_cons_of_mem _ inside)
  constructor
  case sorted =>
    rw [delivered, pairwise_append]
    refine ⟨ordered.sorted, pairwise_singleton _ _, fun earlier isDelivered now isNow => ?_⟩
    rw [mem_singleton.mp isNow]
    exact ordered.before earlier isDelivered line (taken.symm.subset mem_cons_self)
  case before =>
    rw [delivered]
    intro earlier isDelivered later inside
    rcases mem_append.mp isDelivered with before | now
    · exact ordered.before earlier before later (isHeld inside)
    · rw [mem_singleton.mp now]
      refine lt_of_le_of_ne (first later (isHeld inside)) ?_
      rintro rfl
      exact (nodup_cons.mp nodup).1 inside
  case complete =>
    rw [next, delivered]
    intro other bound
    rcases ordered.complete other bound with before | inside
    · exact .inl (mem_append_left _ before)
    · rcases mem_cons.mp (taken.subset inside) with rfl | still
      · exact .inl (mem_append_right _ mem_cons_self)
      · exact .inr still

theorem Ordered.of_keep (kept : after.held.Perm s.held) (delivered : after.delivered = s.delivered)
    (next : after.nextLine = s.nextLine) : after.Ordered where
  sorted := by
    rw [delivered]
    exact ordered.sorted
  before := by
    rw [delivered]
    exact fun line isDelivered later isHeld =>
      ordered.before line isDelivered later (kept.subset isHeld)
  complete := by
    rw [next, delivered]
    exact fun line bound => (ordered.complete line bound).imp_right fun isHeld =>
      kept.symm.subset isHeld

theorem Ordered.step (once : s.Once) {action : RelayAction} (fits : s.Fits action)
    (inTurn : s.InTurn action) : (s.step action).Ordered := by
  cases s.moves_step action with
  | read taken delivered next failures => exact ordered.of_read once taken delivered next
  | deliver line conn written up taken delivered next failures =>
    exact ordered.of_deliver once ((inTurn (line, conn) written).1 up) taken delivered next
  | keep kept delivered next failures => exact ordered.of_keep kept delivered next
  | drop line taken delivered next lost failures =>
    -- neither way of dropping a line is left
    rcases lost with ⟨position, conn, rfl, written, down⟩ | ⟨rfl, failed, full⟩
    · have up := (inTurn (line, conn) written).2 nofun
      rw [down] at up
      cases up
    · have keptLine : s.keeps .relay = some line := by
        rw [keeps, failed]
      exact absurd (fits line keptLine) full

end

theorem ordered_run {actions : List RelayAction}
    (fits : ∀ before action, before ++ [action] <+: actions → (run before).Fits action)
    (inTurn : ∀ before action, before ++ [action] <+: actions → (run before).InTurn action) :
    (run actions).Ordered := by
  refine Run.holds_of_conditions (motive := fun actions => (run actions).Ordered) ordered_start
    (fun before action ordered meets => ?_)
    fun before action inside => And.intro (fits before action inside) (inTurn before action inside)
  rw [run, foldl_concat]
  exact ordered.step (once_run before) meets.1 meets.2

/-- Lines are delivered once and in order, and a line whose write failed is delivered or held if a
later connection has stayed up. -/
structure Survive (s : SdkRelay) : Prop where
  once : s.delivered.Nodup
  order : s.delivered.Pairwise (· < ·)
  kept : ∀ failure ∈ s.failures,
    (∃ later, failure.2 < later ∧ later < s.conns ∧ s.dead later = false) →
      failure.1 ∈ s.delivered ∨ failure.1 ∈ s.held

end SdkRelay

open SdkRelay

/-- No line is delivered twice. As long as the list has room, a run in which lines are delivered
only when no earlier one is held, and flushes write only to connections that are up, also keeps the
order and loses no line. -/
theorem sdk_lines_survive_in_turn (actions : List RelayAction)
    (fits : ∀ before action, before ++ [action] <+: actions → (run before).Fits action) :
    (∀ before, before <+: actions → (run before).delivered.Nodup) ∧
      ((∀ before action, before ++ [action] <+: actions → (run before).InTurn action) →
        ∀ before, before <+: actions → (run before).Survive) := by
  have once (before : List RelayAction) : (run before).delivered.Nodup :=
    (once_run before).nodup.of_append_left
  refine ⟨fun before _ => once before, fun inTurn before isPre => ?_⟩
  have ordered : (run before).Ordered :=
    ordered_run (fun earlier action inside => fits earlier action (inside.trans isPre))
      fun earlier action inside => inTurn earlier action (inside.trans isPre)
  constructor
  case once => exact once before
  case order => exact ordered.sorted
  case kept =>
    exact fun failure isFailure _ =>
      ordered.complete failure.1 ((once_run before).failed failure isFailure)

theorem sdk_lines_survive_in_turn_reconnect :
    (run [.relay, .die 0, .relay, .relay, .reconnect, .flush 0, .flush 0, .relay,
      .relay]).Survive := by
  refine (sdk_lines_survive_in_turn [.relay, .die 0, .relay, .relay, .reconnect, .flush 0,
    .flush 0, .relay, .relay] ?_).2 ?_ _ (prefix_refl _)
  · exact Run.forall_actions_iff_forall_fin.mpr (by decide +kernel)
  · exact Run.forall_actions_iff_forall_fin.mpr (by decide +kernel)

/-- The relay can write a new line before the flush has written the old ones; and a flush whose
connection dies drops its line. -/
theorem newer_line_overtakes_backlog :
    ¬ (run [.relay, .die 0, .relay, .relay, .reconnect, .relay, .relay, .flush 0,
        .flush 0]).Survive ∧
      ¬ (run [.relay, .die 0, .relay, .relay, .reconnect, .flush 0, .die 1, .flush 0,
        .reconnect]).Survive := by
  constructor
  · intro survive
    exact absurd survive.order (by decide +kernel)
  · intro survive
    have kept := survive.kept (0, 0) (by decide +kernel) ⟨2, by decide +kernel⟩
    exact absurd kept (by decide +kernel)

end OpenThesis.Guest
