import Mathlib.Data.List.Sort
import Mathlib.Data.Prod.Lex
import OpenThesis.Orchestrator.Swarm

/-!
# The simulated network

Messages between nodes (`internal/network`), with partitions, faults and a virtual clock
(`internal/clock`). A call reads clock and partitions once, so a run is a list of calls. Times are
in nanoseconds, and no run sends `2 ^ 64` messages.
-/

namespace OpenThesis.Network

open List

open Orchestrator (Source)

abbrev NodeID := String

/-- A message with its times. -/
structure Message where
  id : Nat
  src : NodeID
  dst : NodeID
  payload : List UInt8
  sentAt : Int
  deliverAt : Int
  dropped : Bool := false

def Message.key (m : Message) : ℤ ×ₗ ℕ :=
  toLex (m.deliverAt, m.id)

/-- Decides on drops and delays. -/
structure Injector where
  shouldDrop : NodeID → NodeID → Source → Bool × Source
  delay : NodeID → NodeID → Source → Int × Source

def nopInjector : Injector :=
  ⟨fun _ _ rng => (false, rng), fun _ _ rng => (0, rng)⟩

/-- Two groups that are cut off. -/
structure Partition where
  groupA : List NodeID
  groupB : List NodeID
  directed : Bool

def isPartitioned (partitions : List Partition) (src dst : NodeID) : Bool :=
  partitions.any fun p => (src ∈ p.groupA && dst ∈ p.groupB) ||
    (!p.directed && src ∈ p.groupB && dst ∈ p.groupA)

/-- The messages that wait or are done with, the nodes and the clock. -/
structure Network where
  rng : Source
  now : Int
  partitions : List Partition := []
  pending : List Message := []
  delivered : List Message := []
  nextMsgID : Nat := 0
  nodes : Finset NodeID := ∅

inductive Op where
  | addNode (id : NodeID)
  | removeNode (id : NodeID)
  | send (src dst : NodeID) (payload : List UInt8)
  | deliver (dst : NodeID)
  | addPartition (p : Partition)
  | clearPartitions
  | advance (d : Int)
  | advanceTo (t : Int)

inductive Reply where
  | done
  | sent (id : Nat) (dropped : Bool)
  | nodeNotFound
  | messages (ready : List Message)
  | panicked

namespace Network

variable (inj : Injector) (n : Network)

/-- `Send`: a partition or the injector drops the message, or it waits until it is due. -/
def send (src dst : NodeID) (payload : List UInt8) : Reply × Network :=
  if src ∉ n.nodes then (.nodeNotFound, n)
  else if dst ∉ n.nodes then (.nodeNotFound, n)
  else
    let msg : Message := ⟨n.nextMsgID, src, dst, payload, n.now, n.now, false⟩
    let next := { n with nextMsgID := n.nextMsgID + 1 }
    let lost := n.delivered ++ [{ msg with dropped := true }]
    if isPartitioned n.partitions src dst then (.sent msg.id true, { next with delivered := lost })
    else
      let (drop, rng) := inj.shouldDrop src dst n.rng
      if drop then (.sent msg.id true, { next with rng, delivered := lost })
      else
        let (delay, rng) := inj.delay src dst rng
        let pending := n.pending ++ [{ msg with deliverAt := n.now + delay }]
        (.sent msg.id false, { next with rng, pending })

variable (dst : NodeID)

def isReady (m : Message) : Bool :=
  m.dst = dst ∧ m.deliverAt ≤ n.now

def deliver : List Message × Network :=
  let (ready, remaining) := n.pending.partition (n.isReady dst)
  let ready := ready.mergeSort (·.key ≤ ·.key)
  (ready, { n with pending := remaining, delivered := n.delivered ++ ready })

/-- One call, with what it returns. -/
def step : Op → Reply × Network
  | .addNode id => (.done, { n with nodes := insert id n.nodes })
  | .removeNode id => (.done, { n with nodes := n.nodes.erase id })
  | .send src dst payload => n.send inj src dst payload
  | .deliver dst => let (ready, n) := n.deliver dst; (.messages ready, n)
  | .addPartition p => (.done, { n with partitions := n.partitions ++ [p] })
  | .clearPartitions => (.done, { n with partitions := [] })
  | .advance d => (.done, { n with now := n.now + d })
  | .advanceTo t => if t < n.now then (.panicked, n) else (.done, { n with now := t })

theorem ready_perm : (n.deliver dst).1.Perm (n.pending.filter (n.isReady dst)) := by
  rw [deliver, partition_eq_filter_filter]
  exact mergeSort_perm _ _

theorem ready_sorted : (n.deliver dst).1.Pairwise (·.key ≤ ·.key) := by
  have sorted : (n.deliver dst).1.Pairwise fun a b => decide (a.key ≤ b.key) :=
    pairwise_mergeSort (by simpa using fun a b c => le_trans)
      (by simpa using fun a b => le_total _ _) _
  exact sorted.imp of_decide_eq_true

theorem pending_deliver : (n.deliver dst).2.pending = n.pending.filter (!n.isReady dst ·) := by
  rw [deliver, partition_eq_filter_filter]
  rfl

theorem delivered_deliver : (n.deliver dst).2.delivered = n.delivered ++ (n.deliver dst).1 :=
  rfl

theorem deliver_perm :
    ((n.deliver dst).2.pending ++ (n.deliver dst).2.delivered).Perm (n.pending ++ n.delivered) := by
  have both := ((n.ready_perm dst).append_right _).trans (filter_append_perm _ n.pending)
  rw [pending_deliver, delivered_deliver, ← append_assoc]
  refine perm_append_comm.trans ?_
  rw [← append_assoc]
  exact both.append_right _

variable {n dst} {m : Message}

theorem of_mem_ready (inside : m ∈ (n.deliver dst).1) :
    m ∈ n.pending ∧ m.dst = dst ∧ m.deliverAt ≤ n.now := by
  obtain ⟨waited, due⟩ := mem_filter.mp ((n.ready_perm dst).subset inside)
  exact ⟨waited, of_decide_eq_true due⟩

theorem of_mem_remaining (inside : m ∈ (n.deliver dst).2.pending) :
    m ∈ n.pending ∧ (m.dst = dst → n.now < m.deliverAt) := by
  rw [pending_deliver] at inside
  obtain ⟨waited, early⟩ := mem_filter.mp inside
  exact ⟨waited, by simpa [isReady, imp_iff_not_or] using early⟩

end Network

/-- The number, ends and payload of a message, and whether it is dropped. -/
abbrev Accepted := Nat × NodeID × NodeID × List UInt8 × Bool

def Message.accepted (m : Message) : Accepted :=
  (m.id, m.src, m.dst, m.payload, m.dropped)

/-- A network with the messages that its replies accepted and handed out so far. -/
structure History extends Network where
  sent : List Accepted := []
  handed : List Message := []

namespace History

open Network

variable (inj : Injector)

/-- One call, with all that was ever sent and handed out. -/
def step (h : History) (op : Op) : History :=
  match op, h.toNetwork.step inj op with
  | .send src dst payload, (.sent id dropped, n) =>
    { h with toNetwork := n, sent := h.sent ++ [(id, src, dst, payload, dropped)] }
  | _, (.messages ready, n) => { h with toNetwork := n, handed := h.handed ++ ready }
  | _, (_, n) => { h with toNetwork := n }

def run (rng : Source) (now : Int) (ops : List Op) : History :=
  ops.foldl (step inj) { rng, now }

/-- All that a call can do. -/
inductive Effect (h : History) (op : Op) : History → Prop where
  | quiet (nodes : Finset NodeID) (partitions : List Partition) (now : Int)
      (later : (∀ d, op = .advance d → 0 ≤ d) → h.now ≤ now) :
      Effect h op { h with nodes, partitions, now }
  | lost (rng : Source) (m : Message) (number : m.id = h.nextMsgID) (dropped : m.dropped = true) :
      Effect h op { h with
        rng, nextMsgID := h.nextMsgID + 1, delivered := h.delivered ++ [m]
        sent := h.sent ++ [m.accepted] }
  | queued (rng rng' : Source) (m : Message) (number : m.id = h.nextMsgID)
      (kept : m.dropped = false) (due : m.deliverAt = h.now + (inj.delay m.src m.dst rng).1) :
      Effect h op { h with
        rng := rng', nextMsgID := h.nextMsgID + 1, pending := h.pending ++ [m]
        sent := h.sent ++ [m.accepted] }
  | delivered (dst : NodeID) :
      Effect h op ⟨(h.deliver dst).2, h.sent, h.handed ++ (h.deliver dst).1⟩

variable {inj} {h h' : History} {op : Op} {ops : List Op} {m : Message} {rng : Source} {now : Int}

theorem effect_step (h : History) (op : Op) : Effect inj h op (h.step inj op) := by
  cases op with
  | addNode | removeNode | addPartition | clearPartitions => exact .quiet _ _ _ fun _ => le_rfl
  | send src dst payload =>
    simp only [step, Network.step, send]
    split_ifs
    · exact .lost h.rng ⟨h.nextMsgID, src, dst, payload, _, _, true⟩ rfl rfl
    · exact .lost _ ⟨h.nextMsgID, src, dst, payload, _, _, true⟩ rfl rfl
    · exact .queued _ _ ⟨h.nextMsgID, src, dst, payload, _, _, false⟩ rfl rfl rfl
    · exact .quiet _ _ _ fun _ => le_rfl
    · exact .quiet _ _ _ fun _ => le_rfl
  | deliver dst => exact .delivered dst
  | advance d => exact .quiet _ _ _ fun forward => le_add_of_nonneg_right (forward d rfl)
  | advanceTo t =>
    simp only [step, Network.step]
    split_ifs with past
    · exact .quiet _ _ _ fun _ => le_rfl
    · exact .quiet _ _ _ fun _ => not_lt.mp past

/-- Every accepted message is in one place. -/
structure Conserved (h : History) : Prop where
  numbers : h.sent.map (·.1) = range h.nextMsgID
  places : ((h.pending ++ h.delivered).map (·.accepted)).Perm h.sent
  handed : h.handed = h.delivered.filter (!·.dropped)
  waiting : ∀ m ∈ h.pending, m.dropped = false

theorem Conserved.step (conserved : h.Conserved) (effect : Effect inj h op h') : h'.Conserved := by
  have appended (m : Message) (number : m.id = h.nextMsgID) :
      (h.sent ++ [m.accepted]).map (·.1) = range (h.nextMsgID + 1) := by
    rw [range_succ, map_append, conserved.numbers]
    exact congrArg (_ ++ [·]) number
  cases effect with
  | quiet => exact ⟨conserved.numbers, conserved.places, conserved.handed, conserved.waiting⟩
  | lost rng m number dropped =>
    refine ⟨appended m number, ?_, ?_, conserved.waiting⟩
    · rw [← append_assoc, map_append]
      exact conserved.places.append_right _
    · rw [filter_append, ← conserved.handed]
      simp [dropped]
  | queued rng rng' m number kept due =>
    refine ⟨appended m number, ?_, conserved.handed, ?_⟩
    · rw [append_assoc, singleton_append]
      refine (perm_middle.map _).trans ?_
      exact (conserved.places.cons _).trans (perm_append_singleton _ _).symm
    · exact forall_mem_append.mpr ⟨conserved.waiting, by simpa using kept⟩
  | delivered dst =>
    refine ⟨conserved.numbers, ((h.deliver_perm dst).map _).trans conserved.places, ?_, ?_⟩
    · have kept : (h.deliver dst).1.filter (!·.dropped) = (h.deliver dst).1 := by
        refine filter_eq_self.mpr fun m inside => ?_
        rw [conserved.waiting m (of_mem_ready inside).1]
        rfl
      rw [delivered_deliver, filter_append, kept, ← conserved.handed]
    · exact fun m inside => conserved.waiting m (of_mem_remaining inside).1

theorem conserved_run (inj : Injector) (rng : Source) (now : Int) (ops : List Op) :
    (run inj rng now ops).Conserved :=
  foldlRecOn ops _ ⟨rfl, .nil, rfl, nofun⟩ fun _ conserved op _ =>
    conserved.step (effect_step _ op)

/-- No message is lost or comes twice: what was accepted waits or is done with, and what was handed
out are the messages that are done with and were not dropped. -/
theorem exactly_once (inj : Injector) (rng : Source) (now : Int) (ops : List Op) :
    let h := run inj rng now ops
    h.sent.map (·.1) = range h.sent.length ∧
      ((h.pending ++ h.delivered).map (·.accepted)).Perm h.sent ∧
      (∀ m ∈ h.pending, m.dropped = false) ∧ h.handed = h.delivered.filter (!·.dropped) := by
  intro h
  have conserved : h.Conserved := conserved_run inj rng now ops
  have count := congrArg List.length conserved.numbers
  rw [length_map, length_range] at count
  exact ⟨count ▸ conserved.numbers, conserved.places, conserved.waiting, conserved.handed⟩

namespace Conserved

variable (conserved : h.Conserved)
include conserved

theorem of_mem_handed (out : m ∈ h.handed) : m.accepted ∈ h.sent ∧ m.dropped = false := by
  rw [conserved.handed] at out
  obtain ⟨inside, kept⟩ := mem_filter.mp out
  refine ⟨conserved.places.subset (mem_map_of_mem ?_), by simpa using kept⟩
  exact mem_append_right _ inside

theorem id_lt (inside : m.accepted ∈ h.sent) : m.id < h.nextMsgID := by
  have number : m.id ∈ h.sent.map (·.1) := mem_map_of_mem inside
  rwa [conserved.numbers, mem_range] at number

theorem nodup_sent : (h.sent.map (·.1)).Nodup :=
  conserved.numbers ▸ nodup_range

theorem nodup_pending : (h.pending.map (·.id)).Nodup := by
  have all := ((conserved.places.map (·.1)).nodup_iff).mpr conserved.nodup_sent
  rw [map_map, map_append] at all
  exact all.of_append_left

end Conserved

theorem Effect.sent_isPrefix (effect : Effect inj h op h') : h.sent <+: h'.sent := by
  cases effect <;> simp

theorem sent_isPrefix (h : History) (ops : List Op) : h.sent <+: (ops.foldl (step inj) h).sent := by
  induction ops generalizing h with
  | nil => exact prefix_refl _
  | cons op ops ih => exact (effect_step h op).sent_isPrefix.trans (ih _)

/-- A message that is sent across a partition is never handed out, also when the partition ends
before the receiver asks for its messages. -/
theorem partition_blocks (inj : Injector) (rng : Source) (now : Int) {before after : List Op}
    {src dst : NodeID} {payload : List UInt8}
    (known : src ∈ (run inj rng now before).nodes ∧ dst ∈ (run inj rng now before).nodes)
    (blocked : isPartitioned (run inj rng now before).partitions src dst) :
    ∀ m ∈ (run inj rng now (before ++ .send src dst payload :: after)).handed,
      m.id ≠ (run inj rng now before).nextMsgID := by
  intro m out same
  have conserved := conserved_run inj rng now (before ++ .send src dst payload :: after)
  obtain ⟨accepted, kept⟩ := conserved.of_mem_handed out
  set h := run inj rng now before with reached
  have dropped : (h.nextMsgID, src, dst, payload, true) ∈
      (run inj rng now (before ++ .send src dst payload :: after)).sent := by
    rw [run, foldl_append, ← run, ← reached, foldl_cons]
    refine (sent_isPrefix _ after).subset ?_
    simp [step, Network.step, send, known.1, known.2, blocked]
  have equal := inj_on_of_nodup_map conserved.nodup_sent accepted dropped same
  have lost : m.dropped = true := congrArg (·.2.2.2.2) equal
  rw [lost] at kept
  cases kept

theorem partition_blocks_cleared :
    let before := [.addNode "a", .addNode "b", .addPartition ⟨["a"], ["b"], true⟩]
    let ops := before ++ .send "a" "b" [] :: [.clearPartitions, .deliver "b"]
    ¬ ∃ m ∈ (run nopInjector ⟨0⟩ 0 ops).handed,
      m.id = (run nopInjector ⟨0⟩ 0 before).nextMsgID := by
  rintro before ops ⟨m, out, same⟩
  exact partition_blocks nopInjector ⟨0⟩ 0 (by decide) (by decide) m out same

/-- What keeps the order of each link if its messages are all delayed for the same time. -/
structure InOrder (latency : NodeID → NodeID → Int) (h : History) : Prop where
  bound : ∀ m ∈ h.pending, m.deliverAt ≤ h.now + latency m.src m.dst
  mono : ∀ a ∈ h.pending, ∀ b ∈ h.pending, a.src = b.src → a.dst = b.dst → a.id ≤ b.id →
    a.deliverAt ≤ b.deliverAt
  behind : ∀ a ∈ h.handed, ∀ b ∈ h.pending, a.src = b.src → a.dst = b.dst → a.id < b.id
  sorted : h.handed.Pairwise fun a b => a.src = b.src → a.dst = b.dst → a.id < b.id

theorem InOrder.step {latency : NodeID → NodeID → Int}
    (steady : ∀ src dst rng, (inj.delay src dst rng).1 = latency src dst)
    (forward : ∀ d, op = .advance d → 0 ≤ d) (conserved : h.Conserved)
    (inOrder : InOrder latency h) (effect : Effect inj h op h') : InOrder latency h' := by
  cases effect with
  | quiet nodes partitions now later =>
    refine ⟨fun m inside => ?_, inOrder.mono, inOrder.behind, inOrder.sorted⟩
    exact (inOrder.bound m inside).trans (Int.add_le_add_right (later forward) _)
  | lost rng m number dropped =>
    exact ⟨inOrder.bound, inOrder.mono, inOrder.behind, inOrder.sorted⟩
  | queued rng rng' m number kept due =>
    rw [steady] at due
    refine ⟨forall_mem_append.mpr ⟨inOrder.bound, by simpa using due.le⟩, ?_, ?_, inOrder.sorted⟩
    · intro a aInside b bInside src dst le
      rcases mem_append.mp aInside with aBefore | aLast
      · rcases mem_append.mp bInside with bBefore | bLast
        · exact inOrder.mono a aBefore b bBefore src dst le
        · obtain rfl := mem_singleton.mp bLast
          rw [due, ← src, ← dst]
          exact inOrder.bound a aBefore
      · obtain rfl := mem_singleton.mp aLast
        rcases mem_append.mp bInside with bBefore | bLast
        · have smaller := conserved.id_lt (conserved.places.subset
            (mem_map_of_mem (mem_append_left _ bBefore)))
          exact absurd (number ▸ le) (not_le.mpr smaller)
        · rw [mem_singleton.mp bLast]
    · intro a out
      refine forall_mem_append.mpr ⟨inOrder.behind a out, ?_⟩
      intro b last _ _
      rw [mem_singleton.mp last, number]
      exact conserved.id_lt (conserved.of_mem_handed out).1
  | delivered dst =>
    refine ⟨fun m inside => inOrder.bound m (of_mem_remaining inside).1, ?_, ?_, ?_⟩
    · intro a aInside b bInside
      exact inOrder.mono a (of_mem_remaining aInside).1 b (of_mem_remaining bInside).1
    · intro a out b inside sameSrc sameDst
      obtain ⟨waits, early⟩ := of_mem_remaining inside
      rcases mem_append.mp out with before | now
      · exact inOrder.behind a before b waits sameSrc sameDst
      · obtain ⟨waited, isDst, due⟩ := of_mem_ready now
        refine lt_of_not_ge fun ge => ?_
        have earlier := inOrder.mono b waits a waited sameSrc.symm sameDst.symm ge
        exact absurd (earlier.trans due) (not_le.mpr (early (sameDst ▸ isDst)))
    · have distinct : ((h.deliver dst).1.map (·.id)).Nodup :=
        ((h.ready_perm dst).map _).nodup_iff.mpr
          ((filter_sublist.map _).nodup conserved.nodup_pending)
      refine pairwise_append.mpr ⟨inOrder.sorted, ?_, fun a before b now =>
        inOrder.behind a before b (of_mem_ready now).1⟩
      refine ((h.ready_sorted dst).and (pairwise_map.mp distinct)).imp_of_mem ?_
      rintro a b aInside bInside ⟨le, differ⟩ sameSrc sameDst
      refine lt_of_not_ge fun ge => ?_
      rcases Prod.Lex.toLex_le_toLex.mp le with earlier | ⟨-, number⟩
      · have late := inOrder.mono b (of_mem_ready bInside).1 a
          (of_mem_ready aInside).1 sameSrc.symm sameDst.symm ge
        exact absurd late (not_le.mpr earlier)
      · exact differ (le_antisymm number ge)

/-- Where the delay of a message depends on its link only and the clock is not moved back, each link
is a queue: its messages are handed out in the order in which they were sent. -/
theorem links_are_fifo {inj : Injector} {latency : NodeID → NodeID → Int}
    (steady : ∀ src dst rng, (inj.delay src dst rng).1 = latency src dst) (rng : Source) (now : Int)
    {ops : List Op} (forward : ∀ d, .advance d ∈ ops → 0 ≤ d) :
    (run inj rng now ops).handed.Pairwise fun a b =>
      a.src = b.src → a.dst = b.dst → a.id < b.id := by
  have inOrder : InOrder latency (run inj rng now ops) := by
    induction ops using reverseRecOn with
    | nil => exact ⟨nofun, nofun, nofun, .nil⟩
    | append_singleton ops op ih =>
      have before := ih fun d inside => forward d (mem_append_left _ inside)
      rw [run, foldl_concat, ← run]
      refine before.step steady (fun d isOp => forward d ?_) (conserved_run _ _ _ _)
        (effect_step _ op)
      rw [isOp]
      exact mem_append_right _ (mem_singleton_self _)
  exact inOrder.sorted

theorem links_are_fifo_twice :
    (run nopInjector ⟨0⟩ 0 [.addNode "a", .send "a" "a" [], .advance 1, .send "a" "a" [],
      .deliver "a"]).handed.Pairwise fun a b => a.src = b.src → a.dst = b.dst → a.id < b.id :=
  links_are_fifo (fun _ _ _ => rfl : ∀ a b s, (nopInjector.delay a b s).1 = 0) ⟨0⟩ 0 (by simp)

theorem pending_deliverAll (h : History) (dsts : List NodeID) :
    ((dsts.map Op.deliver).foldl (step inj) h).pending =
      h.pending.filter fun m => !dsts.any (h.isReady · m) := by
  induction dsts generalizing h with
  | nil => simp
  | cons dst dsts ih =>
    refine (ih _).trans ?_
    show (h.deliver dst).2.pending.filter _ = _
    rw [pending_deliver, filter_filter]
    refine filter_congr fun m _ => ?_
    rw [any_cons, Bool.not_or, Bool.and_comm]
    rfl

/-- When the clock has passed the time of all messages that wait and their receivers have asked,
all messages that were accepted and not dropped have been handed out. -/
theorem drained (inj : Injector) (rng : Source) (now t : Int) {ops : List Op} {dsts : List NodeID}
    (later : (run inj rng now ops).now ≤ t)
    (due : ∀ m ∈ (run inj rng now ops).pending, m.deliverAt ≤ t ∧ m.dst ∈ dsts) :
    let h := run inj rng now (ops ++ .advanceTo t :: dsts.map .deliver)
    h.pending = [] ∧ (h.handed.map (·.accepted)).Perm (h.sent.filter (!·.2.2.2.2)) := by
  intro h
  have empty : h.pending = [] := by
    simp only [h, run, foldl_append, foldl_cons]
    rw [pending_deliverAll, ← run]
    simp only [step, Network.step, not_lt.mpr later, if_false]
    refine filter_eq_nil_iff.mpr fun m inside => ?_
    obtain ⟨inTime, asked⟩ := due m inside
    simpa [isReady, inTime] using asked
  have conserved : h.Conserved := conserved_run inj rng now _
  refine ⟨empty, ?_⟩
  have kept := conserved.places.filter (!·.2.2.2.2)
  rw [empty, nil_append, filter_map] at kept
  rw [conserved.handed]
  exact kept

theorem drained_single : (run nopInjector ⟨0⟩ 0 ([.addNode "a", .send "a" "a" []] ++
      .advanceTo 1 :: ["a"].map .deliver)).pending = [] :=
  (drained nopInjector ⟨0⟩ 0 1 (by decide) (by decide)).1

end History

end OpenThesis.Network
