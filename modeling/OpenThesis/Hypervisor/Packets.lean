import Mathlib.Data.List.ReduceOption
import Mathlib.Data.List.Sort
import Mathlib.Data.Prod.Lex
import OpenThesis.Explorer.Coverage

/-!
# The packet queue

`DpqQueue` of `deploy/firecracker-patches/reference/server-dst-src/net.rs`.
-/

namespace OpenThesis.Hypervisor

open List

open Explorer (fnvMix fnvOffset64)

abbrev Packet := List UInt8 × Int64

structure DpqEntry where
  data : List UInt8
  vtime : Int64
  hash : UInt64
  seq : UInt64

/-- The queue of packets that wait. -/
structure DpqQueue where
  entries : List DpqEntry
  seq : UInt64

def hashData (data : List UInt8) : UInt64 :=
  data.foldl fnvMix fnvOffset64

namespace DpqEntry

def key (e : DpqEntry) : ℤ ×ₗ ℕ ×ₗ ℕ :=
  toLex (e.vtime.toInt, toLex (e.hash.toNat, e.seq.toNat))

def packet (e : DpqEntry) : Packet :=
  (e.data, e.vtime)

end DpqEntry

/-- The order of two packets as far as it does not depend on their arrival. -/
def rank (p : Packet) : ℤ ×ₗ ℕ :=
  toLex (p.2.toInt, (hashData p.1).toNat)

namespace DpqQueue

def enqueue (q : DpqQueue) (p : Packet) : DpqQueue where
  entries := q.entries ++ [⟨p.1, p.2, hashData p.1, q.seq + 1⟩]
  seq := q.seq + 1

def drain (q : DpqQueue) : List DpqEntry × DpqQueue :=
  (q.entries.mergeSort (·.key ≤ ·.key), { q with entries := [] })

def enqueueAll (seq : UInt64) (packets : List Packet) : DpqQueue :=
  packets.foldl enqueue ⟨[], seq⟩

section

variable (seq : UInt64) (packets : List Packet)

include seq packets

theorem entries_enqueueAll :
    (enqueueAll seq packets).entries.map (·.packet) = packets ∧
      ∀ e ∈ (enqueueAll seq packets).entries, e.hash = hashData e.data := by
  induction packets using reverseRecOn with
  | nil => exact ⟨rfl, nofun⟩
  | append_singleton packets p ih =>
    rw [enqueueAll, foldl_concat, ← enqueueAll, enqueue]
    constructor
    · rw [map_append, ih.1]
      rfl
    · intro e inside
      rcases mem_append.mp inside with before | last
      · exact ih.2 e before
      · rw [mem_singleton.mp last]

theorem drain_perm : ((enqueueAll seq packets).drain.1.map (·.packet)).Perm packets := by
  have all := (mergeSort_perm (enqueueAll seq packets).entries (·.key ≤ ·.key)).map
    (·.packet)
  rwa [(entries_enqueueAll seq packets).1] at all

theorem drain_sorted :
    ((enqueueAll seq packets).drain.1.map (·.packet)).Pairwise (rank · ≤ rank ·) := by
  have sorted : (enqueueAll seq packets).drain.1.Pairwise fun a b => decide (a.key ≤ b.key) :=
    pairwise_mergeSort (by simpa using fun a b c => le_trans)
      (by simpa using fun a b => le_total _ _) _
  rw [pairwise_map]
  refine sorted.imp_of_mem fun {a b} aInside bInside le => ?_
  have isHash {e : DpqEntry} (inside : e ∈ (enqueueAll seq packets).drain.1) :
      rank e.packet = toLex (e.vtime.toInt, e.hash.toNat) := by
    rw [(entries_enqueueAll seq packets).2 e (mem_mergeSort.mp inside)]
    rfl
  rw [isHash aInside, isHash bInside, Prod.Lex.toLex_le_toLex]
  rcases Prod.Lex.toLex_le_toLex.mp (of_decide_eq_true le) with earlier | ⟨same, later⟩
  · exact .inl earlier
  · exact .inr ⟨same, (Prod.Lex.toLex_le_toLex.mp later).elim le_of_lt fun ⟨equal, _⟩ => equal.le⟩

end

theorem drain_of_perm {packets packets' : List Packet} (perm : packets.Perm packets')
    (distinct : ∀ p ∈ packets, ∀ p' ∈ packets, p.2 = p'.2 → hashData p.1 = hashData p'.1 → p = p')
    (seq seq' : UInt64) : (enqueueAll seq packets).drain.1.map (·.packet) =
      (enqueueAll seq' packets').drain.1.map (·.packet) := by
  refine Perm.eq_of_pairwise ?_ (drain_sorted seq packets) (drain_sorted seq' packets')
    (((drain_perm seq packets).trans perm).trans (drain_perm seq' packets').symm)
  intro p p' inside inside' le ge
  obtain ⟨time, hash⟩ := Prod.mk.inj (toLex.injective (le_antisymm le ge))
  exact distinct p ((drain_perm seq packets).subset inside) p'
    (perm.symm.subset ((drain_perm seq' packets').subset inside')) (Int64.toInt_inj.mp time)
    (UInt64.toNat_inj.mp hash)

/-- The packets come out in the order of their times. The order in which they arrive does not show
if no two different packets have the same time and hash. -/
theorem drain_deterministic (packets : List Packet) (seq : UInt64) :
    let drained := (enqueueAll seq packets).drain
    (drained.1.map (·.packet)).Perm packets ∧
      (drained.1.map (·.vtime)).Pairwise (· ≤ ·) ∧ drained.2.entries = [] ∧
      ∀ packets' seq', packets.Perm packets' →
        (∀ p ∈ packets, ∀ p' ∈ packets, p.2 = p'.2 → hashData p.1 = hashData p'.1 → p = p') →
          drained.1.map (·.data) = (enqueueAll seq' packets').drain.1.map (·.data) := by
  refine ⟨drain_perm seq packets, ?_, rfl, fun packets' seq' perm distinct => ?_⟩
  · have sorted := pairwise_map.mp (drain_sorted seq packets)
    refine pairwise_map.mpr (sorted.imp fun le => Int64.le_iff_toInt_le.mpr ?_)
    exact Prod.Lex.monotone_fst _ _ le
  · have data := congrArg (List.map Prod.fst) (drain_of_perm perm distinct seq seq')
    rwa [map_map, map_map] at data

theorem drain_deterministic_two :
    (enqueueAll 0 [([1], 5), ([2], 5)]).drain.1.map (·.data) =
      (enqueueAll 0 [([2], 5), ([1], 5)]).drain.1.map (·.data) :=
  (drain_deterministic [([1], 5), ([2], 5)] 0).2.2.2 _ 0 (.swap _ _ _) (by decide)

def reset (_ : DpqQueue) : DpqQueue :=
  ⟨[], 0⟩

/-- `none` drains and resets; the drained entries are kept. -/
def step (s : DpqQueue × List DpqEntry) : Option Packet → DpqQueue × List DpqEntry
  | some p => (s.1.enqueue p, s.2)
  | none => (s.1.drain.2.reset, s.2 ++ s.1.drain.1)

/-- However the calls alternate, no packet is lost, doubled or changed. -/
theorem packets_conserved (seq : UInt64) (ops : List (Option Packet)) :
    let s := ops.foldl step (⟨[], seq⟩, [])
    ((s.2 ++ s.1.entries).map (·.packet)).Perm ops.reduceOption := by
  induction ops using reverseRecOn with
  | nil => exact .nil
  | append_singleton ops op ih =>
    rw [foldl_concat, reduceOption_append]
    cases op with
    | none =>
      refine Perm.trans ?_ (ih.trans (.of_eq (append_nil _).symm))
      rw [step, drain, reset, append_nil]
      exact ((mergeSort_perm _ _).append_left _).map _
    | some p =>
      dsimp only [step, enqueue]
      rw [← append_assoc, map_append]
      exact ih.append_right [p]

end DpqQueue

end OpenThesis.Hypervisor
