import Mathlib.Data.List.Induction
import OpenThesis.Orchestrator.Drain

/-!
# Commands for the Rust agent

The event loop of the Rust agent (`run_event_loop` in `cmd/openthesis-init-rs/src/main.rs`) runs the
commands in the complete lines of its buffer.
-/

namespace OpenThesis.Guest

open Lines List
open Orchestrator (newline)

/-- What happens to the connection: bytes are read, it is closed, or another one is accepted. -/
inductive ConnEvent where
  | read (chunk : List UInt8)
  | closed
  | accepted

structure CommandLoop where
  lineBuf : List UInt8 := []
  dispatched : List (List UInt8) := []
  overflowed : Bool := false

def lineBufMax : Nat := 4 * 1024 * 1024

/-- The loop over the complete lines: the lines to dispatch, and what stays in the buffer. -/
def takeLines (buf : List UInt8) : List (List UInt8) × List UInt8 :=
  if newline ∈ buf then
    let pos := buf.idxOf newline
    let (lines, rest) := takeLines (buf.drop (pos + 1))
    (if 1 < pos + 1 then buf.take pos :: lines else lines, rest)
  else ([], buf)
termination_by buf.length
decreasing_by
  have inside := idxOf_lt_length_of_mem ‹newline ∈ buf›
  rw [length_drop]
  omega

namespace CommandLoop

/-- Complete lines are dispatched; a buffer that is too long is dropped. -/
def step (s : CommandLoop) : ConnEvent → CommandLoop
  | .read chunk =>
    let buf := s.lineBuf ++ chunk
    if buf.length > lineBufMax then { s with lineBuf := [], overflowed := true }
    else
      { s with lineBuf := (takeLines buf).2, dispatched := s.dispatched ++ (takeLines buf).1 }
  | .closed | .accepted => { s with lineBuf := [] }

end CommandLoop

/-- A connection: how its stream is split into reads, and whether it is closed or replaced. -/
structure Connection where
  chunks : List (List UInt8)
  closed : Bool
  sizes : ∀ chunk ∈ chunks, chunk.length ≤ 4096

namespace Connection

def events (c : Connection) : List ConnEvent :=
  c.chunks.map .read ++ [if c.closed then .closed else .accepted]

def commands (c : Connection) : List (List UInt8) :=
  (c.chunks.flatten.splitOn newline).dropLast.filter (· ≠ [])

end Connection

/-- No line with its newline is longer than the limit less one read, nor is the unfinished one. -/
def Short (stream : List UInt8) : Prop :=
  ∀ lines rest, Framed newline stream lines rest →
    (∀ line ∈ lines, line.length + 1 ≤ lineBufMax - 4096) ∧ rest.length ≤ lineBufMax - 4096

theorem takeLines_of_framed {buf rest : List UInt8} {lines : List (List UInt8)}
    (framed : Framed newline buf lines rest) : takeLines buf = (lines.filter (· ≠ []), rest) := by
  obtain ⟨rfl, linesFree, restFree⟩ := framed
  induction lines with
  | nil =>
    rw [takeLines, if_neg (by simpa using restFree)]
    rfl
  | cons line lines ih =>
    rw [forall_mem_cons] at linesFree
    rw [flatMap_cons, append_assoc, append_assoc, singleton_append, takeLines,
      if_pos (by simp), idxOf_append_of_notMem linesFree.1, idxOf_cons_self,
      Nat.add_zero]
    dsimp only
    rw [take_left, drop_length_add_append, drop_one, tail_cons, ih linesFree.2]
    cases line with
    | nil => simp
    | cons => simp

theorem Short.rest {seen more rest : List UInt8} {lines : List (List UInt8)}
    (short : Short (seen ++ more)) (framed : Framed newline seen lines rest) :
    rest.length ≤ lineBufMax - 4096 := by
  obtain ⟨lines', rest', framed'⟩ := exists_framed newline (rest ++ more)
  obtain ⟨shortLines, shortRest⟩ := short _ _ (framed.append framed')
  have stream := framed'.stream_eq
  cases lines' with
  | nil =>
    have whole := congrArg List.length stream
    simp only [flatMap_nil, nil_append, length_append] at whole
    omega
  | cons line lines' =>
    have bound := shortLines line (by simp)
    rw [flatMap_cons, append_assoc, append_assoc] at stream
    rcases append_eq_append_iff.mp stream with ⟨left, rfl, -⟩ | ⟨left, rfl, cut⟩
    · rw [length_append] at bound
      omega
    · -- a longer rest would contain the newline after the line
      cases left with
      | nil => simpa using Nat.le_of_succ_le bound
      | cons b left =>
        obtain rfl : newline = b := (cons.inj cut).1
        exact absurd framed.rest_free (by simp)

namespace CommandLoop

def run (events : List ConnEvent) : CommandLoop :=
  events.foldl step {}

/-- The buffer has the unfinished line of what was read of the connection. -/
structure Reads (s : CommandLoop) (seen : List UInt8) (before : List (List UInt8)) : Prop where
  fits : s.overflowed = false
  framed : ∃ lines, Framed newline seen lines s.lineBuf ∧
    s.dispatched = before ++ lines.filter (· ≠ [])

variable {s : CommandLoop} {before : List (List UInt8)}

theorem Reads.read {seen chunk more : List UInt8} (reads : s.Reads seen before)
    (size : chunk.length ≤ 4096) (short : Short (seen ++ more)) :
    (s.step (.read chunk)).Reads (seen ++ chunk) before := by
  obtain ⟨fits, lines, framed, dispatched⟩ := reads
  obtain ⟨lines', rest', framed'⟩ := exists_framed newline (s.lineBuf ++ chunk)
  have bound := short.rest framed
  have within : ¬ (s.lineBuf ++ chunk).length > lineBufMax := by
    rw [length_append]
    have : 4096 ≤ lineBufMax := by decide
    omega
  rw [step, if_neg within, takeLines_of_framed framed']
  refine ⟨fits, lines ++ lines', framed.append framed', ?_⟩
  rw [dispatched, filter_append, append_assoc]

theorem Reads.chunks {seen : List UInt8} (reads : s.Reads seen before)
    {chunks : List (List UInt8)} (sizes : ∀ chunk ∈ chunks, chunk.length ≤ 4096)
    (short : Short (seen ++ chunks.flatten)) :
    ((chunks.map .read).foldl step s).Reads (seen ++ chunks.flatten) before := by
  induction chunks generalizing s seen with
  | nil => simpa using reads
  | cons chunk chunks ih =>
    rw [forall_mem_cons] at sizes
    have next := reads.read sizes.1 short
    rw [flatten_cons, ← append_assoc] at short ⊢
    exact ih next sizes.2 short

theorem Reads.connection (reads : s.Reads [] before) {c : Connection}
    (short : Short c.chunks.flatten) : (c.events.foldl step s).Reads [] (before ++ c.commands) := by
  obtain ⟨fits, lines, framed, dispatched⟩ := reads.chunks c.sizes short
  have cleared : c.events.foldl step s =
      { (c.chunks.map .read).foldl step s with lineBuf := [] } := by
    rw [Connection.events, foldl_concat]
    split <;> rfl
  rw [cleared]
  refine ⟨fits, [], .nil, ?_⟩
  rw [dispatched, Connection.commands, ← nil_append c.chunks.flatten, framed.splitOn_eq,
    dropLast_concat]
  simp

/-- The commands that are run are the lines of each connection that are complete and not empty. -/
theorem commands_framed (connections : List Connection)
    (short : ∀ c ∈ connections, Short c.chunks.flatten) :
    (run (connections.flatMap Connection.events)).dispatched =
        connections.flatMap Connection.commands ∧
      (run (connections.flatMap Connection.events)).overflowed = false := by
  have reads : (run (connections.flatMap Connection.events)).Reads []
      (connections.flatMap Connection.commands) := by
    induction connections using reverseRecOn with
    | nil => exact ⟨rfl, [], .nil, rfl⟩
    | append_singleton connections c ih =>
      rw [forall_mem_append, forall_mem_singleton] at short
      rw [flatMap_append, flatMap_append, run, foldl_append, ← run,
        flatMap_singleton, flatMap_singleton]
      exact (ih short.1).connection short.2
  obtain ⟨fits, lines, framed, dispatched⟩ := reads
  have none : lines = [] := (framed.unique .nil).1
  exact ⟨by rw [dispatched, none, filter_nil, append_nil], fits⟩

-- the first connection is closed in the middle of a line
theorem commands_framed_two :
    let first : Connection := ⟨[[97], [10, 98]], true, by decide⟩
    let second : Connection := ⟨[[99, 10]], false, by decide⟩
    (run ([first, second].flatMap Connection.events)).dispatched = [[97], [99]] := by
  intro first second
  have short {c : Connection} {lines : List (List UInt8)} {rest : List UInt8}
      (whole : Framed newline c.chunks.flatten lines rest)
      (fits : (∀ line ∈ lines, line.length + 1 ≤ lineBufMax - 4096) ∧
        rest.length ≤ lineBufMax - 4096) : Short c.chunks.flatten := by
    intro lines' rest' framed
    obtain ⟨rfl, rfl⟩ := whole.unique framed
    exact fits
  have isShort : ∀ c ∈ [first, second], Short c.chunks.flatten := by
    rw [forall_mem_cons, forall_mem_singleton]
    exact ⟨@short first [[97]] [98] ⟨rfl, by decide, by decide⟩ (by decide),
      @short second [[99]] [] ⟨rfl, by decide, by decide⟩ (by decide)⟩
  exact (commands_framed [first, second] isShort).1.trans (by decide)

end CommandLoop

end OpenThesis.Guest
