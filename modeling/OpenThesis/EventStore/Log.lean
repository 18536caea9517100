import OpenThesis.Json.Decode
import OpenThesis.Json.Nesting
import OpenThesis.Lines.Core

/-!
# The event log across restarts

Events as lines of JSON in a file (`EventStore`), of which a crash leaves a prefix. Errors of the
file system are left out; how an event is written and which numbers fit a `float64` are parameters.
-/

namespace OpenThesis

open Text Json.Text List

/-- The file, and lines not yet written. -/
structure EventStore where
  disk : Bytes
  buffer : Bytes := []

namespace EventStore

def newline : UInt8 := byte '\n'

/-- An event of the log. -/
structure Event where
  vTimeNS : UInt64 := 0
  snapshotID : UInt64 := 0
  step : UInt64 := 0
  container : String := ""
  type : String := ""
  payload : Option (Std.ExtTreeMap String Value) := none

def bufferSize : Nat := 64 * 1024

def openFile (disk : Bytes) : EventStore where
  disk

def flush (s : EventStore) : EventStore where
  disk := s.disk ++ s.buffer

def write (s : EventStore) (data : Bytes) : EventStore :=
  let available := bufferSize - s.buffer.length
  if data.length ≤ available then { s with buffer := s.buffer ++ data }
  else if s.buffer = [] then { s with disk := s.disk ++ data }
  else
    let disk := s.disk ++ (s.buffer ++ data.take available)
    let rest := data.drop available
    if rest.length ≤ bufferSize then ⟨disk, rest⟩ else ⟨disk ++ rest, []⟩

def writeByte (s : EventStore) (b : UInt8) : EventStore :=
  let s := if bufferSize - s.buffer.length = 0 then s.flush else s
  { s with buffer := s.buffer ++ [b] }

def append (marshal : Event → Bytes) (s : EventStore) (e : Event) : EventStore :=
  (s.write (marshal e)).writeByte newline

structure Filter where
  upTo : UInt64 := 0
  types : List String := []
  container : String := ""
  snapshotID : UInt64 := 0
  fromStep : UInt64 := 0
  limit : Int64 := 0

def Filter.matches (f : Filter) (e : Event) : Bool :=
  !(f.upTo ≠ 0 && e.vTimeNS > f.upTo) && !(f.types ≠ [] && !f.types.contains e.type) &&
    !(f.container ≠ "" && e.container ≠ f.container) &&
    !(f.snapshotID ≠ 0 && e.snapshotID ≠ f.snapshotID) &&
    !(f.fromStep ≠ 0 && e.step < f.fromStep)

def maxNestingDepth : Nat := 10000

section

variable (fits : Bytes → Bool)

def eventFields : List (RecordField Event) :=
  [.of "vtime_ns" Value.uint64? fun e vTimeNS => { e with vTimeNS },
    .of "snapshot_id" Value.uint64? fun e snapshotID => { e with snapshotID },
    .of "step" Value.uint64? fun e step => { e with step },
    .of "container" Value.string? fun e container => { e with container },
    .of "type" Value.string? fun e type => { e with type },
    .ofMap "payload" (Value.any? fits) (·.payload) fun e payload => { e with payload }]

def unmarshal (line : Bytes) : Option Event :=
  (scan maxNestingDepth line).bind (decodeRecord (eventFields fits) {})

def scanLines (f : Filter) : List Bytes → List Event → List Event
  | [], out => out
  | line :: lines, out =>
    if line = [] then scanLines f lines out
    else
      match unmarshal fits line with
      | none => scanLines f lines out
      | some e =>
        if f.matches e then
          if f.limit > 0 ∧ f.limit.toInt ≤ (out ++ [e]).length then out ++ [e]
          else scanLines f lines (out ++ [e])
        else scanLines f lines out

def query (file : Option Bytes) (f : Filter) : List Event :=
  match file with
  | none => []
  | some disk => scanLines fits f (disk.splitOn newline) []

end

def content (s : EventStore) : Bytes :=
  s.disk ++ s.buffer

theorem content_write (s : EventStore) (data : Bytes) :
    (s.write data).content = s.content ++ data := by
  simp only [write, content]
  split_ifs with fitting empty small
  · rw [append_assoc]
  · simp [empty]
  · simp [append_assoc, take_append_drop]
  · simp [append_assoc, take_append_drop]

theorem content_writeByte (s : EventStore) (b : UInt8) :
    (s.writeByte b).content = s.content ++ [b] := by
  simp only [writeByte, content]
  split_ifs with full
  · simp [flush]
  · rw [append_assoc]

theorem content_append (marshal : Event → Bytes) (s : EventStore) (e : Event) :
    (s.append marshal e).content = s.content ++ (marshal e ++ [newline]) := by
  rw [append, content_writeByte, content_write, append_assoc]

theorem content_foldl_append (marshal : Event → Bytes) (s : EventStore) (events : List Event) :
    (events.foldl (append marshal) s).content =
      s.content ++ Lines.written newline marshal events := by
  induction events generalizing s with
  | nil => simp [Lines.written]
  | cons e events ih =>
    rw [foldl_cons, ih, content_append, append_assoc]
    rfl

def extend (marshal : Event → Bytes) (disk : Bytes) (events : List Event) : Bytes :=
  (events.foldl (append marshal) (openFile disk)).flush.disk

def crash (marshal : Event → Bytes) (disk : Bytes) (events : List Event) (kept : Nat) : Bytes :=
  (events.foldl (append marshal) (openFile disk)).content.take kept

theorem extend_eq (marshal : Event → Bytes) (disk : Bytes) (events : List Event) :
    extend marshal disk events = disk ++ Lines.written newline marshal events := by
  have whole := content_foldl_append marshal (openFile disk) events
  have opened : (openFile disk).content = disk := append_nil disk
  rw [opened] at whole
  exact whole

theorem crash_eq (marshal : Event → Bytes) (disk : Bytes) (events : List Event) (kept : Nat) :
    crash marshal disk events kept = (disk ++ Lines.written newline marshal events).take kept := by
  rw [← extend_eq]
  rfl

section

variable (fits : Bytes → Bool)

theorem unmarshal_nil : unmarshal fits [] = none :=
  rfl

theorem filterMap_emptyLine : [[]].filterMap (unmarshal fits) = [] :=
  rfl

def Filter.capped (f : Filter) (events : List Event) : List Event :=
  if f.limit > 0 then events.take f.limit.toInt.toNat else events

theorem scanLines_eq (f : Filter) (lines : List Bytes) (out : List Event)
    (room : f.limit > 0 → out.length < f.limit.toInt.toNat) : scanLines fits f lines out =
      f.capped (out ++ (lines.filterMap (unmarshal fits)).filter f.matches) := by
  fun_induction scanLines fits f lines out with
  | case1 out =>
    rw [filterMap_nil, filter_nil, append_nil, Filter.capped]
    split_ifs with limited
    · exact (take_of_length_le (room limited).le).symm
    · rfl
  | case2 lines out ih => rw [ih room, filterMap_cons, unmarshal_nil]
  | case3 line lines out _ unread ih => rw [ih room, filterMap_cons, unread]
  | case4 line lines out _ e read found full =>
    have length : (out ++ [e]).length = f.limit.toInt.toNat := by
      have less := room full.1
      have enough := full.2
      rw [length_append, length_singleton] at enough ⊢
      omega
    rw [filterMap_cons, read, filter_cons_of_pos found, Filter.capped, if_pos full.1]
    exact ((congrArg _ (append_cons ..)).trans (take_left' length)).symm
  | case5 line lines out _ e read found more ih =>
    rw [ih fun limited => ?_, append_assoc, filterMap_cons, read,
      filter_cons_of_pos found, singleton_append]
    have fewer : ¬ f.limit.toInt ≤ (out ++ [e]).length := fun enough => more ⟨limited, enough⟩
    omega
  | case6 line lines out _ e read other ih =>
    rw [ih room, filterMap_cons, read, filter_cons_of_neg other]

def logged (file : Option Bytes) : List Event :=
  file.elim [] fun disk => (disk.splitOn newline).filterMap (unmarshal fits)

theorem query_eq (file : Option Bytes) (f : Filter) :
    query fits file f = f.capped ((logged fits file).filter f.matches) := by
  cases file with
  | none => simp [query, logged, Filter.capped]
  | some disk =>
    refine scanLines_eq fits f _ [] fun limited => ?_
    have positive : 0 < f.limit.toInt := Int64.lt_iff_toInt_lt.mp limited
    rw [length_nil]
    omega

theorem query_all (disk : Bytes) :
    query fits (some disk) {} = (disk.splitOn newline).filterMap (unmarshal fits) := by
  rw [query_eq, Filter.capped, if_neg (by decide)]
  exact filter_eq_self.mpr fun _ _ => rfl

def tornLine (disk : Bytes) : Bytes :=
  (disk.splitOn newline).getLastD []

def completeEvents (disk : Bytes) : List Event :=
  (disk.splitOn newline).dropLast.filterMap (unmarshal fits)

end

/-- How an event is written: as one line that can be read back, with the time first. -/
structure WrittenAs (fits : Bytes → Bool) (e : Event) (line : Bytes) : Prop where
  begins : bytes "\x7b\"vtime_ns\":" <+: line
  oneLine : newline ∉ line
  reads : unmarshal fits line = some e

def Started (disk : Bytes) : Prop :=
  ∀ line ∈ disk.splitOn newline, line = [] ∨ line.head? = some brace

section

variable {fits : Bytes → Bool} {marshal : Event → Bytes} {disk : Bytes}

theorem tornLine_eq {lines : List Bytes} {rest : Bytes}
    (framed : Lines.Framed newline disk lines rest) : tornLine disk = rest := by
  rw [tornLine, framed.splitOn_eq, getLastD_concat]

theorem completeEvents_eq {lines : List Bytes} {rest : Bytes}
    (framed : Lines.Framed newline disk lines rest) :
    completeEvents fits disk = lines.filterMap (unmarshal fits) := by
  rw [completeEvents, framed.splitOn_eq, dropLast_concat]

theorem marshal_eq_cons {e : Event} (line : WrittenAs fits e (marshal e)) :
    ∃ c rest, Ordinary c ∧ marshal e = brace :: quote :: c :: rest := by
  obtain ⟨rest, written⟩ := line.begins
  refine ⟨byte 'v', _, ?_, written.symm⟩
  constructor
  all_goals decide

variable {events : List Event}

theorem started_append (started : Started disk)
    (lines : ∀ e ∈ events, WrittenAs fits e (marshal e)) :
    Started (disk ++ Lines.written newline marshal events) := by
  cases events with
  | nil => simpa [Lines.written] using started
  | cons first more =>
    obtain ⟨old, torn, framed⟩ := Lines.exists_framed newline disk
    have free : ∀ e ∈ first :: more, newline ∉ marshal e := fun e mem => (lines e mem).oneLine
    rw [Started, framed.splitOn_eq] at started
    rw [Started, (framed.append_written free).splitOn_eq]
    rw [forall_mem_append, forall_mem_singleton] at started
    have begins : ∀ e ∈ first :: more, (marshal e).head? = some brace := by
      intro e mem
      obtain ⟨c, rest, _, written⟩ := marshal_eq_cons (lines e mem)
      rw [written]
      rfl
    rw [forall_mem_cons] at begins
    simp only [forall_mem_append, forall_mem_cons, forall_mem_map]
    refine ⟨⟨started.1, ?_, fun e mem => .inr (begins.2 e mem)⟩, by simp⟩
    rcases started.2 with rfl | torn
    · exact .inr begins.1
    · exact .inr (by rw [head?_append, torn]; rfl)

theorem started_take (started : Started disk) (kept : Nat) : Started (disk.take kept) := by
  obtain ⟨lines, rest, framed⟩ := Lines.exists_framed newline (disk.take kept)
  obtain ⟨lines', rest', whole⟩ := Lines.exists_framed newline disk
  rw [Started, whole.splitOn_eq] at started
  rw [Started, framed.splitOn_eq]
  have split := whole
  rw [← take_append_drop kept disk] at split
  obtain ⟨subset, line, mem, begins⟩ := framed.of_append split
  rw [forall_mem_append, forall_mem_singleton]
  constructor
  · intro complete inside
    exact started complete (mem_append_left _ (subset complete inside))
  · -- The torn line is the beginning of a line of the whole file.
    cases rest with
    | nil => exact .inl rfl
    | cons first rest =>
      obtain ⟨tail, rfl⟩ := begins
      simpa using started _ mem

theorem unmarshal_torn {torn : Bytes} (begins : torn.head? = some brace) {e : Event}
    (line : WrittenAs fits e (marshal e)) : unmarshal fits (torn ++ marshal e) = none := by
  obtain ⟨c, rest, ordinary, written⟩ := marshal_eq_cons line
  have reads := line.reads
  rw [unmarshal, Option.bind_eq_some_iff, written] at reads
  obtain ⟨value, object, _⟩ := reads
  cases torn with
  | nil => cases begins
  | cons b torn =>
    cases begins
    rw [unmarshal, written, scan_append_object ordinary object]
    rfl

theorem filterMap_marshal (lines : ∀ e ∈ events, WrittenAs fits e (marshal e)) :
    (events.map marshal).filterMap (unmarshal fits) = events := by
  rw [filterMap_map]
  induction events with
  | nil => rfl
  | cons e events ih =>
    rw [forall_mem_cons] at lines
    rw [filterMap_cons, Function.comp_apply, lines.1.reads, ih lines.2]

theorem query_extend_iff (started : Started disk) {later : List Event}
    (lines : ∀ e ∈ later, WrittenAs fits e (marshal e)) :
    query fits (some (extend marshal disk later)) {} = completeEvents fits disk ++ later ↔
      tornLine disk = [] ∨ later = [] ∧ unmarshal fits (tornLine disk) = none := by
  obtain ⟨old, torn, framed⟩ := Lines.exists_framed newline disk
  rw [query_all, extend_eq, tornLine_eq framed, completeEvents_eq framed]
  cases later with
  | nil =>
    rw [Lines.written, flatMap_nil, append_nil, framed.splitOn_eq,
      filterMap_append, append_right_inj, filterMap_cons, filterMap_nil]
    constructor
    · intro nothing
      refine .inr ⟨rfl, ?_⟩
      cases read : unmarshal fits torn with
      | none => rfl
      | some e =>
        rw [read] at nothing
        cases nothing
    · rintro (rfl | ⟨_, unreadable⟩)
      · rfl
      · rw [unreadable]
  | cons first more =>
    have free : ∀ e ∈ first :: more, newline ∉ marshal e := fun e mem => (lines e mem).oneLine
    rw [forall_mem_cons] at lines
    rw [Started, framed.splitOn_eq, forall_mem_append, forall_mem_singleton] at started
    rw [(framed.append_written free).splitOn_eq, filterMap_append, filterMap_append,
      append_assoc, append_right_inj, filterMap_cons, filterMap_marshal lines.2,
      filterMap_emptyLine, append_nil]
    constructor
    · intro found
      rcases started.2 with empty | begins
      · exact .inl empty
      · -- The first new event is lost, so there is one event less.
        rw [unmarshal_torn begins lines.1] at found
        have lengths : more.length = (first :: more).length := congrArg List.length found
        simp at lengths
    · rintro (rfl | ⟨none, _⟩)
      · rw [nil_append, lines.1.reads]
      · cases none

def restarts (marshal : Event → Bytes) (sessions : List (List Event × Nat)) : Bytes :=
  sessions.foldl (fun disk session => crash marshal disk session.1 session.2) []

theorem started_crash (started : Started disk)
    (lines : ∀ e ∈ events, WrittenAs fits e (marshal e)) (kept : Nat) :
    Started (crash marshal disk events kept) := by
  rw [crash_eq]
  exact started_take (started_append started lines) kept

section

variable {sessions : List (List Event × Nat)}
  (lines : ∀ session ∈ sessions, ∀ e ∈ session.1, WrittenAs fits e (marshal e))

include lines

theorem started_restarts : Started (restarts marshal sessions) := by
  apply foldlRecOn (motive := Started)
  · simp [Started]
  · intro disk started session mem
    exact started_crash started (lines session mem) session.2

theorem query_after_restarts_iff {later : List Event}
    (lines' : ∀ e ∈ later, WrittenAs fits e (marshal e)) :
    query fits (some (extend marshal (restarts marshal sessions) later)) {} =
        completeEvents fits (restarts marshal sessions) ++ later ↔
      tornLine (restarts marshal sessions) = [] ∨
        later = [] ∧ unmarshal fits (tornLine (restarts marshal sessions)) = none :=
  query_extend_iff (started_restarts lines) lines'

end

theorem completeEvents_crash {appended : List Event}
    (lines : ∀ e ∈ appended, WrittenAs fits e (marshal e)) (kept : Nat) :
    completeEvents fits (crash marshal [] appended kept) =
      appended.take ((crash marshal [] appended kept).count newline) := by
  have free : ∀ e ∈ appended, newline ∉ marshal e := fun e mem => (lines e mem).oneLine
  obtain ⟨complete, rest, bound, framed⟩ := Lines.exists_framed_take free kept
  rw [crash_eq, nil_append, completeEvents_eq framed, framed.count_eq, length_map,
    length_take, Nat.min_eq_left bound]
  exact filterMap_marshal fun e mem => lines e (mem_of_mem_take mem)

end

/-- After a crash and a restart, a query finds the complete events and those appended since exactly
if the crash left no torn line, or if nothing was appended since and the torn line cannot be read.
-/
theorem query_after_crash_iff (fits : Bytes → Bool) (marshal : Event → Bytes)
    (appended later : List Event) (kept : Nat)
    (lines : ∀ e ∈ appended ++ later, WrittenAs fits e (marshal e)) :
    query fits (some (extend marshal (crash marshal [] appended kept) later)) {} =
        appended.take ((crash marshal [] appended kept).count newline) ++ later ↔
      tornLine (crash marshal [] appended kept) = [] ∨
        later = [] ∧ unmarshal fits (tornLine (crash marshal [] appended kept)) = none := by
  rw [forall_mem_append] at lines
  rw [← completeEvents_crash lines.1]
  have sessions : ∀ session ∈ [(appended, kept)], ∀ e ∈ session.1,
      WrittenAs fits e (marshal e) := by
    simpa using lines.1
  exact query_after_restarts_iff sessions lines.2

def plainText (e : Event) : Bytes :=
  bytes "\x7b\"vtime_ns\":" ++ bytes (toString e.vTimeNS) ++
    bytes ",\"snapshot_id\":" ++ bytes (toString e.snapshotID) ++
    bytes ",\"step\":" ++ bytes (toString e.step) ++
    bytes ",\"type\":\"" ++ bytes e.type ++ bytes "\"\x7d"

def firstEvent : Event := { vTimeNS := 1, type := "lifecycle" }

def secondEvent : Event := { vTimeNS := 2, type := "lifecycle" }

theorem plainText_writes (fits : Bytes → Bool) : WrittenAs fits firstEvent (plainText firstEvent) ∧
      WrittenAs fits secondEvent (plainText secondEvent) :=
  ⟨⟨by decide, by decide, by rfl⟩, ⟨by decide, by decide, by rfl⟩⟩

theorem query_after_crash_at_line_end :
    query (fun _ => true) (some (extend plainText (crash plainText [] [firstEvent] 100)
        [secondEvent])) {} =
      [firstEvent].take ((crash plainText [] [firstEvent] 100).count newline) ++ [secondEvent] := by
  have writes := plainText_writes fun _ => true
  apply (query_after_crash_iff _ plainText [firstEvent] [secondEvent] 100 _).mpr
  · exact .inl (by decide)
  · simpa using writes

/-- A crash inside the first line loses the event that is appended after the restart. -/
theorem query_after_crash_in_line :
    (crash plainText [] [firstEvent] 9).count newline = 0 ∧
      ∀ fits : Bytes → Bool,
        WrittenAs fits firstEvent (plainText firstEvent) ∧
          WrittenAs fits secondEvent (plainText secondEvent) ∧
          query fits (some (extend plainText (crash plainText [] [firstEvent] 9)
            [secondEvent])) {} = [] := by
  refine ⟨by decide, ?_⟩
  intro fits
  exact ⟨(plainText_writes fits).1, (plainText_writes fits).2, rfl⟩

end EventStore

end OpenThesis
