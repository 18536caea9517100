import Mathlib.Data.List.ReduceOption
import OpenThesis.Lines.Core

/-!
# Draining the output file

On gVisor the orchestrator reads on in the output file of the guest from where it stopped
(`internal/orchestrator/explore.go`).
-/

namespace OpenThesis.Orchestrator

open Lines List

structure OutputData where
  container : String
  filename : String
  data : List UInt8
  deriving DecidableEq, Repr

structure GVisorOutput where
  gvisorOutputPath : String
  gvisorOutputOffset : Nat := 0
  gvisorOutputRemainder : List UInt8 := []
  deriving DecidableEq, Repr

def newline : UInt8 := 10

namespace GVisorOutput

def drainGVisorOutput (o : GVisorOutput) (file : Option (List UInt8)) :
    List OutputData × GVisorOutput :=
  if o.gvisorOutputPath = "" then ([], o)
  else
    match file with
    | none => ([], o)
    | some contents =>
      if contents.length ≤ o.gvisorOutputOffset then ([], o)
      else
        let chunk := o.gvisorOutputRemainder ++ contents.drop o.gvisorOutputOffset
        let pieces := chunk.splitOn newline
        let last := pieces.getLastD []
        let (lines, remainder) := if last ≠ [] then (pieces.dropLast, last) else (pieces, [])
        let outputs := (lines.filter (· ≠ [])).map fun line =>
          { container := "guest", filename := "sdk.jsonl", data := line }
        (outputs,
          { o with
            gvisorOutputOffset := contents.length
            gvisorOutputRemainder := remainder })

def drainNext (drained : List OutputData × GVisorOutput) (file : Option (List UInt8)) :
    List OutputData × GVisorOutput :=
  let next := drained.2.drainGVisorOutput file
  (drained.1 ++ next.1, next.2)

def drainAll (o : GVisorOutput) (files : List (Option (List UInt8))) :
    List OutputData × GVisorOutput :=
  files.foldl drainNext ([], o)

variable {o : GVisorOutput} {stream : List UInt8}

theorem drainGVisorOutput_unreadable : o.drainGVisorOutput none = ([], o) := by
  unfold drainGVisorOutput
  split <;> rfl

theorem drainGVisorOutput_of_length_le {contents : List UInt8}
    (short : contents.length ≤ o.gvisorOutputOffset) :
    o.drainGVisorOutput (some contents) = ([], o) := by
  unfold drainGVisorOutput
  split
  · rfl
  · exact if_pos short

theorem drainGVisorOutput_of_framed {contents : List UInt8} {lines : List (List UInt8)}
    {rest : List UInt8} (opened : o.gvisorOutputPath ≠ "")
    (longer : o.gvisorOutputOffset < contents.length)
    (framed : Framed newline
      (o.gvisorOutputRemainder ++ contents.drop o.gvisorOutputOffset) lines rest) :
    o.drainGVisorOutput (some contents) =
      ((lines.filter (· ≠ [])).map fun line =>
          { container := "guest", filename := "sdk.jsonl", data := line },
        { o with
          gvisorOutputOffset := contents.length
          gvisorOutputRemainder := rest }) := by
  unfold drainGVisorOutput
  rw [if_neg opened]
  dsimp only
  rw [if_neg (Nat.not_le.mpr longer), framed.splitOn_eq, getLastD_concat, dropLast_concat]
  by_cases complete : rest = []
  · -- The last piece is empty and is filtered out like any empty line.
    simp [complete]
  · rw [if_pos complete]

/-- The outputs are the lines of the first `seen` bytes, and the unfinished line after them is
carried. -/
structure CaughtUp (stream : List UInt8) (seen : Nat) (drained : List OutputData × GVisorOutput) :
    Prop where
  opened : drained.2.gvisorOutputPath ≠ ""
  offset_eq : drained.2.gvisorOutputOffset = (stream.take seen).length
  emitted : ∃ lines,
    Framed newline (stream.take seen) lines drained.2.gvisorOutputRemainder ∧
      drained.1.map (·.data) = lines.filter (· ≠ [])

theorem caughtUp_open {path : String} (opened : path ≠ "") :
    CaughtUp stream 0 ([], { gvisorOutputPath := path }) where
  opened := opened
  offset_eq := by simp
  emitted := ⟨[], by simpa using Framed.nil, rfl⟩

variable {drained : List OutputData × GVisorOutput} {points : List (Option Nat)}

theorem CaughtUp.unreadable {seen : Nat} (caughtUp : CaughtUp stream seen drained) :
    CaughtUp stream seen (drainNext drained none) := by
  unfold drainNext
  rw [drainGVisorOutput_unreadable]
  dsimp only
  rw [append_nil]
  exact caughtUp

theorem CaughtUp.read {seen seen' : Nat} (caughtUp : CaughtUp stream seen drained)
    (grows : seen ≤ seen') :
    CaughtUp stream seen' (drainNext drained (some (stream.take seen'))) := by
  obtain ⟨outputs, o⟩ := drained
  obtain ⟨opened, offset, lines, framed, emitted⟩ := caughtUp
  dsimp only at opened offset framed emitted
  obtain ⟨more, longer⟩ : stream.take seen <+: stream.take seen' :=
    take_prefix_take_left grows
  unfold drainNext
  dsimp only
  cases Nat.lt_or_ge o.gvisorOutputOffset (stream.take seen').length with
  | inl new =>
    obtain ⟨lines', rest, framed'⟩ :=
      exists_framed newline
        (o.gvisorOutputRemainder ++ (stream.take seen').drop o.gvisorOutputOffset)
    rw [drainGVisorOutput_of_framed opened new framed']
    have dropped : (stream.take seen').drop o.gvisorOutputOffset = more := by
      rw [offset, ← longer, drop_left]
    rw [dropped] at framed'
    refine ⟨opened, rfl, lines ++ lines', longer ▸ framed.append framed', ?_⟩
    rw [map_append, emitted, filter_append, map_map]
    congr 1
    exact map_id _
  | inr old =>
    have same : stream.take seen' = stream.take seen := by
      have fits := congrArg List.length longer
      rw [length_append] at fits
      rw [offset] at old
      have nothing : more = [] := eq_nil_of_length_eq_zero (by omega)
      rw [← longer, nothing, append_nil]
    rw [drainGVisorOutput_of_length_le old, append_nil]
    exact ⟨opened, same ▸ offset, lines, same ▸ framed, emitted⟩

theorem CaughtUp.readAll {seen : Nat} (caughtUp : CaughtUp stream seen drained)
    (grows : (seen :: points.reduceOption).Pairwise (· ≤ ·)) :
    CaughtUp stream (points.reduceOption.getLastD seen)
      ((points.map (Option.map stream.take)).foldl drainNext drained) := by
  induction points generalizing seen drained with
  | nil => exact caughtUp
  | cons point points ih =>
    cases point with
    | none => exact ih caughtUp.unreadable grows
    | some seen' =>
      rw [reduceOption_cons_of_some, pairwise_cons] at grows
      rw [reduceOption_cons_of_some, getLastD_cons]
      exact ih (caughtUp.read (grows.1 seen' mem_cons_self)) grows.2

theorem caughtUp_drainAll {path : String} (opened : path ≠ "") (stream : List UInt8)
    (growing : points.reduceOption.Pairwise (· ≤ ·)) :
    CaughtUp stream (points.reduceOption.getLastD 0)
      (drainAll { gvisorOutputPath := path } (points.map (Option.map stream.take))) :=
  (caughtUp_open opened).readAll (pairwise_cons.mpr ⟨fun _ _ => Nat.zero_le _, growing⟩)

theorem drainAll_independent_of_cuts {path : String} (opened : path ≠ "")
    {points' : List (Option Nat)} (growing : points.reduceOption.Pairwise (· ≤ ·))
    (growing' : points'.reduceOption.Pairwise (· ≤ ·))
    (sameLast : points.reduceOption.getLastD 0 = points'.reduceOption.getLastD 0) :
    (drainAll { gvisorOutputPath := path } (points.map (Option.map stream.take))).1.map (·.data) =
      (drainAll { gvisorOutputPath := path } (points'.map (Option.map stream.take))).1.map
        (·.data) := by
  obtain ⟨_, _, _, framed, emitted⟩ := caughtUp_drainAll opened stream growing
  obtain ⟨_, _, _, framed', emitted'⟩ := caughtUp_drainAll opened stream growing'
  rw [emitted, emitted', (framed.unique (sameLast ▸ framed')).1]

/-- However the reads cut the stream, they emit the non-empty terminated lines of what was visible
last, and carry the rest. -/
theorem drainAll_emits_terminated_lines {path : String} (opened : path ≠ "")
    (stream : List UInt8) (points : List (Option Nat))
    (growing : points.reduceOption.Pairwise (· ≤ ·)) :
    ∃ lines rest, Framed newline (stream.take (points.reduceOption.getLastD 0)) lines rest ∧
      (drainAll { gvisorOutputPath := path } (points.map (Option.map stream.take))).1.map
          (·.data) = lines.filter (· ≠ []) ∧
      (drainAll { gvisorOutputPath := path }
          (points.map (Option.map stream.take))).2.gvisorOutputRemainder = rest := by
  obtain ⟨_, _, lines, framed, emitted⟩ := caughtUp_drainAll opened stream growing
  exact ⟨lines, _, framed, emitted, rfl⟩

theorem drainAll_emits_terminated_lines_cut :
    ∃ lines rest, Framed newline [97, 10, 10, 98] lines rest ∧
      (drainAll { gvisorOutputPath := "out" }
          [some [97], none, some [97, 10, 10, 98]]).1.map (·.data) = lines.filter (· ≠ []) ∧
      (drainAll { gvisorOutputPath := "out" }
          [some [97], none, some [97, 10, 10, 98]]).2.gvisorOutputRemainder = rest :=
  drainAll_emits_terminated_lines (by decide) [97, 10, 10, 98, 99] [some 1, none, some 4]
    (by decide)

end GVisorOutput

end OpenThesis.Orchestrator
