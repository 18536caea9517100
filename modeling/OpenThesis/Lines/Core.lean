import Mathlib.Data.List.Basic

/-!
# Terminated lines

A stream is lines that end with a separator and a line that is not finished. Records are written as
lines and read back; writing may stop at any symbol and go on after that.
-/

namespace OpenThesis.Lines

open List

universe u v

variable {α : Type u}

/-- The stream consists of the terminated lines and the unfinished line. -/
structure Framed (sep : α) (stream : List α) (lines : List (List α)) (rest : List α) : Prop where
  stream_eq : stream = lines.flatMap (· ++ [sep]) ++ rest
  lines_free : ∀ line ∈ lines, sep ∉ line
  rest_free : sep ∉ rest

variable {sep : α} {stream : List α} {lines : List (List α)} {rest : List α}

theorem Framed.nil : Framed sep [] [] [] where
  stream_eq := rfl
  lines_free := by simp
  rest_free := by simp

theorem Framed.append {more : List α} {lines' : List (List α)} {rest' : List α}
    (framed : Framed sep stream lines rest) (framed' : Framed sep (rest ++ more) lines' rest') :
    Framed sep (stream ++ more) (lines ++ lines') rest' where
  stream_eq := by
    rw [framed.stream_eq, append_assoc, framed'.stream_eq, flatMap_append, append_assoc]
  lines_free line mem := by
    rcases mem_append.mp mem with mem | mem
    · exact framed.lines_free line mem
    · exact framed'.lines_free line mem
  rest_free := framed'.rest_free

theorem Framed.cons_sep (framed : Framed sep stream lines rest) :
    Framed sep (sep :: stream) ([] :: lines) rest where
  stream_eq := by rw [framed.stream_eq]; rfl
  lines_free line mem := by
    rcases mem_cons.mp mem with rfl | mem
    · exact not_mem_nil
    · exact framed.lines_free line mem
  rest_free := framed.rest_free

theorem exists_framed (sep : α) (stream : List α) : ∃ lines rest, Framed sep stream lines rest := by
  classical
  induction stream with
  | nil => exact ⟨[], [], .nil⟩
  | cons x stream ih =>
    obtain ⟨lines, rest, framed⟩ := ih
    by_cases same : sep = x
    · exact ⟨[] :: lines, rest, same ▸ framed.cons_sep⟩
    · -- Another symbol belongs to the first line, which may be the unfinished one.
      cases lines with
      | nil =>
        refine ⟨[], x :: rest, ?_, by simp, ?_⟩
        · rw [framed.stream_eq]; rfl
        · simpa [same] using framed.rest_free
      | cons line lines =>
        refine ⟨(x :: line) :: lines, rest, ?_, ?_, framed.rest_free⟩
        · rw [framed.stream_eq]; rfl
        · have free := framed.lines_free
          simp only [mem_cons, forall_eq_or_imp] at free ⊢
          exact ⟨not_or.mpr ⟨same, free.1⟩, free.2⟩

theorem Framed.splitOn_eq [BEq α] [LawfulBEq α] (framed : Framed sep stream lines rest) :
    stream.splitOn sep = lines ++ [rest] := by
  obtain ⟨rfl, linesFree, restFree⟩ := framed
  induction lines with
  | nil => exact splitOn_eq_singleton restFree
  | cons line lines ih =>
    rw [forall_mem_cons] at linesFree
    rw [flatMap_cons, append_assoc, append_assoc, singleton_append,
      splitOn_append_cons_self_of_not_mem linesFree.1, ih linesFree.2, cons_append]

theorem Framed.unique [BEq α] [LawfulBEq α] {lines' : List (List α)} {rest' : List α}
    (framed : Framed sep stream lines rest) (framed' : Framed sep stream lines' rest') :
    lines = lines' ∧ rest = rest' := by
  have same := framed.splitOn_eq.symm.trans framed'.splitOn_eq
  exact ⟨append_inj_left' same rfl, singleton_injective (append_inj_right' same rfl)⟩

variable {ε : Type v} {encode : ε → List α}

def written (sep : α) (encode : ε → List α) (records : List ε) : List α :=
  records.flatMap fun record => encode record ++ [sep]

theorem Framed.count_eq [BEq α] [LawfulBEq α] (framed : Framed sep stream lines rest) :
    stream.count sep = lines.length := by
  obtain ⟨rfl, linesFree, restFree⟩ := framed
  induction lines with
  | nil => simpa using count_eq_zero.mpr restFree
  | cons line lines ih =>
    rw [forall_mem_cons] at linesFree
    rw [flatMap_cons, append_assoc, count_append, ih linesFree.2]
    simp [count_eq_zero.mpr linesFree.1, Nat.add_comm]

theorem framed_written {records : List ε} (free : ∀ record ∈ records, sep ∉ encode record) :
    Framed sep (written sep encode records) (records.map encode) [] where
  stream_eq := by simp [written, flatMap_map]
  lines_free := by simpa using free
  rest_free := not_mem_nil

theorem Framed.append_written (framed : Framed sep stream lines rest) {first : ε} {more : List ε}
    (free : ∀ record ∈ first :: more, sep ∉ encode record) :
    Framed sep (stream ++ written sep encode (first :: more))
      (lines ++ (rest ++ encode first) :: more.map encode) [] := by
  apply framed.append
  rw [forall_mem_cons] at free
  have later := framed_written free.2
  constructor
  · rw [written, flatMap_cons, flatMap_cons, append_nil]
    have same : written sep encode more = (more.map encode).flatMap (· ++ [sep]) := by
      simpa using later.stream_eq
    rw [← same, written]
    simp
  · refine forall_mem_cons.mpr ⟨?_, later.lines_free⟩
    simp [framed.rest_free, free.1]
  · exact not_mem_nil

theorem exists_framed_take {records : List ε} (free : ∀ record ∈ records, sep ∉ encode record)
    (n : Nat) :
    ∃ complete rest, complete ≤ records.length ∧ Framed sep ((written sep encode records).take n)
        ((records.take complete).map encode) rest := by
  induction records generalizing n with
  | nil => exact ⟨0, [], Nat.le_refl 0, by simpa [written] using Framed.nil⟩
  | cons record records ih =>
    rw [forall_mem_cons] at free
    have lines : written sep encode (record :: records) =
        encode record ++ sep :: written sep encode records := by
      simp [written]
    by_cases inside : n ≤ (encode record).length
    · have cut : (written sep encode (record :: records)).take n = (encode record).take n := by
        rw [lines, take_append_of_le_length inside]
      refine ⟨0, (encode record).take n, Nat.zero_le _, ?_⟩
      rw [cut]
      exact ⟨rfl, by simp, fun mem => free.1 (mem_of_mem_take mem)⟩
    · -- The first line is complete, and the rest is cut further on.
      obtain ⟨complete, rest, bound, framed⟩ := ih free.2 (n - (encode record ++ [sep]).length)
      have cut : (written sep encode (record :: records)).take n =
          (encode record ++ [sep]) ++
            (written sep encode records).take (n - (encode record ++ [sep]).length) := by
        have whole : (encode record ++ [sep]).length ≤ n := by
          rw [length_append, length_singleton]
          omega
        rw [lines, append_cons, take_append, take_of_length_le whole]
      have firstLine : Framed sep (encode record ++ [sep]) [encode record] [] :=
        ⟨by simp, by simpa using free.1, not_mem_nil⟩
      refine ⟨complete + 1, rest, Nat.succ_le_succ bound, ?_⟩
      rw [cut, take_succ_cons, map_cons]
      exact firstLine.append framed

theorem Framed.of_append [BEq α] [LawfulBEq α] {more : List α} {lines' : List (List α)}
    {rest' : List α} (framed : Framed sep stream lines rest)
    (whole : Framed sep (stream ++ more) lines' rest') :
    (∀ line ∈ lines, line ∈ lines') ∧ ∃ line ∈ lines' ++ [rest'], rest <+: line := by
  obtain ⟨later, last, continued⟩ := exists_framed sep (rest ++ more)
  obtain ⟨rfl, rfl⟩ := whole.unique (framed.append continued)
  refine ⟨fun line mem => mem_append_left later mem, ?_⟩
  have begins : rest <+: later.flatMap (· ++ [sep]) ++ rest' :=
    ⟨more, continued.stream_eq⟩
  cases later with
  | nil => exact ⟨rest', by simp, by simpa using begins⟩
  | cons line later =>
    refine ⟨line, by simp, ?_⟩
    rw [flatMap_cons, append_assoc, append_assoc] at begins
    rcases prefix_or_prefix_of_prefix begins (prefix_append line _) with within | beyond
    · exact within
    · -- A longer rest would contain the separator after the line.
      obtain ⟨tail, rfl⟩ := beyond
      rw [prefix_append_right_inj] at begins
      cases tail with
      | nil => simp
      | cons x tail =>
        have same : x = sep := by
          obtain ⟨_, equal⟩ := begins
          exact (cons.inj equal).1
        exact absurd (by simp [same]) framed.rest_free

end OpenThesis.Lines
