import OpenThesis.Container.Flow

/-!
# Scalars in brackets

The same scalar on the line of a key and in brackets.
-/

namespace OpenThesis.Container

open Text List
open Json.Text (Value Scanner firstValue firstValueFrom JsonBody toValid marks isSpace
  between_opened toValid_eq_self_iff mem_of_mem_toValid escapeText marshalString firstValue_opened
  bytes_unquote_escapeText jsonBody_escapeText firstValueFrom_singleton)

variable {quote reason : Bytes → String} {s : Bytes}

/-- A text in quotes, or without comma, bracket and brace, perhaps with white space around it. -/
structure ScalarText where
  text : Bytes
  scalar : isQuoted (byte '"') (trimSpace text) ∨ isQuoted (byte '\'') (trimSpace text) ∨
    ∀ b ∈ text, b ∉ bytes ",[]\x7b\x7d"

/-- In double quotes Go and JSON agree on the escapes; in single quotes there is no quote; without
quotes there is a byte, none is structural, and it does not stand for no value. But for double
quotes, it has to be UTF-8. -/
def Agrees (s : Bytes) : Prop :=
  if isQuoted (byte '"') s then Strconv.CommonBody s.tail.dropLast
  else if isQuoted (byte '\'') s then
    byte '\'' ∉ s.tail.dropLast ∧ ∃ text : String, bytes text = s.tail.dropLast
  else
    s ≠ [] ∧ (∀ b ∈ s, isFlowStructural b = false) ∧ s ∉ nullTokens ∧
      ∃ text : String, bytes text = s

/-- What stands behind an opening bracket, up to the closing one, is accepted with a value. -/
def ReadsAs (quote reason : Bytes → String) (s q : Bytes) (v : Yaml) : Prop :=
  ∃ out value left, flowToJSONFrom (goLibrary quote reason) s 1 (q ++ [byte ']']) = .ok out ∧
    firstValueFrom maxNestingDepth .opened out = some (value, left) ∧
      normalizeJSONValue (Yaml.ofValue value) = v

theorem trimSpace_brackets (q : Bytes) :
    trimSpace (byte '[' :: q ++ [byte ']']) = byte '[' :: q ++ [byte ']'] := by
  have front : ∀ word ∈ spaces, word.head? ≠ some (byte '[') := by decide +kernel
  have back : ∀ word ∈ spaces.map List.reverse, word.head? ≠ some (byte ']') := by decide +kernel
  have kept : dropWords spaces (byte '[' :: q ++ [byte ']']).length (byte '[' :: q ++ [byte ']']) =
      byte '[' :: q ++ [byte ']'] := by
    refine dropWords_eq_self (fun word mem c first => ?_) (by decide) _
    cases first
    exact front word mem
  rw [trimSpace, kept, dropWords_eq_self _ (by decide), reverse_reverse]
  intro word mem c first
  have reversed : (byte '[' :: q ++ [byte ']']).reverse = byte ']' :: (byte '[' :: q).reverse := by
    simp
  rw [reversed] at first
  cases first
  exact back word mem

variable {q : Bytes} {v : Yaml} {text rest before more : Bytes} (blanks : Bytes)
  {behind body : Bytes}

theorem parseScalar_brackets_iff :
    parseScalar (goLibrary quote reason) (byte '[' :: q ++ [byte ']']) = .ok v ↔
      ReadsAs quote reason (byte '[' :: q ++ [byte ']']) q v := by
  have flow : IsFlow (trimSpace (byte '[' :: q ++ [byte ']'])) := by
    rw [trimSpace_brackets]
    exact Or.inr ⟨rfl, by rw [cons_append, getLast?_cons]; simp⟩
  have translation : flowToJSON (goLibrary quote reason) (byte '[' :: q ++ [byte ']']) =
      (flowToJSONFrom (goLibrary quote reason) (byte '[' :: q ++ [byte ']']) 1
        (q ++ [byte ']'])).map (byte '[' :: ·) :=
    flowToJSON_opening (by decide)
  rw [parseScalar_of_isFlow flow, trimSpace_brackets, parseFlow_eq_ok_iff]
  constructor
  · rintro ⟨jsonSrc, value, left, translated, read, means⟩
    obtain ⟨out, later, rfl⟩ := map_eq_ok (translation.symm.trans translated)
    rw [firstValue_opened (by decide)] at read
    exact ⟨out, value, left, later, read, means⟩
  · rintro ⟨out, value, left, later, read, means⟩
    refine ⟨byte '[' :: out, value, left, translation.trans ?_, ?_, means⟩
    · exact congrArg (Except.map (byte '[' :: ·)) later
    · rwa [firstValue_opened (by decide)]

theorem not_structural_of_white (white : White text) : ∀ b ∈ text, isFlowStructural b = false := by
  intro b mem
  by_contra structural
  rw [Bool.not_eq_false, isFlowStructural_iff, mem_opening, mem_closing] at structural
  have range := white.le_or_le mem
  rcases structural with rfl | rfl | (rfl | rfl) | (rfl | rfl) | rfl | rfl
  all_goals exact absurd range (by decide)

theorem flowToJSONFrom_plain (lib : Library) (s : Bytes) (depth : Nat)
    (plain : ∀ b ∈ text, isFlowStructural b = false)
    (stops : ∀ b ∈ rest.head?, isFlowStructural b = true) :
    ∃ blanks, (∀ b ∈ blanks, isSpace b = true) ∧
      flowToJSONFrom lib s depth (text ++ rest) = (flowToJSONFrom lib s depth rest).map
        (blanks ++ (if trimSpace text = [] then [] else lib.marshal (trimSpace text)) ++ ·) := by
  induction text with
  | nil =>
    have empty : trimSpace [] = [] := rfl
    refine ⟨[], by simp, ?_⟩
    rw [if_pos empty, nil_append]
    cases flowToJSONFrom lib s depth rest <;> rfl
  | cons c text ih =>
    by_cases blank : c = byte ' ' ∨ c = byte '\t'
    · obtain ⟨blanks, space, same⟩ := ih fun b mem => plain b (mem_cons_of_mem c mem)
      have separator : c ∈ bytes " \t,:" := mem_separators.mpr (by tauto)
      refine ⟨c :: blanks, fun b mem => ?_, ?_⟩
      · rcases mem_cons.mp mem with rfl | mem
        · rcases blank with rfl | rfl <;> rfl
        · exact space b mem
      · rw [cons_append, flowToJSONFrom, if_pos separator, same, trimSpace_blank blank]
        cases flowToJSONFrom lib s depth rest <;> rfl
    · have other : ¬ _ := fun structural =>
        Bool.eq_false_iff.mp (plain c mem_cons_self) (isFlowStructural_iff.mpr structural)
      simp only [not_or] at other blank
      obtain ⟨notComma, notColon, notOpening, notClosing, notDouble, notSingle⟩ := other
      have notSeparator : c ∉ bytes " \t,:" := by
        rw [mem_separators]
        tauto
      have inside : ∀ b ∈ text, (!isFlowStructural b) = true := by
        intro b mem
        rw [plain b (mem_cons_of_mem c mem)]
        rfl
      have front : (text ++ rest).takeWhile (!isFlowStructural ·) = text := by
        rw [takeWhile_append_of_pos inside]
        cases rest with
        | nil => simp
        | cons b rest => simp [stops b rfl]
      have back : (text ++ rest).dropWhile (!isFlowStructural ·) = rest := by
        rw [dropWhile_append_of_pos inside]
        cases rest with
        | nil => rfl
        | cons b rest => simp [stops b rfl]
      refine ⟨[], by simp, ?_⟩
      rw [cons_append, flowToJSONFrom, if_neg notSeparator, if_neg notOpening,
        if_neg notClosing, if_neg notDouble, if_neg notSingle, front, back]
      rfl

theorem readsAs_white (white : White before)
    (stops : ∀ b ∈ (rest ++ [byte ']']).head?, isFlowStructural b = true) :
    ReadsAs quote reason s (before ++ rest) v ↔ ReadsAs quote reason s rest v := by
  obtain ⟨blanks, space, same⟩ :=
    flowToJSONFrom_plain (goLibrary quote reason) s 1 (not_structural_of_white white) stops
  rw [if_pos (trimSpace_eq_nil_iff.mpr white), append_nil, ← append_assoc] at same
  constructor
  · rintro ⟨out, value, left, translated, read, means⟩
    obtain ⟨out, later, rfl⟩ := map_eq_ok (same.symm.trans translated)
    rw [between_opened.read_spaces space] at read
    exact ⟨out, value, left, later, read, means⟩
  · rintro ⟨out, value, left, later, read, means⟩
    refine ⟨blanks ++ out, value, left, ?_, ?_, means⟩
    · rw [same, later]
      rfl
    · rwa [between_opened.read_spaces space]

theorem eq_of_written_string {raw : Bytes} (body : JsonBody raw)
    (space : ∀ b ∈ blanks, isSpace b = true)
    (written : flowToJSONFrom (goLibrary quote reason) s 1 (q ++ [byte ']']) =
      .ok (blanks ++ byte '"' :: (raw ++ byte '"' :: more)))
    (accepted : ReadsAs quote reason s q (.seq [v])) :
    v = .str (bytes (Json.Text.unquote raw)) := by
  obtain ⟨out, value, left, translated, read, means⟩ := accepted
  cases written.symm.trans translated
  rw [between_opened.read_spaces space] at read
  obtain ⟨items, rfl⟩ := Json.Text.exists_items body read
  simp only [Yaml.ofValue, Yaml.ofItems, normalizeJSONValue, normalizeItems, Yaml.seq.injEq,
    cons.injEq] at means
  exact means.1.symm

theorem readsAs_of_written_string {raw : Bytes} (body : JsonBody raw)
    (space : ∀ b ∈ blanks, isSpace b = true)
    (last : ∀ b ∈ more, isSpace b = true)
    (written : flowToJSONFrom (goLibrary quote reason) s 1 (q ++ [byte ']']) =
      .ok (blanks ++ byte '"' :: (raw ++ byte '"' :: (more ++ [byte ']'])))) :
    ReadsAs quote reason s q (.seq [.str (bytes (Json.Text.unquote raw))]) := by
  refine ⟨_, .array [.string raw], [], written, ?_, ?_⟩
  · rw [between_opened.read_spaces space]
    exact firstValueFrom_singleton body last []
  · simp only [Yaml.ofValue, Yaml.ofItems, normalizeJSONValue, normalizeItems]

theorem stops_bracket : ∀ b ∈ [byte ']'].head?, isFlowStructural b = true := by
  rintro b ⟨⟩
  rfl

theorem closing_bracket :
    flowToJSONFrom (goLibrary quote reason) s 1 [byte ']'] = .ok [byte ']'] := by
  rw [flowToJSONFrom, if_neg (by decide), if_neg (by decide), if_pos (by decide), flowToJSONFrom,
    if_pos rfl]
  rfl

theorem exists_closing (quote reason : Bytes → String) (s : Bytes) (white : White behind) :
    ∃ blanks, (∀ b ∈ blanks, isSpace b = true) ∧
      flowToJSONFrom (goLibrary quote reason) s 1 (behind ++ [byte ']']) =
        .ok (blanks ++ [byte ']']) := by
  obtain ⟨blanks, space, same⟩ :=
    flowToJSONFrom_plain (goLibrary quote reason) s 1 (not_structural_of_white white) stops_bracket
  refine ⟨blanks, space, ?_⟩
  rw [same, if_pos (trimSpace_eq_nil_iff.mpr white), closing_bracket, append_nil]
  rfl

theorem flowToJSONFrom_double (depth : Nat) (rest : Bytes) :
    flowToJSONFrom (goLibrary quote reason) s depth (byte '"' :: rest) =
      (flowToJSONFrom (goLibrary quote reason) s depth (doubleQuoted rest).2).map
        (byte '"' :: (doubleQuoted rest).1 ++ ·) := by
  rw [flowToJSONFrom, if_neg (by decide), if_neg (by decide), if_neg (by decide), if_pos rfl]

theorem readsAs_double (isBody : JsonBody body) (white : White behind) :
    ReadsAs quote reason s (byte '"' :: (body ++ byte '"' :: behind))
      (.seq [.str (bytes (Json.Text.unquote body))]) := by
  obtain ⟨blanks, space, closing⟩ := exists_closing quote reason s white
  refine readsAs_of_written_string [] isBody (by simp) space ?_
  have text : byte '"' :: (body ++ byte '"' :: behind) ++ [byte ']'] =
      byte '"' :: (body ++ byte '"' :: (behind ++ [byte ']'])) := by simp
  rw [text, flowToJSONFrom_double, doubleQuoted_of_body isBody]
  simp only [closing, Except.map]
  simp

theorem exists_of_double (accepted : ReadsAs quote reason s (byte '"' :: rest) (.seq [v])) :
    ∃ raw more, rest = raw ++ byte '"' :: more ∧ JsonBody raw ∧
      v = .str (bytes (Json.Text.unquote raw)) := by
  obtain ⟨out, value, left, translated, read, -⟩ := id accepted
  have text : byte '"' :: rest ++ [byte ']'] = byte '"' :: (rest ++ [byte ']']) := rfl
  have written := translated
  rw [text, flowToJSONFrom_double] at translated
  obtain ⟨out', later, rfl⟩ := map_eq_ok translated
  obtain ⟨raw, body, quoted⟩ := exists_raw between_opened later read
  have split := doubleQuoted_append (rest ++ [byte ']'])
  rw [quoted, append_assoc, singleton_append] at split
  rcases eq_nil_or_concat (doubleQuoted (rest ++ [byte ']'])).2 with none | ⟨more, b, some⟩
  · rw [none] at split
    exact absurd (append_inj_right' split rfl) (by decide)
  · rw [some, concat_eq_append, ← cons_append, ← append_assoc] at split
    have string :
        byte '"' :: (raw ++ [byte '"']) ++ out' = byte '"' :: (raw ++ byte '"' :: out') := by
      simp
    rw [quoted, string] at written
    exact ⟨raw, more, (append_inj_left' split rfl).symm, body,
      eq_of_written_string [] body (by simp) written accepted⟩

theorem marshalString_append (text rest : Bytes) : marshalString text ++ rest =
      byte '"' :: (escapeText text ++ byte '"' :: rest) := by
  rw [marshalString, append_assoc, singleton_append, cons_append]
  rfl

theorem eq_of_written_marshal (space : ∀ b ∈ blanks, isSpace b = true)
    (written : flowToJSONFrom (goLibrary quote reason) s 1 (q ++ [byte ']']) =
      .ok (blanks ++ (marshalString text ++ more)))
    (accepted : ReadsAs quote reason s q (.seq [v])) : v = .str (toValid text) := by
  rw [marshalString_append] at written
  rw [eq_of_written_string blanks (jsonBody_escapeText text) space written accepted,
    bytes_unquote_escapeText]

theorem readsAs_of_written_marshal (space : ∀ b ∈ blanks, isSpace b = true)
    (last : ∀ b ∈ more, isSpace b = true)
    (written : flowToJSONFrom (goLibrary quote reason) s 1 (q ++ [byte ']']) =
      .ok (blanks ++ (marshalString text ++ (more ++ [byte ']'])))) :
    ReadsAs quote reason s q (.seq [.str (toValid text)]) := by
  rw [marshalString_append] at written
  rw [← bytes_unquote_escapeText]
  exact readsAs_of_written_string blanks (jsonBody_escapeText text) space last written

theorem flowToJSONFrom_single {seg : Bytes} (depth : Nat) (plain : byte '\'' ∉ seg) :
    flowToJSONFrom (goLibrary quote reason) s depth (byte '\'' :: (seg ++ byte '\'' :: rest)) =
      (flowToJSONFrom (goLibrary quote reason) s depth rest).map
        (marshalString seg ++ ·) := by
  have inside : ∀ b ∈ seg, (b != byte '\'') = true := by
    intro b mem
    rw [bne_iff_ne]
    rintro rfl
    exact plain mem
  have before : (seg ++ byte '\'' :: rest).takeWhile (· != byte '\'') = seg := by
    rw [takeWhile_append_of_pos inside]
    simp
  have behind : (seg ++ byte '\'' :: rest).dropWhile (· != byte '\'') = byte '\'' :: rest := by
    rw [dropWhile_append_of_pos inside]
    simp
  rw [flowToJSONFrom, if_neg (by decide), if_neg (by decide), if_neg (by decide),
    if_neg (by decide), if_pos rfl, before, behind, if_neg (cons_ne_nil _ _), tail_cons]
  rfl

theorem readsAs_single (plain : byte '\'' ∉ body) (white : White behind) :
    ReadsAs quote reason s (byte '\'' :: (body ++ byte '\'' :: behind))
      (.seq [.str (toValid body)]) := by
  obtain ⟨blanks, space, closing⟩ := exists_closing quote reason s white
  refine readsAs_of_written_marshal [] (by simp) space ?_
  have text : byte '\'' :: (body ++ byte '\'' :: behind) ++ [byte ']'] =
      byte '\'' :: (body ++ byte '\'' :: (behind ++ [byte ']'])) := by simp
  rw [text, flowToJSONFrom_single 1 plain, closing]
  rfl

theorem exists_of_single (accepted : ReadsAs quote reason s (byte '\'' :: rest) (.seq [v])) :
    ∃ seg more, rest = seg ++ byte '\'' :: more ∧ byte '\'' ∉ seg ∧ v = .str (toValid seg) := by
  obtain ⟨out, value, left, written, -, -⟩ := id accepted
  have text : byte '\'' :: rest ++ [byte ']'] = byte '\'' :: (rest ++ [byte ']']) := rfl
  by_cases closed : byte '\'' ∈ rest
  · obtain ⟨seg, more, rfl, plain⟩ := eq_append_cons_of_mem closed
    have translated := written
    rw [text, append_assoc, cons_append, flowToJSONFrom_single 1 plain] at translated
    obtain ⟨out', later, rfl⟩ := map_eq_ok translated
    exact ⟨seg, more, rfl, plain, eq_of_written_marshal [] (by simp) written accepted⟩
  · have unterminated : (rest ++ [byte ']']).dropWhile (· != byte '\'') = [] := by
      rw [dropWhile_eq_nil_iff]
      intro b mem
      rw [bne_iff_ne]
      rintro rfl
      rcases mem_append.mp mem with inside | last
      · exact closed inside
      · exact absurd last (by decide)
    rw [text, flowToJSONFrom, if_neg (by decide), if_neg (by decide), if_neg (by decide),
      if_neg (by decide), if_pos rfl, unterminated, if_pos rfl] at written
    cases written

theorem stops_dropWhile (q : Bytes) :
    ∀ b ∈ (q.dropWhile (!isFlowStructural ·) ++ [byte ']']).head?, isFlowStructural b = true := by
  intro b first
  cases behind : q.dropWhile (!isFlowStructural ·) with
  | nil =>
    rw [behind] at first
    cases first
    rfl
  | cons c rest =>
    rw [behind] at first
    cases first
    have stopped := head?_dropWhile_not (!isFlowStructural ·) q
    rw [behind] at stopped
    simpa using stopped

theorem eq_of_bare (plain : ∀ b ∈ text, isFlowStructural b = false)
    (stops : ∀ b ∈ (rest ++ [byte ']']).head?, isFlowStructural b = true)
    (nonempty : trimSpace text ≠ []) (accepted : ReadsAs quote reason s (text ++ rest) (.seq [v])) :
    v = .str (toValid (trimSpace text)) := by
  obtain ⟨blanks, space, same⟩ := flowToJSONFrom_plain (goLibrary quote reason) s 1 plain stops
  rw [if_neg nonempty, ← append_assoc] at same
  obtain ⟨out, value, left, written, -, -⟩ := id accepted
  obtain ⟨out', later, rfl⟩ := map_eq_ok (same.symm.trans written)
  rw [append_assoc blanks] at written
  exact eq_of_written_marshal blanks space written accepted

theorem readsAs_bare (plain : ∀ b ∈ q, isFlowStructural b = false) (nonempty : trimSpace q ≠ []) :
    ReadsAs quote reason s q (.seq [.str (toValid (trimSpace q))]) := by
  obtain ⟨blanks, space, same⟩ :=
    flowToJSONFrom_plain (goLibrary quote reason) s 1 plain stops_bracket
  have last : ∀ b ∈ ([] : Bytes), isSpace b = true := by simp
  refine readsAs_of_written_marshal blanks space last ?_
  rw [same, if_neg nonempty, closing_bracket, ← append_assoc blanks]
  rfl

theorem not_readsAs_colon : ¬ ReadsAs quote reason s (byte ':' :: rest) v := by
  rintro ⟨out, value, left, written, read, -⟩
  have text : byte ':' :: rest ++ [byte ']'] = byte ':' :: (rest ++ [byte ']']) := rfl
  rw [text, flowToJSONFrom, if_pos (by decide)] at written
  obtain ⟨out', later, rfl⟩ := map_eq_ok written
  rw [Json.Text.firstValueFrom_cons rfl] at read
  cases read

theorem not_readsAs_nil : ¬ ReadsAs quote reason s [] (.seq [v]) := by
  rintro ⟨out, value, left, written, read, means⟩
  rw [nil_append, closing_bracket] at written
  cases written
  cases read
  simp [Yaml.ofValue, Yaml.ofItems, normalizeJSONValue, normalizeItems] at means

theorem eq_of_isQuoted {mark : UInt8} (quoted : isQuoted mark s = true) :
    s = mark :: s.tail.dropLast ++ [mark] := by
  simp only [isQuoted, Bool.and_eq_true, decide_eq_true_eq, beq_iff_eq] at quoted
  obtain ⟨⟨length, first⟩, last⟩ := quoted
  cases s with
  | nil => cases first
  | cons b rest =>
    obtain rfl : b = mark := Option.some.inj first
    rcases eq_nil_or_concat rest with rfl | ⟨body, b', rfl⟩
    · simp at length
    · obtain rfl : b' = b := by simpa [getLast?_cons] using last
      simp

theorem parseScalar_eq (lib : Library) (q : ScalarText) :
    parseScalar lib q.text = .ok (scalarValue lib (trimSpace q.text)) := by
  have notFlow : ¬ IsFlow (trimSpace q.text) := by
    intro flow
    obtain ⟨c, text, same, opening⟩ := flow.exists_opening
    rcases q.scalar with quoted | quoted | plain
    · rw [eq_of_isQuoted quoted] at same
      obtain rfl := (cons.inj same).1
      exact absurd opening (by decide)
    · rw [eq_of_isQuoted quoted] at same
      obtain rfl := (cons.inj same).1
      exact absurd opening (by decide)
    · apply plain c (mem_of_mem_trimSpace (same ▸ mem_cons_self))
      rcases mem_opening.mp opening with rfl | rfl <;> decide
  rw [parseScalar]
  by_cases empty : trimSpace q.text = []
  · simp only [if_pos empty]
    rw [empty]
    rfl
  · simp only [if_neg empty]
    refine (if_neg notFlow).trans ?_
    rw [scalarValue]
    split_ifs <;> rfl

theorem ne_unquote {raw : Bytes} (more : marks raw < marks text) :
    text ≠ bytes (Json.Text.unquote raw) := by
  rintro rfl
  exact absurd (Json.Text.marks_unquote_le raw) (Nat.not_le_of_lt more)

theorem lt_marks (before raw more : Bytes) :
    marks raw < marks (before ++ byte '"' :: (raw ++ byte '"' :: more)) := by
  rw [marks, marks, countP_append, countP_cons_of_pos (by decide), countP_append]
  omega

theorem marks_trimSpace (text : Bytes) : marks (trimSpace text) = marks text := by
  have white {space : Bytes} (isWhite : White space) : marks space = 0 := by
    rw [marks, countP_eq_zero]
    intro b mem mark
    have range := isWhite.le_or_le mem
    simp only [Bool.or_eq_true, decide_eq_true_eq] at mark
    rcases mark with rfl | rfl
    all_goals exact absurd range (by decide)
  obtain ⟨before, behind, first, last, same⟩ := exists_white text
  have sum := congrArg marks same
  simp only [marks, countP_append] at sum white ⊢
  rw [white first, white last] at sum
  omega

theorem exists_of_append_white {mark : UInt8} (notIn : mark ∉ behind)
    (same : text ++ behind = before ++ mark :: more) : ∃ more', text = before ++ mark :: more' := by
  rcases append_eq_append_iff.mp same with ⟨rest, -, split⟩ | ⟨rest, split, follows⟩
  · exact absurd (split ▸ mem_append_right _ mem_cons_self) notIn
  · cases rest with
    | nil =>
      rw [nil_append] at follows
      exact absurd (follows ▸ mem_cons_self) notIn
    | cons b rest =>
      obtain rfl := (cons.inj follows).1
      exact ⟨rest, split⟩

theorem notMem_white (white : White behind) (mark : UInt8)
    (structural : isFlowStructural mark = true) : mark ∉ behind := by
  intro mem
  rw [not_structural_of_white white mark mem] at structural
  cases structural

theorem agrees_double (white : White behind) :
    ReadsAs quote reason s (byte '"' :: (body ++ byte '"' :: behind))
        (.seq [.str ((Strconv.unquote (byte '"' :: body ++ [byte '"'])).getD
          (byte '"' :: body ++ [byte '"']))]) ↔ Strconv.CommonBody body := by
  have inQuotes : Strconv.unquote (byte '"' :: body ++ [byte '"']) =
      Strconv.unquoteAfter 0 (body ++ [byte '"']) := rfl
  rw [inQuotes]
  constructor
  · intro accepted
    obtain ⟨raw, more, same, isBody, means⟩ := exists_of_double accepted
    have whole : body ++ [byte '"'] ++ behind = raw ++ byte '"' :: more := by simpa using same
    obtain ⟨more, same⟩ := exists_of_append_white (notMem_white white _ rfl) whole
    rw [cons_append, same] at means
    cases read : Strconv.unquoteAfter 0 (raw ++ byte '"' :: more) with
    | none =>
      rw [read] at means
      exact absurd (Yaml.str.inj means) (ne_unquote (lt_marks [] raw more))
    | some value =>
      obtain ⟨rfl, common, -⟩ := (Strconv.unquoteAfter_eq_some_iff isBody).mp read
      rwa [append_cancel_right same]
  · intro common
    have read : Strconv.unquoteAfter 0 (body ++ [byte '"']) =
        some (bytes (Json.Text.unquote body)) :=
      (Strconv.unquoteAfter_eq_some_iff common.json).mpr ⟨rfl, common, rfl⟩
    rw [read]
    exact readsAs_double common.json white

theorem unescapeSingle_of_notMem (plain : byte '\'' ∉ text) : unescapeSingle text = text := by
  fun_induction unescapeSingle text with
  | case1 | case2 => rfl
  | case3 c next rest both => exact absurd (both.1 ▸ mem_cons_self) plain
  | case4 c next rest _ ih => rw [ih fun mem => plain (mem_cons_of_mem c mem)]

theorem mem_unescapeSingle (mem : byte '\'' ∈ text) : byte '\'' ∈ unescapeSingle text := by
  fun_induction unescapeSingle text with
  | case1 | case2 => exact mem
  | case3 c next rest both => exact both.1 ▸ mem_cons_self
  | case4 c next rest _ ih => exact mem_cons.mpr ((mem_cons.mp mem).imp_right ih)

theorem agrees_single (white : White behind) :
    ReadsAs quote reason s (byte '\'' :: (body ++ byte '\'' :: behind))
        (.seq [.str (unescapeSingle body)]) ↔
      byte '\'' ∉ body ∧ ∃ text : String, bytes text = body := by
  constructor
  · intro accepted
    obtain ⟨seg, more, same, inside, means⟩ := exists_of_single accepted
    have means := Yaml.str.inj means
    have plain : byte '\'' ∉ body := by
      intro mem
      have kept := mem_unescapeSingle mem
      rw [means] at kept
      exact inside (mem_of_mem_toValid (by decide) kept)
    have behind := notMem_white white (byte '\'') rfl
    refine ⟨plain, toValid_eq_self_iff.mp ?_⟩
    obtain ⟨rfl, -, -⟩ := (append_cons_inj_of_notMem plain behind).mp same
    rw [← means, unescapeSingle_of_notMem plain]
  · rintro ⟨plain, text, rfl⟩
    have valid := toValid_eq_self_iff.mpr ⟨text, rfl⟩
    have means : unescapeSingle (bytes text) = toValid (bytes text) := by
      rw [unescapeSingle_of_notMem plain, valid]
    rw [means]
    exact readsAs_single plain white

theorem lt_of_isFlowStructural {b : UInt8} (structural : isFlowStructural b = true) : b < 0x80 := by
  rw [isFlowStructural_iff, mem_opening, mem_closing] at structural
  rcases structural with rfl | rfl | (rfl | rfl) | (rfl | rfl) | rfl | rfl <;> decide

theorem plain_of_trimSpace (plain : ∀ b ∈ trimSpace q, isFlowStructural b = false) :
    ∀ b ∈ q, isFlowStructural b = false := by
  obtain ⟨before, behind, first, last, same⟩ := exists_white q
  intro b mem
  rw [same] at mem
  rcases mem_append.mp mem with mem | mem
  · rcases mem_append.mp mem with mem | mem
    · exact not_structural_of_white first b mem
    · exact plain b mem
  · exact not_structural_of_white last b mem

theorem not_readsAs_self (white : White before)
    (stops : ∀ b ∈ (rest ++ [byte ']']).head?, isFlowStructural b = true)
    (scalar : ∀ b ∈ rest, b ∉ bytes ",[]\x7b\x7d") :
    ¬ ReadsAs quote reason s (before ++ rest) (.seq [.str (trimSpace (before ++ rest))]) := by
  rw [readsAs_white white stops]
  intro accepted
  cases rest with
  | nil => exact not_readsAs_nil accepted
  | cons c rest =>
    have excluded {d : UInt8} (same : c = d) : d ∉ bytes ",[]\x7b\x7d" :=
      same ▸ scalar c mem_cons_self
    have first := isFlowStructural_iff.mp (stops c rfl)
    rw [mem_opening, mem_closing] at first
    rcases first with comma | rfl | (brace | bracket) | (brace | bracket) | rfl | rfl
    · exact absurd (by decide) (excluded comma)
    · exact not_readsAs_colon accepted
    · exact absurd (by decide) (excluded brace)
    · exact absurd (by decide) (excluded bracket)
    · exact absurd (by decide) (excluded brace)
    · exact absurd (by decide) (excluded bracket)
    · obtain ⟨raw, more, rfl, -, means⟩ := exists_of_double accepted
      refine ne_unquote ?_ (Yaml.str.inj means)
      rw [marks_trimSpace]
      exact lt_marks before raw more
    · obtain ⟨seg, more, rfl, inside, means⟩ := exists_of_single accepted
      have kept : byte '\'' ∈ trimSpace (before ++ byte '\'' :: (seg ++ byte '\'' :: more)) :=
        mem_trimSpace (by simp) (by decide +kernel)
      rw [Yaml.str.inj means] at kept
      exact inside (mem_of_mem_toValid (by decide) kept)

theorem agrees_bare (scalar : ∀ b ∈ q, b ∉ bytes ",[]\x7b\x7d") :
    ReadsAs quote reason s q (.seq [.str (trimSpace q)]) ↔
      trimSpace q ≠ [] ∧ (∀ b ∈ trimSpace q, isFlowStructural b = false) ∧
        ∃ text : String, bytes text = trimSpace q := by
  constructor
  · intro accepted
    have split := takeWhile_append_dropWhile (p := (!isFlowStructural ·)) (l := q)
    have front : ∀ b ∈ q.takeWhile (!isFlowStructural ·), isFlowStructural b = false :=
      fun b mem => by simpa using mem_takeWhile_imp mem
    have stops := stops_dropWhile q
    generalize q.takeWhile (!isFlowStructural ·) = text at split front
    generalize q.dropWhile (!isFlowStructural ·) = rest at split stops
    subst split
    have nonempty : trimSpace text ≠ [] := by
      intro empty
      exact not_readsAs_self (trimSpace_eq_nil_iff.mp empty) stops
        (fun b mem => scalar b (mem_append_right text mem)) accepted
    have means := Yaml.str.inj (eq_of_bare front stops nonempty accepted)
    have plain : ∀ b ∈ trimSpace (text ++ rest), isFlowStructural b = false := by
      intro b mem
      by_contra structural
      rw [Bool.not_eq_false] at structural
      rw [means] at mem
      have inside := mem_of_mem_trimSpace
        (mem_of_mem_toValid (lt_of_isFlowStructural structural) mem)
      rw [front b inside] at structural
      cases structural
    obtain rfl : rest = [] := by
      cases rest with
      | nil => rfl
      | cons c rest =>
        have structural := stops c rfl
        rw [plain_of_trimSpace plain c (by simp)] at structural
        cases structural
    rw [append_nil] at means plain ⊢
    exact ⟨nonempty, plain, toValid_eq_self_iff.mp means.symm⟩
  · rintro ⟨nonempty, plain, valid⟩
    rw [← toValid_eq_self_iff.mpr valid]
    exact readsAs_bare (plain_of_trimSpace plain) nonempty

theorem not_readsAs_null (token : trimSpace q ∈ nullTokens) :
    ¬ ReadsAs quote reason s q (.seq [.null]) := by
  have known : ∀ q ∈ nullTokens, q ≠ [] ∧ ∀ b ∈ q, isFlowStructural b = false := by
    decide +kernel
  obtain ⟨nonempty, plain⟩ := known _ token
  intro accepted
  rw [← append_nil q] at accepted
  cases eq_of_bare (plain_of_trimSpace plain) stops_bracket nonempty accepted

theorem same_in_brackets_iff (q : ScalarText) :
    (∀ v, parseScalar (goLibrary quote reason) q.text = .ok v →
      parseScalar (goLibrary quote reason) (byte '[' :: q.text ++ [byte ']']) = .ok (.seq [v])) ↔
      Agrees (trimSpace q.text) := by
  rw [parseScalar_eq]
  simp only [Except.ok.injEq, forall_eq', parseScalar_brackets_iff, Agrees, scalarValue]
  generalize byte '[' :: q.text ++ [byte ']'] = s
  obtain ⟨before, behind, first, last, text⟩ := exists_white q.text
  by_cases double : isQuoted (byte '"') (trimSpace q.text) = true
  · have same := eq_of_isQuoted double
    rw [if_pos (Or.inl double), if_pos double, unquote, if_pos double]
    generalize (trimSpace q.text).tail.dropLast = body at same ⊢
    rw [same] at text ⊢
    have form : q.text = before ++ byte '"' :: (body ++ byte '"' :: behind) := by simpa using text
    rw [form, readsAs_white first (by rintro b ⟨⟩; rfl)]
    exact agrees_double last
  · by_cases single : isQuoted (byte '\'') (trimSpace q.text) = true
    · have same := eq_of_isQuoted single
      rw [if_pos (Or.inr single), if_neg double, if_pos single, unquote, if_neg double,
        if_pos single]
      generalize (trimSpace q.text).tail.dropLast = body at same ⊢
      rw [same] at text
      have form : q.text = before ++ byte '\'' :: (body ++ byte '\'' :: behind) := by
        simpa using text
      rw [form, readsAs_white first (by rintro b ⟨⟩; rfl)]
      exact agrees_single last
    · have scalar := (q.scalar.resolve_left double).resolve_left single
      rw [if_neg (not_or.mpr ⟨double, single⟩), if_neg double, if_neg single]
      by_cases token : trimSpace q.text ∈ nullTokens
      · rw [if_pos token]
        exact iff_of_false (not_readsAs_null token) fun agrees => agrees.2.2.1 token
      · rw [if_neg token, agrees_bare scalar]
        simp only [token, not_false_eq_true, true_and]

/-- A text in brackets or braces, perhaps with white space around it. -/
structure FlowText where
  text : Bytes
  flow : IsFlow (trimSpace text)

/-- Flow and block style agree on a scalar exactly if its quotes, escapes and characters mean the
same in both, and an accepted text in brackets is read to its end exactly if its first bracket is
closed by its last byte. -/
theorem flow_agrees_iff (quote reason : Bytes → String) :
    (∀ q : ScalarText,
      (∀ v, parseScalar (goLibrary quote reason) q.text = .ok v →
        parseScalar (goLibrary quote reason) (byte '[' :: q.text ++ [byte ']']) = .ok (.seq [v])) ↔
        Agrees (trimSpace q.text)) ∧
      ∀ q : FlowText,
        Consumed (goLibrary quote reason) (trimSpace q.text) ↔
          (∀ v, parseScalar (goLibrary quote reason) q.text ≠ .ok v) ∨
            afterClose 0 (trimSpace q.text) = [] :=
  ⟨same_in_brackets_iff, fun q => consumed_iff q.flow⟩

theorem flow_agrees_word :
    let lib := goLibrary (fun _ => "") (fun _ => "")
    parseScalar lib (bytes "[ab]") = .ok (.seq [.str (bytes "ab")]) ∧
      Consumed lib (bytes "[ab]") := by
  have agrees := flow_agrees_iff (fun _ => "") (fun _ => "")
  have bare : trimSpace (bytes "ab") = bytes "ab" := by decide +kernel
  have flow : trimSpace (bytes "[ab]") = bytes "[ab]" := by decide +kernel
  constructor
  · refine (agrees.1 ⟨bytes "ab", Or.inr (Or.inr (by decide +kernel))⟩).mpr ?_ _ rfl
    rw [bare, Agrees, if_neg (by decide), if_neg (by decide)]
    exact ⟨by decide, by decide +kernel, by decide +kernel, "ab", rfl⟩
  · have consumed := (agrees.2 ⟨bytes "[ab]", by rw [flow]; decide⟩).mpr
    simp only [flow] at consumed
    exact consumed (.inr (by decide +kernel))

/-- The text for no value is a string in brackets, and what follows the closing bracket is lost. -/
theorem null_and_second_list_differ :
    let lib := goLibrary (fun _ => "") (fun _ => "")
    parseScalar lib (bytes "null") = .ok .null ∧
      parseScalar lib (bytes "[null]") = .ok (.seq [.str (bytes "null")]) ∧
      parseScalar lib (bytes "[a][b]") = .ok (.seq [.str (bytes "a")]) ∧
        ¬ Consumed lib (bytes "[a][b]") := by
  have translated : flowToJSON (goLibrary (fun _ => "") (fun _ => "")) (bytes "[a][b]") =
      .ok (bytes "[\"a\"][\"b\"]") := by
    decide +kernel
  have read : firstValue maxNestingDepth (bytes "[\"a\"][\"b\"]") =
      some (.array [.string (bytes "a")], bytes "[\"b\"]") := by
    have body : JsonBody (bytes "a") := .plain (by decide) (by decide) (by decide) .nil
    have blank : ∀ b ∈ ([] : Bytes), isSpace b = true := by simp
    exact (firstValue_opened (by decide) _).trans (firstValueFrom_singleton body blank _)
  have trimmed : trimSpace (bytes "[a][b]") = bytes "[a][b]" := by decide +kernel
  have flow : IsFlow (trimSpace (bytes "[a][b]")) := by
    rw [trimmed]
    decide
  have inBrackets : bytes "[null]" = byte '[' :: bytes "null" ++ [byte ']'] := by decide
  have bare : trimSpace (bytes "null") = bytes "null" := by decide +kernel
  have valid : toValid (trimSpace (bytes "null")) = bytes "null" := by
    rw [bare]
    exact toValid_eq_self_iff.mpr ⟨"null", rfl⟩
  intro lib
  refine ⟨rfl, ?_, ?_, fun consumed => ?_⟩
  · have accepted : ReadsAs (fun _ => "") (fun _ => "") (bytes "[null]") (bytes "null")
        (.seq [.str (toValid (trimSpace (bytes "null")))]) :=
      readsAs_bare (by decide +kernel) (by rw [bare]; decide)
    rw [valid, inBrackets] at accepted
    rw [inBrackets]
    exact parseScalar_brackets_iff.mpr accepted
  · rw [parseScalar_of_isFlow flow, trimmed, parseFlow_eq_ok_iff]
    exact ⟨_, _, _, translated, read, rfl⟩
  · exact absurd (consumed _ _ _ translated read) (by decide)

end OpenThesis.Container
