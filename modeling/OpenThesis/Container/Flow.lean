import OpenThesis.Container.Yaml
import OpenThesis.Json.Stream
import OpenThesis.Strconv.Unquote

/-!
# Flow style

A value in brackets is rewritten to JSON, a scalar of a block is read by the parser itself
(`internal/container/yaml.go`). The texts of errors are left open.
-/

namespace OpenThesis.Container

open Text List
open Json.Text (Value Scanner Between firstValue firstValueFrom)

mutual

def Yaml.ofValue : Value → Yaml
  | .null => .null
  | .bool value => .bool value
  | .number literal => .number literal
  | .string raw => .str (bytes (Json.Text.unquote raw))
  | .array items => .seq (Yaml.ofItems items)
  | .object members => .map (Yaml.ofMembers [] members)

def Yaml.ofItems : List Value → List Yaml
  | [] => []
  | item :: items => Yaml.ofValue item :: Yaml.ofItems items

def Yaml.ofMembers (entries : Entries) : List (Bytes × Value) → Entries
  | [] => entries
  | (key, value) :: members =>
    Yaml.ofMembers (entries.set (bytes (Json.Text.unquote key)) (Yaml.ofValue value)) members

end

def maxNestingDepth : Nat := 10000

def goLibrary (quote reason : Bytes → String) : Library where
  unquote := Strconv.unquote
  quote := quote
  marshal := Json.Text.marshalString
  decode text :=
    match firstValue maxNestingDepth text with
    | none => .error (reason text)
    | some (value, _) => .ok (Yaml.ofValue value)

/-- What follows the bracket that closes the outermost open one. -/
def afterClose (depth : Nat) : Bytes → Bytes
  | [] => []
  | c :: rest =>
    if c ∈ bytes "\x7b[" then afterClose (depth + 1) rest
    else if c ∈ bytes "\x7d]" then if depth ≤ 1 then rest else afterClose (depth - 1) rest
    else if c = byte '"' then afterClose depth (doubleQuoted rest).2
    else if c = byte '\'' then afterClose depth (rest.dropWhile (· != byte '\'')).tail
    else afterClose depth rest
termination_by text => text.length
decreasing_by
  · simp
  · simp
  · simpa [Nat.lt_succ_iff] using length_doubleQuoted_le rest
  · have bound := length_dropWhile_le (· != byte '\'') rest
    rw [length_tail, length_cons]
    omega
  · simp

section

variable {lib : Library} {s out left text rest : Bytes} {depth : Nat} {c : UInt8}

theorem map_eq_ok {ε α β : Type} {result : Except ε α} {f : α → β} {b : β}
    (mapped : result.map f = .ok b) : ∃ a, result = .ok a ∧ f a = b := by
  cases result with
  | error reason => cases mapped
  | ok a => exact ⟨a, rfl, Except.ok.inj mapped⟩

theorem doubleQuoted_append (text : Bytes) :
    (doubleQuoted text).1 ++ (doubleQuoted text).2 = text := by
  fun_induction doubleQuoted text with
  | case1 | case2 => rfl
  | case3 next rest ih => simp [ih]
  | case4 => rfl
  | case5 c next rest _ _ ih => simp [ih]

theorem doubleQuoted_fst_ne_nil (nonempty : text ≠ []) : (doubleQuoted text).1 ≠ [] := by
  rw [doubleQuoted.eq_def]
  split
  · exact absurd rfl nonempty
  · simp
  · split_ifs <;> simp

theorem doubleQuoted_fst_append {next : Bytes} (ends : (doubleQuoted text).2 = [] → next = []) :
    doubleQuoted ((doubleQuoted text).1 ++ next) = ((doubleQuoted text).1, next) := by
  fun_induction doubleQuoted text with
  | case1 | case2 c =>
    rw [ends rfl]
    rfl
  | case3 escaped rest ih => simp [doubleQuoted, ih ends]
  | case4 follows rest =>
    cases next with
    | nil | cons b next => rfl
  | case5 c follows rest notBackslash notQuote ih =>
    have again := ih ends
    obtain ⟨b, quoted, same⟩ := exists_cons_of_ne_nil
      (doubleQuoted_fst_ne_nil (cons_ne_nil follows rest))
    rw [same] at again ⊢
    simp only [cons_append] at again ⊢
    rw [doubleQuoted, if_neg notBackslash, if_neg notQuote, again]

theorem doubleQuoted_cons (notBackslash : c ≠ byte '\\') (notQuote : c ≠ byte '"')
    (nonempty : text ≠ []) :
    doubleQuoted (c :: text) = (c :: (doubleQuoted text).1, (doubleQuoted text).2) := by
  obtain ⟨b, rest, rfl⟩ := exists_cons_of_ne_nil nonempty
  rw [doubleQuoted, if_neg notBackslash, if_neg notQuote]

theorem doubleQuoted_of_body {raw : Bytes} (body : Json.Text.JsonBody raw) :
    doubleQuoted (raw ++ byte '"' :: rest) = (raw ++ [byte '"'], rest) := by
  induction body with
  | nil =>
    cases rest with
    | nil | cons b rest => rfl
  | plain _ notQuote notBackslash _ ih =>
    rw [cons_append, doubleQuoted_cons notBackslash notQuote (by simp), ih, cons_append]
  | @letter b raw known _ ih =>
    have escape : doubleQuoted (byte '\\' :: b :: (raw ++ byte '"' :: rest)) =
        (byte '\\' :: b :: (doubleQuoted (raw ++ byte '"' :: rest)).1,
          (doubleQuoted (raw ++ byte '"' :: rest)).2) := by
      rw [doubleQuoted, if_pos rfl]
    rw [ih] at escape
    exact escape
  | @number d₀ d₁ d₂ d₃ n raw reads _ _ ih =>
    have digit : ∀ d ∈ [d₀, d₁, d₂, d₃], d ≠ byte '\\' ∧ d ≠ byte '"' := by
      intro d mem
      have isDigit := Json.Text.isSome_of_hexNumber reads d mem
      constructor
      all_goals
        rintro rfl
        cases isDigit
    simp only [mem_cons, not_mem_nil, or_false, forall_eq_or_imp, forall_eq] at digit
    obtain ⟨first, second, third, fourth⟩ := digit
    have escape : doubleQuoted
          (byte '\\' :: byte 'u' :: (d₀ :: d₁ :: d₂ :: d₃ :: raw ++ byte '"' :: rest)) =
        (byte '\\' :: byte 'u' ::
            (doubleQuoted (d₀ :: d₁ :: d₂ :: d₃ :: raw ++ byte '"' :: rest)).1,
          (doubleQuoted (d₀ :: d₁ :: d₂ :: d₃ :: raw ++ byte '"' :: rest)).2) := by
      rw [doubleQuoted, if_pos rfl]
    simp only [cons_append] at escape ⊢
    rw [doubleQuoted_cons first.1 first.2 (by simp), doubleQuoted_cons second.1 second.2 (by simp),
      doubleQuoted_cons third.1 third.2 (by simp), doubleQuoted_cons fourth.1 fourth.2 (by simp),
      ih] at escape
    exact escape

theorem mem_separators : c ∈ bytes " \t,:" ↔
    c = byte ' ' ∨ c = byte '\t' ∨ c = byte ',' ∨ c = byte ':' := by
  have text : bytes " \t,:" = [byte ' ', byte '\t', byte ',', byte ':'] := by decide
  simp [text]

theorem mem_opening : c ∈ bytes "\x7b[" ↔ c = byte '{' ∨ c = byte '[' := by
  have text : bytes "\x7b[" = [byte '{', byte '['] := by decide
  simp [text]

theorem mem_closing : c ∈ bytes "\x7d]" ↔ c = byte '}' ∨ c = byte ']' := by
  have text : bytes "\x7d]" = [byte '}', byte ']'] := by decide
  simp [text]

theorem isFlowStructural_iff : isFlowStructural c = true ↔
    c = byte ',' ∨ c = byte ':' ∨ c ∈ bytes "\x7b[" ∨ c ∈ bytes "\x7d]" ∨ c = byte '"' ∨
      c = byte '\'' := by
  have text : bytes ",:\x7b\x7d[]\"'" =
      [byte ',', byte ':', byte '{', byte '}', byte '[', byte ']', byte '"', byte '\''] := by decide
  simp only [isFlowStructural, text, mem_opening, mem_closing, contains_cons, contains_nil,
    Bool.or_false, Bool.or_eq_true, beq_iff_eq]
  tauto

theorem isFlowStructural_eq_false (notSeparator : c ∉ bytes " \t,:")
    (notOpening : c ∉ bytes "\x7b[") (notClosing : c ∉ bytes "\x7d]") (notDouble : c ≠ byte '"')
    (notSingle : c ≠ byte '\'') : isFlowStructural c = false := by
  rw [mem_separators] at notSeparator
  rw [Bool.eq_false_iff, Ne, isFlowStructural_iff]
  tauto

theorem afterClose_cons (plain : isFlowStructural c = false) :
    afterClose depth (c :: rest) = afterClose depth rest := by
  have other : ¬ _ := fun structural =>
    Bool.eq_false_iff.mp plain (isFlowStructural_iff.mpr structural)
  simp only [not_or] at other
  obtain ⟨-, -, notOpening, notClosing, notQuote, notSingle⟩ := other
  rw [afterClose, if_neg notOpening, if_neg notClosing, if_neg notQuote, if_neg notSingle]

theorem afterClose_separator (separator : c ∈ bytes " \t,:") :
    afterClose depth (c :: rest) = afterClose depth rest := by
  rcases mem_separators.mp separator with rfl | rfl | rfl | rfl
  all_goals
    rw [afterClose, if_neg (by decide), if_neg (by decide), if_neg (by decide), if_neg (by decide)]

theorem afterClose_dropWhile (text : Bytes) :
    afterClose depth (text.dropWhile (!isFlowStructural ·)) = afterClose depth text := by
  induction text with
  | nil => rfl
  | cons c text ih =>
    rw [dropWhile_cons]
    split
    next plain => rw [ih, afterClose_cons (by simpa using plain)]
    · rfl

end

section

variable {quote reason : Bytes → String} {s out left text : Bytes} {depth maxDepth : Nat}
  {scanner : Scanner} {value : Value}

theorem exists_raw {rest : Bytes} (between : Between scanner)
    (later : flowToJSONFrom (goLibrary quote reason) s depth (doubleQuoted rest).2 = .ok out)
    (read : firstValueFrom maxDepth scanner (byte '"' :: (doubleQuoted rest).1 ++ out) =
      some (value, left)) :
    ∃ raw, Json.Text.JsonBody raw ∧ (doubleQuoted rest).1 = raw ++ [byte '"'] := by
  obtain ⟨next, stepped, read⟩ := between.read_cons read
  obtain ⟨isKey, rfl⟩ := between.string stepped
  obtain ⟨raw, more, same, body⟩ := Json.Text.exists_body read
  have ends (last : (doubleQuoted rest).2 = []) : out = [] := by
    rw [last, flowToJSONFrom] at later
    split_ifs at later
    cases later
    rfl
  have again := doubleQuoted_fst_append ends
  have ownEnd : doubleQuoted (raw ++ byte '"' :: more) = _ := doubleQuoted_of_body body
  refine ⟨raw, body, ?_⟩
  rw [show (doubleQuoted rest).1 ++ out = raw ++ byte '"' :: more from same, ownEnd] at again
  exact (Prod.mk.inj again).1.symm

theorem read_translation (between : Between scanner)
    (translated : flowToJSONFrom (goLibrary quote reason) s depth text = .ok out)
    (read : firstValueFrom maxDepth scanner out = some (value, left)) :
    ∃ depth', flowToJSONFrom (goLibrary quote reason) s depth'
      (afterClose scanner.stack.length text) = .ok left := by
  have unfinished {scanner : Scanner} (between : Between scanner) :
      firstValueFrom maxDepth scanner [] ≠ some (value, left) := by
    rw [firstValueFrom, between.result_eq_none]
    simp
  fun_induction flowToJSONFrom (goLibrary quote reason) s depth text generalizing scanner out with
  | case1 =>
    cases translated
    exact absurd read (unfinished between)
  | case2 => cases translated
  | case3 depth c rest separator ih =>
    obtain ⟨out', later, rfl⟩ := map_eq_ok translated
    obtain ⟨next, stepped, read⟩ := between.read_cons read
    obtain ⟨between', length⟩ := between.separator stepped (mem_separators.mp separator)
    rw [afterClose_separator separator, ← length]
    exact ih between' later read
  | case4 depth c rest _ opening ih =>
    obtain ⟨out', later, rfl⟩ := map_eq_ok translated
    obtain ⟨next, stepped, read⟩ := between.read_cons read
    obtain ⟨between', length⟩ := between.opening stepped (mem_opening.mp opening)
    rw [afterClose, if_pos opening, ← length]
    exact ih between' later read
  | case5 depth c rest _ notOpening closing ih =>
    obtain ⟨out', later, rfl⟩ := map_eq_ok translated
    obtain ⟨next, stepped, read⟩ := between.read_cons read
    rw [afterClose, if_neg notOpening, if_pos closing]
    rcases between.closing stepped (mem_closing.mp closing) with
      ⟨last, whole, ended⟩ | ⟨between', length⟩
    · obtain ⟨phase, stack⟩ := next
      obtain rfl : phase = .done whole := ended
      rw [Json.Text.firstValueFrom_done] at read
      cases read
      exact ⟨depth - 1, by rw [if_pos last.le, later]⟩
    · have positive := length_pos_of_ne_nil between'.inside
      rw [if_neg (by omega), ← length, Nat.add_sub_cancel]
      exact ih between' later read
  | case6 depth rest _ notOpening notClosing ih =>
    obtain ⟨out', later, rfl⟩ := map_eq_ok translated
    rw [afterClose, if_neg notOpening, if_neg notClosing, if_pos rfl]
    obtain ⟨raw, body, quoted⟩ := exists_raw between later read
    rw [quoted] at read
    rw [cons_append, append_assoc] at read
    obtain ⟨next, between', length, read⟩ := between.read_string body read
    rw [← length]
    exact ih between' later read
  | case7 => cases translated
  | case8 depth rest _ _ notOpening notClosing notDouble ih =>
    obtain ⟨out', later, rfl⟩ := map_eq_ok translated
    rw [afterClose, if_neg notOpening, if_neg notClosing, if_neg notDouble, if_pos rfl]
    obtain ⟨next, between', length, read⟩ := between.read_marshal read
    rw [← length]
    exact ih between' later read
  | case9 depth c rest notSeparator notOpening notClosing notDouble notSingle token =>
    rename_i ih
    obtain ⟨out', later, rfl⟩ := map_eq_ok translated
    have plain := isFlowStructural_eq_false notSeparator notOpening notClosing notDouble notSingle
    rw [afterClose_cons plain, ← afterClose_dropWhile rest]
    split_ifs at read
    · exact ih between later (by simpa using read)
    · obtain ⟨next, between', length, read⟩ := between.read_marshal read
      rw [← length]
      exact ih between' later read

def IsFlow (s : Bytes) : Prop :=
  (s.head? = some (byte '\x7b') ∧ s.getLast? = some (byte '\x7d')) ∨
    (s.head? = some (byte '[') ∧ s.getLast? = some (byte ']'))

instance (s : Bytes) : Decidable (IsFlow s) :=
  inferInstanceAs (Decidable (_ ∨ _))

theorem not_structural_of_translated
    (translated : flowToJSONFrom (goLibrary quote reason) s depth text = .ok []) :
    ∀ c ∈ text, isFlowStructural c = false := by
  fun_induction flowToJSONFrom (goLibrary quote reason) s depth text with
  | case1 | case2 => simp
  | case3 | case4 | case5 | case6 =>
    obtain ⟨out, -, written⟩ := map_eq_ok translated
    cases written
  | case7 => cases translated
  | case8 =>
    obtain ⟨out, -, written⟩ := map_eq_ok translated
    cases written
  | case9 depth c rest notSeparator notOpening notClosing notDouble notSingle token =>
    rename_i ih
    obtain ⟨out, later, written⟩ := map_eq_ok translated
    have plain := isFlowStructural_eq_false notSeparator notOpening notClosing notDouble notSingle
    have later := ih (by rw [later, (append_eq_nil_iff.mp written).2])
    intro b mem
    rcases mem_cons.mp mem with rfl | mem
    · exact plain
    · rw [← takeWhile_append_dropWhile (p := (!isFlowStructural ·)) (l := rest)] at mem
      rcases mem_append.mp mem with bare | behind
      · simpa using mem_takeWhile_imp bare
      · exact later b behind

theorem afterClose_suffix (depth : Nat) (text : Bytes) : afterClose depth text <:+ text := by
  fun_induction afterClose depth text with
  | case1 => exact suffix_refl _
  | case2 depth c rest _ ih => exact ih.trans (suffix_cons _ _)
  | case3 depth c rest => exact suffix_cons _ _
  | case4 depth c rest _ _ _ ih => exact ih.trans (suffix_cons _ _)
  | case5 depth rest _ _ ih =>
    have quoted : (doubleQuoted rest).2 <:+ rest := ⟨_, doubleQuoted_append rest⟩
    exact (ih.trans quoted).trans (suffix_cons _ _)
  | case6 depth rest _ _ _ ih =>
    have quoted := (tail_suffix _).trans (dropWhile_suffix (· != byte '\'') (l := rest))
    exact (ih.trans quoted).trans (suffix_cons _ _)
  | case7 depth c rest _ _ _ _ ih => exact ih.trans (suffix_cons _ _)

def Consumed (lib : Library) (s : Bytes) : Prop :=
  ∀ jsonSrc value left, flowToJSON lib s = .ok jsonSrc →
    firstValue maxNestingDepth jsonSrc = some (value, left) → left = []

section

variable {c : UInt8} (opening : c ∈ bytes "\x7b[")

include opening

theorem step_start {next : Scanner} (stepped : Scanner.start.step maxDepth c = some next) :
    Between next ∧ next.stack.length = 1 := by
  have begins : Scanner.start.step maxDepth c = Scanner.beginValue maxDepth [] c := by
    rcases mem_opening.mp opening with rfl | rfl <;> rfl
  rw [begins] at stepped
  unfold Scanner.beginValue at stepped
  split_ifs at stepped
  · cases stepped
    exact ⟨⟨cons_ne_nil _ _, Or.inr (Or.inl ⟨_, rfl⟩)⟩, rfl⟩
  · cases stepped
    exact ⟨⟨cons_ne_nil _ _, Or.inl ⟨_, rfl⟩⟩, rfl⟩
  next notBrace notBracket =>
    exact absurd (mem_opening.mp opening) (not_or.mpr ⟨notBrace, notBracket⟩)

theorem flowToJSON_opening :
    flowToJSON (goLibrary quote reason) (c :: text) =
      (flowToJSONFrom (goLibrary quote reason) (c :: text) 1 text).map (c :: ·) := by
  have notSeparator : c ∉ bytes " \t,:" := by
    rcases mem_opening.mp opening with rfl | rfl <;> decide
  rw [flowToJSON, flowToJSONFrom, if_neg notSeparator, if_pos opening]

theorem read_flow {jsonSrc : Bytes}
    (translated : flowToJSON (goLibrary quote reason) (c :: text) = .ok jsonSrc)
    (read : firstValue maxDepth jsonSrc = some (value, left)) :
    ∃ depth, flowToJSONFrom (goLibrary quote reason) (c :: text) depth
      (afterClose 0 (c :: text)) = .ok left := by
  rw [flowToJSON_opening opening] at translated
  obtain ⟨out, later, rfl⟩ := map_eq_ok translated
  rw [firstValue, Json.Text.firstValueFrom_cons rfl, Option.bind_eq_some_iff] at read
  obtain ⟨next, stepped, read⟩ := read
  obtain ⟨between, length⟩ := step_start opening stepped
  rw [afterClose, if_pos opening, Nat.zero_add, ← length]
  exact read_translation between later read

end

theorem parseScalar_of_isFlow {lib : Library} {q : Bytes} (flow : IsFlow (trimSpace q)) :
    parseScalar lib q = parseFlow lib (trimSpace q) := by
  have nonempty : trimSpace q ≠ [] := by
    intro empty
    rw [empty] at flow
    revert flow
    decide
  rw [parseScalar]
  simp only [if_neg nonempty]
  exact if_pos flow

theorem parseFlow_eq_ok_iff {v : Yaml} : parseFlow (goLibrary quote reason) s = .ok v ↔
      ∃ jsonSrc value left, flowToJSON (goLibrary quote reason) s = .ok jsonSrc ∧
        firstValue maxNestingDepth jsonSrc = some (value, left) ∧
          normalizeJSONValue (Yaml.ofValue value) = v := by
  rw [parseFlow]
  cases translated : flowToJSON (goLibrary quote reason) s with
  | error reason => simp
  | ok jsonSrc =>
    cases read : firstValue maxNestingDepth jsonSrc with
    | none => simp [goLibrary, read]
    | some result => simp [goLibrary, read, Prod.ext_iff]

theorem afterClose_eq_nil_of_consumed (flow : IsFlow s)
    (translated : flowToJSONFrom (goLibrary quote reason) s depth (afterClose 0 s) = .ok []) :
    afterClose 0 s = [] := by
  by_contra remains
  -- what remains has the last bracket
  have last : (afterClose 0 s).getLast? = s.getLast? := by
    obtain ⟨before, same⟩ := afterClose_suffix 0 s
    have whole := congrArg List.getLast? same
    rwa [getLast?_append_of_ne_nil _ remains] at whole
  obtain ⟨c, isLast⟩ : ∃ c, s.getLast? = some c := by
    rcases flow with ⟨-, brace⟩ | ⟨-, bracket⟩
    · exact ⟨_, brace⟩
    · exact ⟨_, bracket⟩
  have plain := not_structural_of_translated translated c
    (mem_of_getLast? (last.trans isLast))
  rcases flow with ⟨-, brace⟩ | ⟨-, bracket⟩
  · cases isLast.symm.trans brace
    cases plain
  · cases isLast.symm.trans bracket
    cases plain

theorem IsFlow.exists_opening (flow : IsFlow s) : ∃ c text, s = c :: text ∧ c ∈ bytes "\x7b[" := by
  cases s with
  | nil => rcases flow with ⟨first, -⟩ | ⟨first, -⟩ <;> cases first
  | cons c text =>
    refine ⟨c, text, rfl, mem_opening.mpr ?_⟩
    rcases flow with ⟨first, -⟩ | ⟨first, -⟩
    · exact Or.inl (Option.some.inj first)
    · exact Or.inr (Option.some.inj first)

theorem consumed_iff {q : Bytes} (flow : IsFlow (trimSpace q)) :
    Consumed (goLibrary quote reason) (trimSpace q) ↔
      (∀ v, parseScalar (goLibrary quote reason) q ≠ .ok v) ∨ afterClose 0 (trimSpace q) = [] := by
  rw [parseScalar_of_isFlow flow]
  generalize trimSpace q = s at flow ⊢
  obtain ⟨c, text, rfl, opening⟩ := flow.exists_opening
  constructor
  · intro consumed
    by_cases accepted : ∃ v, parseFlow (goLibrary quote reason) (c :: text) = .ok v
    · obtain ⟨v, accepted⟩ := accepted
      obtain ⟨jsonSrc, value, left, translated, read, -⟩ := parseFlow_eq_ok_iff.mp accepted
      obtain rfl := consumed jsonSrc value left translated read
      obtain ⟨depth, remaining⟩ := read_flow opening translated read
      exact Or.inr (afterClose_eq_nil_of_consumed flow remaining)
    · exact Or.inl (not_exists.mp accepted)
  · rintro condition jsonSrc value left translated read
    rcases condition with refused | closed
    · exact absurd (parseFlow_eq_ok_iff.mpr ⟨jsonSrc, value, left, translated, read, rfl⟩)
        (refused _)
    · obtain ⟨depth, remaining⟩ := read_flow opening translated read
      rw [closed, flowToJSONFrom] at remaining
      split_ifs at remaining
      exact (Except.ok.inj remaining).symm

end


end OpenThesis.Container
