import OpenThesis.Json.Nesting
import OpenThesis.Json.Strings

/-!
# Values at the start of a text

A decoder of a stream reads one value and leaves the rest of the text.
-/

namespace OpenThesis.Json.Text

open OpenThesis.Text List Option

def firstValueFrom (maxDepth : Nat) : Scanner → Bytes → Option (Value × Bytes)
  | s, [] => s.result.map fun value => (value, [])
  | s, b :: rest =>
    match s.phase with
    | .done value => some (value, b :: rest)
    | _ =>
      match s.step maxDepth b with
      | some next => firstValueFrom maxDepth next rest
      | none => s.result.map fun value => (value, b :: rest)

def firstValue (maxDepth : Nat) (text : Bytes) : Option (Value × Bytes) :=
  firstValueFrom maxDepth .start text

section

variable {maxDepth : Nat} {s : Scanner} {stack : List Frame} {isKey : Bool} {raw rest : Bytes}

theorem firstValueFrom_done (value : Value) (rest : Bytes) :
    firstValueFrom maxDepth ⟨.done value, stack⟩ rest = some (value, rest) := by
  cases rest <;> rfl

theorem firstValueFrom_cons (unfinished : s.result = none) (b : UInt8) (rest : Bytes) :
    firstValueFrom maxDepth s (b :: rest) =
      (s.step maxDepth b).bind fun next => firstValueFrom maxDepth next rest := by
  rw [firstValueFrom]
  split
  next value ended => simp [Scanner.result, ended] at unfinished
  · cases s.step maxDepth b with
    | none => simp [unfinished]
    | some next => rfl

theorem firstValueFrom_string (body : JsonBody raw) :
    firstValueFrom maxDepth ⟨.string isKey [] .plain, stack⟩ (raw ++ quote :: rest) =
      (Scanner.endString isKey stack raw).bind fun next => firstValueFrom maxDepth next rest := by
  have scans (read : Bytes) (escape : Escape)
      (scanned : raw.foldlM Escape.next escape = some .plain) :
      firstValueFrom maxDepth ⟨.string isKey read escape, stack⟩ (raw ++ quote :: rest) =
        (Scanner.endString isKey stack (read ++ raw)).bind fun next =>
          firstValueFrom maxDepth next rest := by
    clear body
    induction raw generalizing read escape with
    | nil =>
      cases scanned
      rw [nil_append, append_nil, firstValueFrom_cons rfl]
      rfl
    | cons b raw ih =>
      rw [foldlM_cons, bind_eq_bind, bind_eq_some_iff] at scanned
      obtain ⟨next, stepped, scanned⟩ := scanned
      rw [Escape.next] at stepped
      split_ifs at stepped with ends
      rw [cons_append, firstValueFrom_cons rfl]
      simp only [Scanner.step, if_neg ends, stepped, map_some, bind_some]
      rw [ih _ _ scanned, append_assoc, singleton_append]
  simpa using scans [] .plain (foldlM_next_iff.mpr body)

theorem exists_body {text : Bytes} {result : Value × Bytes}
    (read : firstValueFrom maxDepth ⟨.string isKey [] .plain, stack⟩ text = some result) :
    ∃ raw rest, text = raw ++ quote :: rest ∧ JsonBody raw := by
  have scans (before : Bytes) (escape : Escape)
      (read : firstValueFrom maxDepth ⟨.string isKey before escape, stack⟩ text = some result) :
      ∃ raw rest, text = raw ++ quote :: rest ∧ raw.foldlM Escape.next escape = some .plain := by
    clear * - read
    induction text generalizing before escape with
    | nil => cases read
    | cons b text ih =>
      rw [firstValueFrom_cons rfl, bind_eq_some_iff] at read
      obtain ⟨next, stepped, read⟩ := read
      simp only [Scanner.step] at stepped
      split_ifs at stepped with ends
      · obtain ⟨rfl, rfl⟩ := ends
        exact ⟨[], text, rfl, rfl⟩
      · obtain ⟨escape', continues, rfl⟩ := map_eq_some_iff.mp stepped
        obtain ⟨raw, rest, rfl, scanned⟩ := ih _ _ read
        refine ⟨b :: raw, rest, rfl, ?_⟩
        rw [foldlM_cons, Escape.next, if_neg ends, continues]
        exact scanned
  obtain ⟨raw, rest, same, scanned⟩ := scans [] .plain read
  exact ⟨raw, rest, same, foldlM_next_iff.mp scanned⟩

end

/-- The scanner is inside of an array or an object, and not inside of a string, a number or a
name. -/
structure Between (s : Scanner) : Prop where
  inside : s.stack ≠ []
  phase : (∃ close, s.phase = .value close) ∨ (∃ close, s.phase = .key close) ∨ s.phase = .colon ∨
    s.phase = .after

section

variable {maxDepth : Nat} {s s' : Scanner} {stack : List Frame} {b : UInt8}

theorem Between.result_eq_none (between : Between s) : s.result = none := by
  rcases between.phase with ⟨close, phase⟩ | ⟨close, phase⟩ | phase | phase
  all_goals simp [Scanner.result, phase]

theorem complete_between {value : Value} (inside : stack ≠ [])
    (completed : Scanner.complete stack value = some s) :
    Between s ∧ s.stack.length = stack.length := by
  cases stack with
  | nil => exact absurd rfl inside
  | cons frame outer =>
    cases frame with
    | array items =>
      cases completed
      exact ⟨⟨cons_ne_nil _ _, Or.inr (Or.inr (Or.inr rfl))⟩, rfl⟩
    | object members => cases completed
    | member members key =>
      cases completed
      exact ⟨⟨cons_ne_nil _ _, Or.inr (Or.inr (Or.inr rfl))⟩, rfl⟩

theorem endString_between {isKey : Bool} {raw : Bytes} (inside : stack ≠ [])
    (ended : Scanner.endString isKey stack raw = some s) :
    Between s ∧ s.stack.length = stack.length := by
  unfold Scanner.endString at ended
  split_ifs at ended
  · split at ended
    · cases ended
      exact ⟨⟨cons_ne_nil _ _, Or.inr (Or.inr (Or.inl rfl))⟩, rfl⟩
    · cases ended
  · exact complete_between inside ended

def Closes (stack : List Frame) (s : Scanner) : Prop :=
  (stack.length = 1 ∧ ∃ value, s.phase = .done value) ∨
    Between s ∧ s.stack.length + 1 = stack.length

theorem complete_closes {frame : Frame} {outer : List Frame} {value : Value}
    (completed : Scanner.complete outer value = some s) : Closes (frame :: outer) s := by
  by_cases last : outer = []
  · subst last
    cases completed
    exact Or.inl ⟨rfl, value, rfl⟩
  · obtain ⟨between, length⟩ := complete_between last completed
    exact Or.inr ⟨between, by rw [length, length_cons]⟩

theorem next_closes (stepped : Scanner.next stack b = some s) :
    (b = byte ',' ∧ Between s ∧ s.stack = stack) ∨
      (b = byte ']' ∨ b = byte '}') ∧ Closes stack s := by
  rw [Scanner.next.eq_def] at stepped
  split at stepped
  · split_ifs at stepped with comma bracket
    · cases stepped
      exact Or.inl ⟨comma, ⟨cons_ne_nil _ _, Or.inl ⟨_, rfl⟩⟩, rfl⟩
    · exact Or.inr ⟨Or.inl bracket, complete_closes stepped⟩
  · split_ifs at stepped with comma brace
    · cases stepped
      exact Or.inl ⟨comma, ⟨cons_ne_nil _ _, Or.inr (Or.inl ⟨_, rfl⟩)⟩, rfl⟩
    · exact Or.inr ⟨Or.inr brace, complete_closes stepped⟩
  · cases stepped

section

variable (between : Between s) (stepped : s.step maxDepth b = some s')

include between stepped

theorem Between.step_cases :
    (isSpace b = true ∧ s' = s) ∨ Scanner.next s.stack b = some s' ∨
      Scanner.beginValue maxDepth s.stack b = some s' ∨
      (b = quote ∧ s' = ⟨.string true [] .plain, s.stack⟩) ∨
      b = byte ':' ∧ s' = ⟨.value false, s.stack⟩ := by
  obtain ⟨phase, stack⟩ := s
  rcases between.phase with ⟨close, rfl⟩ | ⟨close, rfl⟩ | rfl | rfl
  · simp only [Scanner.step] at stepped
    split_ifs at stepped with space
    · exact Or.inl ⟨space, (Option.some.inj stepped).symm⟩
    · exact Or.inr (Or.inl stepped)
    · exact Or.inr (Or.inr (Or.inl stepped))
  · simp only [Scanner.step] at stepped
    split_ifs at stepped with space isQuote
    · exact Or.inl ⟨space, (Option.some.inj stepped).symm⟩
    · exact Or.inr (Or.inr (Or.inr (Or.inl ⟨isQuote, (Option.some.inj stepped).symm⟩)))
    · exact Or.inr (Or.inl stepped)
  · simp only [Scanner.step] at stepped
    split_ifs at stepped with space isColon
    · exact Or.inl ⟨space, (Option.some.inj stepped).symm⟩
    · exact Or.inr (Or.inr (Or.inr (Or.inr ⟨isColon, (Option.some.inj stepped).symm⟩)))
  · simp only [Scanner.step, Scanner.follow] at stepped
    split_ifs at stepped with space
    · exact Or.inl ⟨space, (Option.some.inj stepped).symm⟩
    · exact Or.inr (Or.inl stepped)

theorem Between.separator (separator : b = byte ' ' ∨ b = byte '\t' ∨ b = byte ',' ∨ b = byte ':') :
    Between s' ∧ s'.stack.length = s.stack.length := by
  have noValue (stack : List Frame) : Scanner.beginValue maxDepth stack b = none := by
    rcases separator with rfl | rfl | rfl | rfl <;> rfl
  have noBracket : ¬ (b = byte ']' ∨ b = byte '}') := by
    rcases separator with rfl | rfl | rfl | rfl <;> decide
  have noQuote : b ≠ quote := by
    rcases separator with rfl | rfl | rfl | rfl <;> decide
  rcases between.step_cases stepped with ⟨-, rfl⟩ | next | begins | ⟨isQuote, -⟩ | ⟨-, rfl⟩
  · exact ⟨between, rfl⟩
  · rcases next_closes next with ⟨-, between', same⟩ | ⟨isBracket, -⟩
    · exact ⟨between', by rw [same]⟩
    · exact absurd isBracket noBracket
  · rw [noValue] at begins
    cases begins
  · exact absurd isQuote noQuote
  · exact ⟨⟨between.inside, Or.inl ⟨_, rfl⟩⟩, rfl⟩

theorem Between.opening (opening : b = byte '{' ∨ b = byte '[') :
    Between s' ∧ s'.stack.length = s.stack.length + 1 := by
  have noSpace : isSpace b = false := by rcases opening with rfl | rfl <;> rfl
  have noNext (stack : List Frame) : Scanner.next stack b = none := by
    rcases opening with rfl | rfl <;> exact next_none (by decide) (by decide) (by decide)
  have other : b ≠ quote ∧ b ≠ byte ':' := by rcases opening with rfl | rfl <;> decide
  rcases between.step_cases stepped with ⟨space, -⟩ | next | begins | ⟨isQuote, -⟩ | ⟨isColon, -⟩
  · rw [noSpace] at space
    cases space
  · rw [noNext] at next
    cases next
  · unfold Scanner.beginValue at begins
    split_ifs at begins
    · cases begins
      exact ⟨⟨cons_ne_nil _ _, Or.inr (Or.inl ⟨_, rfl⟩)⟩, rfl⟩
    · cases begins
      exact ⟨⟨cons_ne_nil _ _, Or.inl ⟨_, rfl⟩⟩, rfl⟩
    next notBrace notBracket => exact absurd opening (not_or.mpr ⟨notBrace, notBracket⟩)
  · exact absurd isQuote other.1
  · exact absurd isColon other.2

theorem Between.closing (closing : b = byte '}' ∨ b = byte ']') : Closes s.stack s' := by
  have noSpace : isSpace b = false := by rcases closing with rfl | rfl <;> rfl
  have noValue (stack : List Frame) : Scanner.beginValue maxDepth stack b = none := by
    rcases closing with rfl | rfl <;> rfl
  have other : b ≠ quote ∧ b ≠ byte ':' ∧ b ≠ byte ',' := by
    rcases closing with rfl | rfl <;> decide
  rcases between.step_cases stepped with ⟨space, -⟩ | next | begins | ⟨isQuote, -⟩ | ⟨isColon, -⟩
  · rw [noSpace] at space
    cases space
  · rcases next_closes next with ⟨isComma, -⟩ | ⟨-, closes⟩
    · exact absurd isComma other.2.2
    · exact closes
  · rw [noValue] at begins
    cases begins
  · exact absurd isQuote other.1
  · exact absurd isColon other.2.1

end

theorem Between.string (between : Between s) (stepped : s.step maxDepth quote = some s') :
    ∃ isKey, s' = ⟨.string isKey [] .plain, s.stack⟩ := by
  rcases between.step_cases stepped with ⟨space, -⟩ | next | begins | ⟨-, rfl⟩ | ⟨isColon, -⟩
  · cases space
  · rw [next_none (by decide) (by decide) (by decide)] at next
    cases next
  · exact ⟨false, (Option.some.inj begins).symm⟩
  · exact ⟨true, rfl⟩
  · exact absurd isColon (by decide)

variable {rest : Bytes} {result : Value × Bytes}

theorem Between.read_cons (between : Between s)
    (read : firstValueFrom maxDepth s (b :: rest) = some result) :
    ∃ next, s.step maxDepth b = some next ∧ firstValueFrom maxDepth next rest = some result := by
  rw [firstValueFrom_cons between.result_eq_none, bind_eq_some_iff] at read
  exact read

theorem Between.read_spaces {blanks : Bytes} (between : Between s)
    (space : ∀ b ∈ blanks, isSpace b = true) :
    firstValueFrom maxDepth s (blanks ++ rest) = firstValueFrom maxDepth s rest := by
  induction blanks with
  | nil => rfl
  | cons b blanks ih =>
    have isSpace := space b mem_cons_self
    have stepped : s.step maxDepth b = some s := by
      obtain ⟨phase, stack⟩ := s
      rcases between.phase with ⟨close, rfl⟩ | ⟨close, rfl⟩ | rfl | rfl
      all_goals exact if_pos isSpace
    rw [cons_append, firstValueFrom_cons between.result_eq_none, stepped, bind_some]
    exact ih fun other mem => space other (mem_cons_of_mem b mem)

theorem Between.read_string {raw : Bytes} (between : Between s) (body : JsonBody raw)
    (read : firstValueFrom maxDepth s (quote :: (raw ++ quote :: rest)) = some result) :
    ∃ next, Between next ∧ next.stack.length = s.stack.length ∧
      firstValueFrom maxDepth next rest = some result := by
  obtain ⟨begun, stepped, read⟩ := between.read_cons read
  obtain ⟨isKey, rfl⟩ := between.string stepped
  rw [firstValueFrom_string body, bind_eq_some_iff] at read
  obtain ⟨next, ended, read⟩ := read
  obtain ⟨between', length⟩ := endString_between between.inside ended
  exact ⟨next, between', length, read⟩

theorem Between.read_marshal {text : Bytes} (between : Between s)
    (read : firstValueFrom maxDepth s (marshalString text ++ rest) = some result) :
    ∃ next, Between next ∧ next.stack.length = s.stack.length ∧
      firstValueFrom maxDepth next rest = some result := by
  refine between.read_string (jsonBody_escapeText text) ?_
  rwa [marshalString, append_assoc] at read

end

def Leads (first : Value) (s : Scanner) : Prop :=
  match s.phase with
  | .done value => ∃ items, value = .array (first :: items)
  | _ => ∃ items, s.stack.getLast? = some (.array (first :: items))

section

variable {maxDepth : Nat} {first : Value} {s s' : Scanner} {stack : List Frame} {b : UInt8}

def Outermost (first : Value) (stack : List Frame) : Prop :=
  ∃ items, stack.getLast? = some (.array (first :: items))

theorem Outermost.cons (outermost : Outermost first stack) (frame : Frame) :
    Outermost first (frame :: stack) := by
  obtain ⟨items, last⟩ := outermost
  exact ⟨items, by rw [getLast?_cons, last]; rfl⟩

variable {frame : Frame} {value : Value}

theorem Outermost.tail (outermost : Outermost first (frame :: stack)) (inside : stack ≠ []) :
    Outermost first stack := by
  obtain ⟨items, last⟩ := outermost
  obtain ⟨next, outer, rfl⟩ := exists_cons_of_ne_nil inside
  exact ⟨items, by simpa using last⟩

theorem Outermost.single (outermost : Outermost first [frame]) :
    ∃ items, frame = .array (first :: items) := by
  obtain ⟨items, last⟩ := outermost
  exact ⟨items, by simpa using last⟩

theorem Outermost.replace {frame' : Frame} (outermost : Outermost first (frame :: stack))
    (array : ∀ items, frame = .array (first :: items) →
      ∃ items', frame' = .array (first :: items')) : Outermost first (frame' :: stack) := by
  by_cases last : stack = []
  · subst last
    obtain ⟨items, same⟩ := outermost.single
    obtain ⟨items', same'⟩ := array items same
    exact ⟨items', by rw [same']; rfl⟩
  · exact (outermost.tail last).cons frame'

theorem leads_iff_of_open (isOpen : ∀ value, s.phase ≠ .done value) :
    Leads first s ↔ Outermost first s.stack := by
  rw [Leads]
  split
  next value ended => exact absurd ended (isOpen value)
  · rfl

theorem complete_leads (outermost : Outermost first stack)
    (completed : Scanner.complete stack value = some s) : Leads first s := by
  cases stack with
  | nil =>
    obtain ⟨items, last⟩ := outermost
    cases last
  | cons frame outer =>
    cases frame with
    | array items =>
      cases completed
      refine outermost.replace fun items' same => ?_
      cases same
      exact ⟨items' ++ [value], rfl⟩
    | object members => cases completed
    | member members key =>
      cases completed
      exact outermost.replace fun items' same => by cases same

theorem close_leads {outer : List Frame} (outermost : Outermost first (frame :: outer))
    (whole : ∀ items, frame = .array items → value = .array items)
    (completed : Scanner.complete outer value = some s) : Leads first s := by
  by_cases last : outer = []
  · subst last
    obtain ⟨items, same⟩ := outermost.single
    cases completed
    exact ⟨items, whole _ same⟩
  · exact complete_leads (outermost.tail last) completed

theorem next_leads (outermost : Outermost first stack) (stepped : Scanner.next stack b = some s) :
    Leads first s := by
  rw [Scanner.next.eq_def] at stepped
  split at stepped
  · split_ifs at stepped
    · cases stepped
      exact outermost
    · refine close_leads outermost (fun items same => ?_) stepped
      cases same
      rfl
  · split_ifs at stepped
    · cases stepped
      exact outermost
    · exact close_leads outermost (fun items same => by cases same) stepped
  · cases stepped

section

variable (leads : Leads first s)

include leads

theorem follow_leads (followed : s.follow b = some s') : Leads first s' := by
  unfold Scanner.follow at followed
  split_ifs at followed
  · cases followed
    exact leads
  · split at followed
    next phase =>
      rw [leads_iff_of_open (by simp [phase])] at leads
      exact next_leads leads followed
    · cases followed

theorem step_leads (stepped : s.step maxDepth b = some s') : Leads first s' := by
  by_cases isOpen : ∀ value, s.phase ≠ .done value
  · have outermost := (leads_iff_of_open isOpen).mp leads
    cases Scanner.moves_of_step stepped with
    | follow _ followed => exact follow_leads leads followed
    | next closed => exact next_leads outermost closed
    | begins begun =>
      unfold Scanner.beginValue at begun
      split_ifs at begun
      · cases begun
        exact outermost.cons _
      · cases begun
        exact outermost.cons _
      · obtain ⟨phase, begins, rfl⟩ := map_eq_some_iff.mp begun
        exact (leads_iff_of_open (scalar_open begins)).mpr outermost
    | key | colon | string | number | word => exact outermost
    | endString _ ended =>
      unfold Scanner.endString at ended
      split_ifs at ended
      · split at ended
        · cases ended
          exact outermost.replace fun items same => by cases same
        · cases ended
      · exact complete_leads outermost ended
    | endNumber completed followed =>
      exact follow_leads (complete_leads outermost completed) followed
    | endWord completed => exact complete_leads outermost completed
  · obtain ⟨phase, stack⟩ := s
    simp only [not_forall, not_not] at isOpen
    obtain ⟨value, rfl⟩ := isOpen
    exact follow_leads leads stepped

theorem exists_of_result (ended : s.result = some value) :
    ∃ items, value = .array (first :: items) := by
  obtain ⟨phase, stack⟩ := s
  cases phase with
  | done value =>
    cases ended
    exact leads
  | number literal phase =>
    obtain ⟨items, last⟩ := leads
    simp only [Scanner.result] at ended
    split_ifs at ended with finished
    obtain rfl := isEmpty_iff.mp finished.2
    cases last
  | value | key | colon | after | string | word => cases ended

theorem exists_of_leads {text rest : Bytes}
    (read : firstValueFrom maxDepth s text = some (value, rest)) :
    ∃ items, value = .array (first :: items) := by
  induction text generalizing s with
  | nil =>
    obtain ⟨value', ended, same⟩ := map_eq_some_iff.mp read
    cases same
    exact exists_of_result leads ended
  | cons b text ih =>
    rw [firstValueFrom] at read
    split at read
    next value' ended =>
      cases read
      rw [Leads, ended] at leads
      exact leads
    · split at read
      next s' stepped => exact ih (step_leads leads stepped) read
      · obtain ⟨value', ended, same⟩ := map_eq_some_iff.mp read
        cases same
        exact exists_of_result leads ended

end

end

def Scanner.opened : Scanner :=
  ⟨.value true, [.array []]⟩

section

variable {maxDepth : Nat} {raw : Bytes}

theorem between_opened : Between .opened :=
  ⟨cons_ne_nil _ _, Or.inl ⟨true, rfl⟩⟩

theorem firstValue_opened (deep : 0 < maxDepth) (text : Bytes) :
    firstValue maxDepth (byte '[' :: text) = firstValueFrom maxDepth .opened text := by
  have opened : Scanner.start.step maxDepth (byte '[') =
      if 0 < maxDepth then some .opened else none := rfl
  rw [firstValue, firstValueFrom_cons rfl, opened, if_pos deep, bind_some]

theorem firstValueFrom_opened_string (body : JsonBody raw) (rest : Bytes) :
    firstValueFrom maxDepth .opened (quote :: (raw ++ quote :: rest)) =
      firstValueFrom maxDepth ⟨.after, [.array [.string raw]]⟩ rest := by
  have quoted : Scanner.opened.step maxDepth quote =
      some ⟨.string false [] .plain, [.array []]⟩ := rfl
  rw [firstValueFrom_cons rfl, quoted, bind_some, firstValueFrom_string body]
  rfl

theorem exists_items {rest left : Bytes} {value : Value} (body : JsonBody raw)
    (read : firstValueFrom maxDepth .opened (quote :: (raw ++ quote :: rest)) =
      some (value, left)) :
    ∃ items, value = .array (.string raw :: items) := by
  have leads : Leads (.string raw) ⟨.after, [.array [.string raw]]⟩ := ⟨[], rfl⟩
  rw [firstValueFrom_opened_string body] at read
  exact exists_of_leads leads read

theorem firstValueFrom_singleton (body : JsonBody raw) {blanks : Bytes}
    (space : ∀ b ∈ blanks, isSpace b = true) (rest : Bytes) :
    firstValueFrom maxDepth .opened (quote :: (raw ++ quote :: (blanks ++ byte ']' :: rest))) =
      some (.array [.string raw], rest) := by
  have after : Between ⟨.after, [.array [.string raw]]⟩ :=
    ⟨cons_ne_nil _ _, Or.inr (Or.inr (Or.inr rfl))⟩
  have closed : Scanner.step maxDepth ⟨.after, [.array [.string raw]]⟩ (byte ']') =
      some ⟨.done (.array [.string raw]), []⟩ := rfl
  rw [firstValueFrom_opened_string body, after.read_spaces space, firstValueFrom_cons rfl, closed,
    bind_some, firstValueFrom_done]

end

def settledFrom (maxDepth : Nat) : Scanner → Bytes → Option (Option Value)
  | s, [] =>
    match s.phase with
    | .done value => some (some value)
    | _ => none
  | s, b :: rest =>
    match s.phase with
    | .done value => some (some value)
    | _ =>
      match s.step maxDepth b with
      | some next => settledFrom maxDepth next rest
      | none => some s.result

theorem firstValueFrom_of_settledFrom {maxDepth : Nat} {s : Scanner} {text : Bytes}
    {result : Option Value} (settled : settledFrom maxDepth s text = some result) (rest : Bytes) :
    (firstValueFrom maxDepth s (text ++ rest)).map Prod.fst = result := by
  induction text generalizing s with
  | nil =>
    obtain ⟨phase, stack⟩ := s
    cases phase <;> cases settled
    rw [firstValueFrom_done]
    rfl
  | cons b text ih =>
    obtain ⟨phase, stack⟩ := s
    rw [settledFrom] at settled
    rw [cons_append]
    split at settled
    next value ended =>
        cases ended
        cases settled
        rfl
    next unfinished =>
        have reads : firstValueFrom maxDepth ⟨phase, stack⟩ (b :: (text ++ rest)) =
            match Scanner.step maxDepth ⟨phase, stack⟩ b with
            | some next => firstValueFrom maxDepth next (text ++ rest)
            | none => (Scanner.result ⟨phase, stack⟩).map fun value =>
              (value, b :: (text ++ rest)) := by
          cases phase with
          | done value => exact (unfinished value rfl).elim
          | _ => rfl
        rw [reads]
        cases stepped : Scanner.step maxDepth ⟨phase, stack⟩ b with
        | none =>
          rw [stepped] at settled
          cases settled
          cases Scanner.result ⟨phase, stack⟩ <;> rfl
        | some next =>
          rw [stepped] at settled
          exact ih settled

end OpenThesis.Json.Text
