import OpenThesis.Text.Core

/-!
# JSON as text

A scanner that reads a value byte by byte, with a stack of what is open. Numbers, strings and keys
stay as they were written.
-/

namespace OpenThesis.Json.Text

open OpenThesis.Text List

/-- A value as it is written. -/
inductive Value
  | null
  | bool (value : Bool)
  | number (literal : Bytes)
  | string (raw : Bytes)
  | array (items : List Value)
  | object (members : List (Bytes × Value))

def quote : UInt8 := byte '"'

def backslash : UInt8 := byte '\\'

def isSpace (b : UInt8) : Bool :=
  b = byte ' ' || b = byte '\t' || b = byte '\r' || b = byte '\n'

def isDigit (b : UInt8) : Bool :=
  byte '0' ≤ b && b ≤ byte '9'

def hexDigit (b : UInt8) : Option Nat :=
  if isDigit b then some (b - byte '0').toNat
  else if byte 'a' ≤ b && b ≤ byte 'f' then some ((b - byte 'a').toNat + 10)
  else if byte 'A' ≤ b && b ≤ byte 'F' then some ((b - byte 'A').toNat + 10)
  else none

inductive NumberPhase
  | minus
  | zero
  | digits
  | point
  | fraction
  | exponent
  | exponentSign
  | exponentDigits
  deriving DecidableEq

namespace NumberPhase

/-- One byte of a number. -/
def step (phase : NumberPhase) (b : UInt8) : Option NumberPhase :=
  let isExponent := b = byte 'e' || b = byte 'E'
  match phase with
  | minus => if b = byte '0' then some zero else if isDigit b then some digits else none
  | zero => if b = byte '.' then some point else if isExponent then some exponent else none
  | digits =>
    if isDigit b then some digits
    else if b = byte '.' then some point
    else if isExponent then some exponent
    else none
  | point => if isDigit b then some fraction else none
  | fraction => if isDigit b then some fraction else if isExponent then some exponent else none
  | exponent =>
    if b = byte '+' || b = byte '-' then some exponentSign
    else if isDigit b then some exponentDigits
    else none
  | exponentSign | exponentDigits => if isDigit b then some exponentDigits else none

def complete : NumberPhase → Bool
  | zero | digits | fraction | exponentDigits => true
  | minus | point | exponent | exponentSign => false

end NumberPhase

inductive Escape
  | plain
  | escaped
  | hex (left : Nat)
  deriving DecidableEq

/-- One byte inside a string. -/
def Escape.step (escape : Escape) (b : UInt8) : Option Escape :=
  match escape with
  | plain => if b = backslash then some escaped else if b < 0x20 then none else some plain
  | escaped =>
    if b = byte 'u' then some (hex 3)
    else if b = quote || b = backslash || (bytes "/bfnrt").contains b then some plain
    else none
  | hex left =>
    if (hexDigit b).isSome then
      match left with
      | 0 => some plain
      | left + 1 => some (hex left)
    else none

/-- An open array or object; in an object possibly with a key whose value is not complete. -/
inductive Frame
  | array (items : List Value)
  | object (members : List (Bytes × Value))
  | member (members : List (Bytes × Value)) (key : Bytes)

inductive Phase
  /-- A value begins, or an array ends if it is still empty. -/
  | value (close : Bool)
  /-- A key begins, or an object ends if it is still empty. -/
  | key (close : Bool)
  | colon
  | after
  | done (value : Value)
  | string (isKey : Bool) (raw : Bytes) (escape : Escape)
  | number (literal : Bytes) (phase : NumberPhase)
  | word (rest : Bytes) (value : Value)

/-- The phase, and the open brackets. -/
structure Scanner where
  phase : Phase
  stack : List Frame

namespace Scanner

def start : Scanner :=
  ⟨.value false, []⟩

def complete (stack : List Frame) (value : Value) : Option Scanner :=
  match stack with
  | [] => some ⟨.done value, []⟩
  | .array items :: outer => some ⟨.after, .array (items ++ [value]) :: outer⟩
  | .member members key :: outer => some ⟨.after, .object (members ++ [(key, value)]) :: outer⟩
  | .object _ :: _ => none

/-- The byte after a value: a separator or a closing bracket. -/
def next (stack : List Frame) (b : UInt8) : Option Scanner :=
  match stack with
  | .array items :: outer =>
    if b = byte ',' then some ⟨.value false, stack⟩
    else if b = byte ']' then complete outer (.array items)
    else none
  | .object members :: outer =>
    if b = byte ',' then some ⟨.key false, stack⟩
    else if b = byte '}' then complete outer (.object members)
    else none
  | _ => none

def follow (s : Scanner) (b : UInt8) : Option Scanner :=
  if isSpace b then some s
  else
    match s.phase with
    | .after => next s.stack b
    | _ => none

def scalar (b : UInt8) : Option Phase :=
  if b = quote then some (.string false [] .plain)
  else if b = byte '-' then some (.number [b] .minus)
  else if b = byte '0' then some (.number [b] .zero)
  else if isDigit b then some (.number [b] .digits)
  else if b = byte 't' then some (.word (bytes "rue") (.bool true))
  else if b = byte 'f' then some (.word (bytes "alse") (.bool false))
  else if b = byte 'n' then some (.word (bytes "ull") .null)
  else none

def beginValue (maxDepth : Nat) (stack : List Frame) (b : UInt8) : Option Scanner :=
  if b = byte '{' then
    if stack.length < maxDepth then some ⟨.key true, .object [] :: stack⟩ else none
  else if b = byte '[' then
    if stack.length < maxDepth then some ⟨.value true, .array [] :: stack⟩ else none
  else (scalar b).map fun phase => ⟨phase, stack⟩

def endString (isKey : Bool) (stack : List Frame) (raw : Bytes) : Option Scanner :=
  if isKey then
    match stack with
    | .object members :: outer => some ⟨.colon, .member members raw :: outer⟩
    | _ => none
  else complete stack (.string raw)

/-- One byte; `none` on a byte that no document has there. -/
def step (maxDepth : Nat) (s : Scanner) (b : UInt8) : Option Scanner :=
  match s.phase with
  | .value close =>
    if isSpace b then some s
    else if close && b = byte ']' then next s.stack b
    else beginValue maxDepth s.stack b
  | .key close =>
    if isSpace b then some s
    else if b = quote then some ⟨.string true [] .plain, s.stack⟩
    else if close && b = byte '}' then next s.stack b
    else none
  | .colon =>
    if isSpace b then some s
    else if b = byte ':' then some ⟨.value false, s.stack⟩
    else none
  | .after | .done _ => follow s b
  | .string isKey raw escape =>
    if escape = .plain ∧ b = quote then endString isKey s.stack raw
    else (escape.step b).map fun escape => ⟨.string isKey (raw ++ [b]) escape, s.stack⟩
  | .number literal phase =>
    match phase.step b with
    | some phase => some ⟨.number (literal ++ [b]) phase, s.stack⟩
    -- The byte is not part of the number any more.
    | none =>
      if phase.complete then (complete s.stack (.number literal)).bind (follow · b) else none
  | .word rest value =>
    match rest with
    | [] => none
    | [last] => if b = last then complete s.stack value else none
    | expected :: rest => if b = expected then some ⟨.word rest value, s.stack⟩ else none

def result (s : Scanner) : Option Value :=
  match s.phase with
  | .done value => some value
  | .number literal phase =>
    if phase.complete ∧ s.stack.isEmpty then some (.number literal) else none
  | _ => none

end Scanner

def scan (maxDepth : Nat) (text : Bytes) : Option Value :=
  (text.foldlM (Scanner.step maxDepth) .start).bind Scanner.result

namespace Scanner

/-- White space and the end of what is open, the begin of a value or a key, and one more byte or the
end of a token. -/
inductive Moves (maxDepth : Nat) (b : UInt8) : Scanner → Scanner → Prop
  | follow {s s' : Scanner} (outside : ∀ isKey raw escape, s.phase ≠ .string isKey raw escape)
      (followed : s.follow b = some s') : Moves maxDepth b s s'
  | next {phase : Phase} {stack : List Frame} {s' : Scanner} (stepped : next stack b = some s') :
      Moves maxDepth b ⟨phase, stack⟩ s'
  | begins {close : Bool} {stack : List Frame} {s' : Scanner}
      (begun : beginValue maxDepth stack b = some s') : Moves maxDepth b ⟨.value close, stack⟩ s'
  | key {close : Bool} {stack : List Frame} (isQuote : b = quote) :
      Moves maxDepth b ⟨.key close, stack⟩ ⟨.string true [] .plain, stack⟩
  | colon {stack : List Frame} : Moves maxDepth b ⟨.colon, stack⟩ ⟨.value false, stack⟩
  | string {isKey : Bool} {raw : Bytes} {escape escape' : Escape} {stack : List Frame} :
      Moves maxDepth b ⟨.string isKey raw escape, stack⟩
        ⟨.string isKey (raw ++ [b]) escape', stack⟩
  | endString {isKey : Bool} {raw : Bytes} {escape : Escape} {stack : List Frame} {s' : Scanner}
      (isQuote : b = quote) (ended : endString isKey stack raw = some s') :
      Moves maxDepth b ⟨.string isKey raw escape, stack⟩ s'
  | number {literal : Bytes} {phase phase' : NumberPhase} {stack : List Frame} :
      Moves maxDepth b ⟨.number literal phase, stack⟩ ⟨.number (literal ++ [b]) phase', stack⟩
  | endNumber {literal : Bytes} {phase : NumberPhase} {stack : List Frame} {between s' : Scanner}
      (completed : complete stack (.number literal) = some between)
      (followed : between.follow b = some s') : Moves maxDepth b ⟨.number literal phase, stack⟩ s'
  | word {rest : Bytes} {value : Value} {stack : List Frame} :
      Moves maxDepth b ⟨.word (b :: rest) value, stack⟩ ⟨.word rest value, stack⟩
  | endWord {rest : Bytes} {value : Value} {stack : List Frame} {s' : Scanner}
      (completed : complete stack value = some s') :
      Moves maxDepth b ⟨.word rest value, stack⟩ s'

theorem follow_of_isSpace {s : Scanner} {b : UInt8} (space : isSpace b = true) :
    s.follow b = some s := by
  rw [follow, if_pos space]

theorem moves_of_step {maxDepth : Nat} {s s' : Scanner} {b : UInt8}
    (stepped : s.step maxDepth b = some s') : Moves maxDepth b s s' := by
  obtain ⟨phase, stack⟩ := s
  cases phase with
  | value close =>
    simp only [step] at stepped
    split_ifs at stepped with space
    · exact .follow (by simp) ((follow_of_isSpace space).trans stepped)
    · exact .next stepped
    · exact .begins stepped
  | key close =>
    simp only [step] at stepped
    split_ifs at stepped with space isQuote
    · exact .follow (by simp) ((follow_of_isSpace space).trans stepped)
    · cases stepped
      exact .key isQuote
    · exact .next stepped
  | colon =>
    simp only [step] at stepped
    split_ifs at stepped with space
    · exact .follow (by simp) ((follow_of_isSpace space).trans stepped)
    · cases stepped
      exact .colon
  | after | done result => exact .follow (by simp) stepped
  | string isKey raw escape =>
    simp only [step] at stepped
    split_ifs at stepped with ends
    · exact .endString ends.2 stepped
    · rw [Option.map_eq_some_iff] at stepped
      obtain ⟨escape', _, rfl⟩ := stepped
      exact .string
  | number literal phase =>
    simp only [step] at stepped
    split at stepped
    · cases stepped
      exact .number
    · split_ifs at stepped
      rw [Option.bind_eq_some_iff] at stepped
      obtain ⟨between, completed, followed⟩ := stepped
      exact .endNumber completed followed
  | word rest value =>
    simp only [step] at stepped
    split at stepped
    · cases stepped
    · split_ifs at stepped
      exact .endWord stepped
    · split_ifs at stepped with expected
      cases stepped
      exact expected ▸ .word

end Scanner

theorem foldlM_invariant {motive : Bytes → Scanner → Prop} {maxDepth : Nat}
    (keeps : ∀ read s b s', motive read s → s.step maxDepth b = some s' → motive (read ++ [b]) s')
    (read : Bytes) {text : Bytes} {s s' : Scanner} (holds : motive read s)
    (scanned : text.foldlM (Scanner.step maxDepth) s = some s') : motive (read ++ text) s' := by
  induction text generalizing read s with
  | nil =>
    cases scanned
    simpa using holds
  | cons b text ih =>
    rw [foldlM_cons, Option.bind_eq_bind, Option.bind_eq_some_iff] at scanned
    obtain ⟨between, stepped, scanned⟩ := scanned
    have later := ih (read ++ [b]) (keeps read s b between holds stepped) scanned
    rwa [append_assoc] at later

def Value.keys : Value → List Bytes
  | .object members => members.map Prod.fst
  | _ => []

def Frame.keys : Frame → List Bytes
  | .array _ => []
  | .object members => members.map Prod.fst
  | .member members key => members.map Prod.fst ++ [key]

def Quoted (key text : Bytes) : Prop :=
  quote :: key ++ [quote] <:+: text

def FramesQuoted (read : Bytes) (stack : List Frame) : Prop :=
  ∀ frame ∈ stack, ∀ key ∈ frame.keys, Quoted key read

/-- A string that is not complete is the end of what was read; a literal name has no keys. -/
def Phase.Quoted (read : Bytes) : Phase → Prop
  | .string _ raw _ => quote :: raw <:+ read
  | .done result => ∀ key ∈ result.keys, Text.Quoted key read
  | .word _ result => result.keys = []
  | _ => True

structure Scanner.Quoted (read : Bytes) (s : Scanner) : Prop where
  frames : FramesQuoted read s.stack
  phase : s.phase.Quoted read

section

variable {read : Bytes} {stack : List Frame} {s s' : Scanner} {b : UInt8}

theorem FramesQuoted.append (quoted : FramesQuoted read stack) (more : Bytes) :
    FramesQuoted (read ++ more) stack :=
  fun frame mem key keyMem =>
    (quoted frame mem key keyMem).trans (prefix_append read more).isInfix

theorem Scanner.Quoted.append (quoted : s.Quoted read)
    (outside : ∀ isKey raw escape, s.phase ≠ .string isKey raw escape) (more : Bytes) :
    s.Quoted (read ++ more) := by
  refine ⟨quoted.frames.append more, ?_⟩
  obtain ⟨phase, stack⟩ := s
  cases phase with
  | string isKey raw escape => exact absurd rfl (outside isKey raw escape)
  | done result =>
    intro key mem
    exact (quoted.phase key mem).trans (prefix_append read more).isInfix
  | word rest value => exact quoted.phase
  | value | key | colon | after | number => trivial

theorem complete_quoted {value : Value} (frames : FramesQuoted read stack)
    (keys : ∀ key ∈ value.keys, Quoted key read)
    (completed : Scanner.complete stack value = some s) : s.Quoted read := by
  cases stack with
  | nil =>
    cases completed
    exact ⟨frames, keys⟩
  | cons frame outer =>
    have inner := forall_mem_cons.mp frames
    cases frame with
    | array items =>
      cases completed
      exact ⟨forall_mem_cons.mpr ⟨by simp [Frame.keys], inner.2⟩, trivial⟩
    | object members => cases completed
    | member members key =>
      cases completed
      refine ⟨forall_mem_cons.mpr ⟨?_, inner.2⟩, trivial⟩
      simpa [Frame.keys] using inner.1

theorem next_quoted (frames : FramesQuoted read stack) (stepped : Scanner.next stack b = some s) :
    s.Quoted read := by
  cases stack with
  | nil => cases stepped
  | cons frame outer =>
    have inner := forall_mem_cons.mp frames
    cases frame with
    | array items =>
      simp only [Scanner.next] at stepped
      split_ifs at stepped
      · cases stepped
        exact ⟨frames, trivial⟩
      · exact complete_quoted inner.2 (by simp [Value.keys]) stepped
    | object members =>
      simp only [Scanner.next] at stepped
      split_ifs at stepped
      · cases stepped
        exact ⟨frames, trivial⟩
      · have keys : ∀ key ∈ (Value.object members).keys, Quoted key read := inner.1
        exact complete_quoted inner.2 keys stepped
    | member members key => cases stepped

theorem follow_quoted (quoted : s.Quoted read) (stepped : s.follow b = some s') :
    s'.Quoted read := by
  unfold Scanner.follow at stepped
  split_ifs at stepped with space
  · cases stepped
    exact quoted
  · split at stepped
    · exact next_quoted quoted.frames stepped
    · cases stepped

theorem scalar_quoted {phase : Phase} (begins : Scanner.scalar b = some phase) :
    phase.Quoted (read ++ [b]) := by
  unfold Scanner.scalar at begins
  split_ifs at begins with isQuote
  all_goals cases begins
  · exact isQuote ▸ suffix_append read [b]
  · trivial
  · trivial
  · trivial
  all_goals rfl

variable {maxDepth : Nat}

theorem beginValue_quoted (frames : FramesQuoted (read ++ [b]) stack)
    (stepped : Scanner.beginValue maxDepth stack b = some s) : s.Quoted (read ++ [b]) := by
  unfold Scanner.beginValue at stepped
  split_ifs at stepped
  · cases stepped
    exact ⟨forall_mem_cons.mpr ⟨by simp [Frame.keys], frames⟩, trivial⟩
  · cases stepped
    exact ⟨forall_mem_cons.mpr ⟨by simp [Frame.keys], frames⟩, trivial⟩
  · rw [Option.map_eq_some_iff] at stepped
    obtain ⟨phase, begins, rfl⟩ := stepped
    exact ⟨frames, scalar_quoted begins⟩

theorem endString_quoted {isKey : Bool} {raw : Bytes} (frames : FramesQuoted read stack)
    (whole : Quoted raw read) (stepped : Scanner.endString isKey stack raw = some s) :
    s.Quoted read := by
  unfold Scanner.endString at stepped
  split_ifs at stepped
  · split at stepped
    · cases stepped
      have inner := forall_mem_cons.mp frames
      refine ⟨forall_mem_cons.mpr ⟨?_, inner.2⟩, trivial⟩
      intro key mem
      rcases mem_append.mp mem with earlier | last
      · exact inner.1 key earlier
      · rw [mem_singleton.mp last]
        exact whole
    · cases stepped
  · exact complete_quoted frames (by simp [Value.keys]) stepped

theorem step_quoted (quoted : s.Quoted read) (stepped : s.step maxDepth b = some s') :
    s'.Quoted (read ++ [b]) := by
  have frames := quoted.frames.append [b]
  cases Scanner.moves_of_step stepped with
  | follow outside followed => exact follow_quoted (quoted.append outside [b]) followed
  | next stepped => exact next_quoted frames stepped
  | begins begun => exact beginValue_quoted frames begun
  | key isQuote => exact ⟨frames, isQuote ▸ suffix_append read [b]⟩
  | colon => exact ⟨frames, trivial⟩
  | string =>
    obtain ⟨before, suffix⟩ := quoted.phase
    exact ⟨frames, before, by rw [← suffix]; simp⟩
  | endString isQuote ended =>
    -- The string so far is the end of what was read.
    obtain ⟨before, suffix⟩ := quoted.phase
    exact endString_quoted frames ⟨before, [], by rw [← suffix, isQuote]; simp⟩ ended
  | number => exact ⟨frames, trivial⟩
  | endNumber completed followed =>
    exact follow_quoted (complete_quoted frames (by simp [Value.keys]) completed) followed
  | word => exact ⟨frames, quoted.phase⟩
  | endWord completed =>
    have noKeys : Value.keys _ = [] := quoted.phase
    exact complete_quoted frames (by simp [noKeys]) completed

theorem scan_quoted {text : Bytes} {members : List (Bytes × Value)}
    (scanned : scan maxDepth text = some (.object members)) {member : Bytes × Value}
    (mem : member ∈ members) : Quoted member.1 text := by
  rw [scan, Option.bind_eq_some_iff] at scanned
  obtain ⟨s, scanned, result⟩ := scanned
  have started : Scanner.start.Quoted [] := ⟨by simp [FramesQuoted, Scanner.start], trivial⟩
  have quoted := (foldlM_invariant (motive := fun read s => s.Quoted read)
    (fun _ _ _ _ quoted stepped => step_quoted quoted stepped) [] started scanned).phase
  unfold Scanner.result at result
  split at result
  · rename_i ended
    rw [ended, Option.some.inj result] at quoted
    exact quoted member.1 (mem_map_of_mem mem)
  · split_ifs at result
    cases Option.some.inj result
  · cases result

end

end OpenThesis.Json.Text
