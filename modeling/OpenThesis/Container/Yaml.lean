import Mathlib.Data.List.TakeWhile
import OpenThesis.Text.Core

/-!
# The compose file parser

The parser of `internal/container/yaml.go`. Each loop leaves the lines that are not its own to its
caller; the outermost caller does not look at them.
-/

namespace OpenThesis.Container

open Text List

/-- A value of the tree. `number` is a number of a flow collection before it is made into text. -/
inductive Yaml where
  | null
  | bool (value : Bool)
  | number (text : Bytes)
  | str (text : Bytes)
  | seq (items : List Yaml)
  | map (entries : List (Bytes × Yaml))
  deriving Repr

abbrev Entries := List (Bytes × Yaml)

def Entries.set (entries : Entries) (key : Bytes) (value : Yaml) : Entries :=
  if entries.any (·.1 == key) then
    entries.map fun entry => if entry.1 == key then (key, value) else entry
  else entries ++ [(key, value)]

/-- `strconv.Unquote`, the verb `%q`, `json.Marshal` on a string, and the JSON decoder with
`UseNumber`. -/
structure Library where
  unquote : Bytes → Option Bytes
  quote : Bytes → String
  marshal : Bytes → Bytes
  decode : Bytes → Except String Yaml

/-- A line with its indentation. -/
structure YamlLine where
  indent : Nat
  content : Bytes
  number : Nat
  deriving DecidableEq, Repr

def commentStartFrom (prev : Option UInt8) (inSingle inDouble : Bool) (i : Nat) :
    Bytes → Option Nat
  | [] => none
  | [c] =>
    if c = byte '#' ∧ !inSingle ∧ !inDouble ∧
        (prev = none ∨ prev = some (byte ' ') ∨ prev = some (byte '\t')) then some i
    else none
  | c :: next :: rest =>
    if c = byte '\\' ∧ inDouble then
      commentStartFrom (some next) inSingle inDouble (i + 2) rest
    else if c = byte '"' ∧ !inSingle then
      commentStartFrom (some c) inSingle (!inDouble) (i + 1) (next :: rest)
    else if c = byte '\'' ∧ !inDouble then
      commentStartFrom (some c) (!inSingle) inDouble (i + 1) (next :: rest)
    else if c = byte '#' ∧ !inSingle ∧ !inDouble ∧
        (prev = none ∨ prev = some (byte ' ') ∨ prev = some (byte '\t')) then some i
    else commentStartFrom (some c) inSingle inDouble (i + 1) (next :: rest)

def findCommentStart (line : Bytes) : Option Nat :=
  commentStartFrom none false false 0 line

/-- Why an input is refused. `outOfFuel` is not an error of the source. -/
inductive YamlError where
  | tabIndentation (number : Nat)
  | unexpectedIndentation (number got expected : Nat)
  | badLine (number : Nat) (reason : String)
  | outOfFuel
  deriving DecidableEq, Repr

def YamlError.message : YamlError → String
  | tabIndentation number =>
    s!"yaml line {number}: tab indentation is not supported; use spaces"
  | unexpectedIndentation number got expected =>
    s!"yaml line {number}: unexpected indentation (got {got}, expected {expected})"
  | badLine number reason => s!"yaml line {number}: {reason}"
  | outOfFuel => "out of fuel"

def tokenizeLine (number : Nat) (rawLine : Bytes) : Except YamlError (Option YamlLine) :=
  let line := trimRight (· == byte '\r') rawLine
  let line := match findCommentStart line with
    | some i => line.take i
    | none => line
  if trimSpace line = [] then .ok none
  else if line.head? = some (byte '\t') then .error (.tabIndentation number)
  else
    let content := trimRight (· == byte ' ') (line.dropWhile (· == byte ' '))
    if content = [] ∨ content = bytes "---" ∨ content = bytes "..." then .ok none
    else .ok (some { indent := (line.takeWhile (· == byte ' ')).length, content, number })

def tokenizeYAML (data : Bytes) : Except YamlError (List YamlLine) := do
  let lines ← ((data.splitOn (byte '\n')).zipIdx 1).mapM fun line => tokenizeLine line.2 line.1
  return lines.reduceOption

def isQuoted (quote : UInt8) (s : Bytes) : Bool :=
  2 ≤ s.length && s.head? == some quote && s.getLast? == some quote

def unescapeSingle : Bytes → Bytes
  | [] => []
  | [c] => [c]
  | c :: next :: rest =>
    if c = byte '\'' ∧ next = byte '\'' then c :: unescapeSingle rest
    else c :: unescapeSingle (next :: rest)

def keyColonFrom (inSingle inDouble : Bool) (before : Bytes) : Bytes → Option (Bytes × Bytes)
  | [] => none
  | [c] => if c = byte ':' ∧ !inSingle ∧ !inDouble then some (before, []) else none
  | c :: next :: rest =>
    if c = byte '\\' ∧ inDouble then
      keyColonFrom inSingle inDouble (before ++ [c, next]) rest
    else if c = byte '"' ∧ !inSingle then
      keyColonFrom inSingle (!inDouble) (before ++ [c]) (next :: rest)
    else if c = byte '\'' ∧ !inDouble then
      keyColonFrom (!inSingle) inDouble (before ++ [c]) (next :: rest)
    else if c = byte ':' ∧ !inSingle ∧ !inDouble ∧ (next = byte ' ' ∨ next = byte '\t') then
      some (before, next :: rest)
    else keyColonFrom inSingle inDouble (before ++ [c]) (next :: rest)

def isFlowStructural (c : UInt8) : Bool :=
  (bytes ",:\x7b\x7d[]\"'").contains c

def doubleQuoted : Bytes → Bytes × Bytes
  | [] => ([], [])
  | [c] => ([c], [])
  | c :: next :: rest =>
    if c = byte '\\' then ((c :: next :: (doubleQuoted rest).1), (doubleQuoted rest).2)
    else if c = byte '"' then ([c], next :: rest)
    else (c :: (doubleQuoted (next :: rest)).1, (doubleQuoted (next :: rest)).2)

theorem length_doubleQuoted_le (s : Bytes) : (doubleQuoted s).2.length ≤ s.length := by
  fun_induction doubleQuoted s with
  | case1 | case2 => simp
  | case3 next rest ih =>
    simp only [length_cons]
    omega
  | case4 => simp
  | case5 c next rest _ _ ih =>
    simp only [length_cons] at ih ⊢
    omega

mutual

def normalizeJSONValue : Yaml → Yaml
  | .null => .null
  | .bool value => .bool value
  | .number text => .str text
  | .str text => .str text
  | .seq items => .seq (normalizeItems items)
  | .map entries => .map (normalizeEntries entries)

def normalizeItems : List Yaml → List Yaml
  | [] => []
  | item :: items => normalizeJSONValue item :: normalizeItems items

def normalizeEntries : Entries → Entries
  | [] => []
  | (key, value) :: entries => (key, normalizeJSONValue value) :: normalizeEntries entries

end

section

variable (lib : Library)

def unquote (s : Bytes) : Bytes :=
  if isQuoted (byte '"') s then (lib.unquote s).getD s
  else if isQuoted (byte '\'') s then unescapeSingle s.tail.dropLast
  else s

def splitKey (line : Bytes) : Except String (Bytes × Bytes) :=
  match keyColonFrom false false [] line with
  | none => .error s!"expected ':' in mapping line {lib.quote line}"
  | some (key, rest) =>
    if trimSpace key = [] then .error "empty key"
    else .ok (unquote lib (trimSpace key), trimSpace rest)

def tryMappingStart (line : Bytes) : Except String (Bytes × Bytes) :=
  if line.head? = some (byte '\x7b') ∨ line.head? = some (byte '[') then .error "flow collection"
  else splitKey lib line

def flowToJSONFrom (s : Bytes) (depth : Nat) : Bytes → Except String Bytes
  | [] => if depth = 0 then .ok [] else .error s!"unbalanced flow collection {lib.quote s}"
  | c :: rest =>
    if c ∈ bytes " \t,:" then (flowToJSONFrom s depth rest).map (c :: ·)
    else if c ∈ bytes "\x7b[" then (flowToJSONFrom s (depth + 1) rest).map (c :: ·)
    else if c ∈ bytes "\x7d]" then (flowToJSONFrom s (depth - 1) rest).map (c :: ·)
    else if c = byte '"' then
      (flowToJSONFrom s depth (doubleQuoted rest).2).map (c :: (doubleQuoted rest).1 ++ ·)
    else if c = byte '\'' then
      if rest.dropWhile (· != byte '\'') = [] then
        .error s!"unterminated single quote in flow {lib.quote s}"
      else
        (flowToJSONFrom s depth (rest.dropWhile (· != byte '\'')).tail).map
          (lib.marshal (rest.takeWhile (· != byte '\'')) ++ ·)
    else
      -- The first byte is not structural, so that a bare scalar is never empty.
      let token := trimSpace (c :: rest.takeWhile (!isFlowStructural ·))
      (flowToJSONFrom s depth (rest.dropWhile (!isFlowStructural ·))).map
        ((if token = [] then [] else lib.marshal token) ++ ·)
termination_by text => text.length
decreasing_by
  · simp
  · simp
  · simp
  · simpa [Nat.lt_succ_iff] using length_doubleQuoted_le rest
  · have bound := length_dropWhile_le (· != byte '\'') rest
    rw [length_tail, length_cons]
    omega
  · simpa [Nat.lt_succ_iff] using length_dropWhile_le (!isFlowStructural ·) rest

def flowToJSON (s : Bytes) : Except String Bytes :=
  flowToJSONFrom lib s 0 s

def parseFlow (s : Bytes) : Except String Yaml :=
  match flowToJSON lib s with
  | .error reason => .error reason
  | .ok jsonSrc =>
    match lib.decode jsonSrc with
    | .error reason => .error s!"flow {lib.quote s}: {reason}"
    | .ok out => .ok (normalizeJSONValue out)

def nullTokens : List Bytes :=
  [bytes "null", bytes "~", bytes "Null", bytes "NULL"]

/-- A flow collection, a quoted string, a null, or the text itself. -/
def parseScalar (s : Bytes) : Except String Yaml :=
  let s := trimSpace s
  if s = [] then .ok (.str [])
  else if (s.head? = some (byte '\x7b') ∧ s.getLast? = some (byte '\x7d')) ∨
      (s.head? = some (byte '[') ∧ s.getLast? = some (byte ']')) then parseFlow lib s
  else if isQuoted (byte '"') s ∨ isQuoted (byte '\'') s then .ok (.str (unquote lib s))
  else if s ∈ nullTokens then .ok .null
  else .ok (.str s)

def scalarValue (lib : Library) (s : Bytes) : Yaml :=
  if isQuoted (byte '"') s ∨ isQuoted (byte '\'') s then .str (unquote lib s)
  else if s ∈ nullTokens then .null
  else .str s

abbrev Parsed (α : Type) := Except YamlError (α × List YamlLine)

def Parsed.andThen {α β : Type} : Parsed α → (α → List YamlLine → Parsed β) → Parsed β
  | .error e, _ => .error e
  | .ok (value, lines), next => next value lines

def YamlLine.located {α : Type} (line : YamlLine) (lines : List YamlLine) :
    Except String α → Parsed α
  | .error reason => .error (.badLine line.number reason)
  | .ok value => .ok (value, lines)

def YamlLine.isItem (line : YamlLine) : Bool :=
  (bytes "- ").isPrefixOf line.content || line.content == bytes "-"

def YamlLine.hasDash (line : YamlLine) : Bool :=
  (bytes "-").isPrefixOf line.content

def YamlLine.item (line : YamlLine) : Bytes :=
  match line.content.tail with
  | [] => []
  | c :: rest => if c = byte ' ' then rest else c :: rest

def itemKey (item : Bytes) : Option (Bytes × Bytes) :=
  match tryMappingStart lib item with
  | .error _ => none
  | .ok (key, text) => if key = [] then none else some (key, text)

def parseBlockWith (parseMap parseSeq : Nat → List YamlLine → Parsed Yaml) (indent : Nat) :
    List YamlLine → Parsed Yaml
  | [] => .ok (.null, [])
  | line :: rest =>
    if line.indent < indent then .ok (.null, line :: rest)
    else if line.isItem then parseSeq indent (line :: rest)
    else parseMap indent (line :: rest)

def parseNestedBlockWith (parseMap parseSeq : Nat → List YamlLine → Parsed Yaml) (parent : Nat) :
    List YamlLine → Parsed Yaml
  | [] => .ok (.null, [])
  | line :: rest =>
    if line.indent ≤ parent then .ok (.null, line :: rest)
    else parseBlockWith parseMap parseSeq line.indent (line :: rest)

def parseValueWith (nested : Nat → List YamlLine → Parsed Yaml) (line : YamlLine) (indent : Nat)
    (text : Bytes) (rest : List YamlLine) : Parsed Yaml :=
  if text = [] then nested indent rest
  else line.located rest (parseScalar lib text)

mutual

def parseMap : Nat → Nat → Entries → List YamlLine → Parsed Yaml
  | 0, _, _, _ => .error .outOfFuel
  | _ + 1, _, result, [] => .ok (.map result, [])
  | fuel + 1, indent, result, line :: rest =>
    if line.indent < indent then .ok (.map result, line :: rest)
    else if indent < line.indent then
      .error (.unexpectedIndentation line.number line.indent indent)
    else if line.isItem then .ok (.map result, line :: rest)
    else
      (line.located rest (splitKey lib line.content)).andThen fun entry rest =>
      (parseValueWith lib (parseNestedBlockWith (parseMap fuel · []) (parseSeq fuel · []))
        line indent entry.2 rest).andThen fun value rest =>
      parseMap fuel indent (result.set entry.1 value) rest

def parseSeq : Nat → Nat → List Yaml → List YamlLine → Parsed Yaml
  | 0, _, _, _ => .error .outOfFuel
  | _ + 1, _, result, [] => .ok (.seq result, [])
  | fuel + 1, indent, result, line :: rest =>
    if line.indent < indent then .ok (.seq result, line :: rest)
    else if indent < line.indent then
      .error (.unexpectedIndentation line.number line.indent indent)
    else if !line.hasDash then .ok (.seq result, line :: rest)
    else if line.item = [] then
      (parseNestedBlockWith (parseMap fuel · []) (parseSeq fuel · []) indent rest).andThen
        fun child rest => parseSeq fuel indent (result ++ [child]) rest
    else
      match itemKey lib line.item with
      | some (key, text) =>
        (parseValueWith lib (parseNestedBlockWith (parseMap fuel · []) (parseSeq fuel · []))
          line (indent + 2) text rest).andThen fun value rest =>
        (parseItemKeys fuel (indent + 2) [(key, value)] rest).andThen fun sub rest =>
        parseSeq fuel indent (result ++ [sub]) rest
      | none =>
        (line.located rest (parseScalar lib line.item)).andThen fun value rest =>
        parseSeq fuel indent (result ++ [value]) rest

def parseItemKeys : Nat → Nat → Entries → List YamlLine → Parsed Yaml
  | 0, _, _, _ => .error .outOfFuel
  | _ + 1, _, sub, [] => .ok (.map sub, [])
  | fuel + 1, childIndent, sub, next :: rest =>
    if next.indent ≠ childIndent then .ok (.map sub, next :: rest)
    else if next.isItem then .ok (.map sub, next :: rest)
    else
      (next.located rest (splitKey lib next.content)).andThen fun entry rest =>
      (parseValueWith lib (parseNestedBlockWith (parseMap fuel · []) (parseSeq fuel · []))
        next childIndent entry.2 rest).andThen fun value rest =>
      parseItemKeys fuel childIndent (sub.set entry.1 value) rest

end

abbrev parseNestedBlock (fuel : Nat) : Nat → List YamlLine → Parsed Yaml :=
  parseNestedBlockWith (parseMap lib fuel · []) (parseSeq lib fuel · [])

def parseBlock (fuel indent : Nat) (lines : List YamlLine) : Parsed Yaml :=
  parseBlockWith (parseMap lib fuel · []) (parseSeq lib fuel · []) indent lines

def parseLines (lines : List YamlLine) : Parsed Yaml :=
  if lines = [] then .ok (.map [], [])
  else parseBlock lib (lines.length + 1) 0 lines

def parseYAML (data : Bytes) : Parsed Yaml :=
  match tokenizeYAML data with
  | .error e => .error e
  | .ok lines => parseLines lib lines

def parseYAMLTree (data : Bytes) : Except YamlError Yaml :=
  (parseYAML lib data).map Prod.fst

/-- The lines before `rest` are deeper than `indent`, or at `indent` and of the reader's own
kind. -/
def Reads (indent : Nat) (own : YamlLine → Prop) (lines rest : List YamlLine) : Prop :=
  ∃ used, lines = used ++ rest ∧
    ∀ line ∈ used, indent < line.indent ∨ line.indent = indent ∧ own line

/-- The first line of `rest` is less deep than `indent`, or at `indent` and of another kind. -/
def Stops (indent : Nat) (own : YamlLine → Prop) (rest : List YamlLine) : Prop :=
  ∀ line ∈ rest.head?, line.indent < indent ∨ line.indent = indent ∧ ¬ own line

section

variable {indent : Nat} {own : YamlLine → Prop} {lines middle rest : List YamlLine}

theorem Reads.refl : Reads indent own lines lines :=
  ⟨[], rfl, by simp⟩

theorem Reads.trans (first : Reads indent own lines middle)
    (second : Reads indent own middle rest) : Reads indent own lines rest := by
  obtain ⟨used, rfl, usedOwn⟩ := first
  obtain ⟨used', rfl, usedOwn'⟩ := second
  refine ⟨used ++ used', by simp, fun line mem => ?_⟩
  rcases mem_append.mp mem with mem | mem
  · exact usedOwn line mem
  · exact usedOwn' line mem

theorem Reads.cons {line : YamlLine} (atIndent : line.indent = indent) (isOwn : own line)
    (reads : Reads indent own lines rest) : Reads indent own (line :: lines) rest := by
  obtain ⟨used, rfl, usedOwn⟩ := reads
  refine ⟨line :: used, rfl, ?_⟩
  rintro line' (_ | ⟨_, mem⟩)
  · exact .inr ⟨atIndent, isOwn⟩
  · exact usedOwn line' mem

theorem Reads.outer {outer : Nat} {kind : YamlLine → Prop} (le : outer < indent)
    (reads : Reads indent kind lines rest) : Reads outer own lines rest := by
  obtain ⟨used, rfl, usedOwn⟩ := reads
  refine ⟨used, rfl, fun line mem => .inl ?_⟩
  rcases usedOwn line mem with deeper | ⟨same, _⟩
  · exact le.trans deeper
  · exact same ▸ le

theorem Reads.deeper (reads : Reads indent (fun _ => False) lines rest) :
    Reads indent own lines rest := by
  obtain ⟨used, rfl, usedOwn⟩ := reads
  exact ⟨used, rfl, fun line mem => (usedOwn line mem).imp_right fun h => h.2.elim⟩

theorem Reads.length_le (reads : Reads indent own lines rest) : rest.length ≤ lines.length := by
  obtain ⟨used, rfl, _⟩ := reads
  simp

end

/-- The reader does not run out of fuel, and what it leaves is as stated. -/
def Parsed.Leaves {α : Type} (post : List YamlLine → Prop) : Parsed α → Prop
  | .error e => e ≠ .outOfFuel
  | .ok (_, rest) => post rest

theorem Parsed.Leaves.imp {α : Type} {post post' : List YamlLine → Prop} {parsed : Parsed α}
    (leaves : parsed.Leaves post) (weaken : ∀ rest, post rest → post' rest) :
    parsed.Leaves post' := by
  cases parsed with
  | error e => exact leaves
  | ok result => exact weaken _ leaves

theorem Parsed.Leaves.andThen {α β : Type} {post post' : List YamlLine → Prop} {parsed : Parsed α}
    {next : α → List YamlLine → Parsed β} (leaves : parsed.Leaves post)
    (nextLeaves : ∀ value rest, post rest → (next value rest).Leaves post') :
    (parsed.andThen next).Leaves post' := by
  cases parsed with
  | error e => exact leaves
  | ok result => exact nextLeaves _ _ leaves

theorem YamlLine.located_leaves {α : Type} (line : YamlLine) (lines : List YamlLine)
    (result : Except String α) : (line.located lines result).Leaves (· = lines) := by
  cases result with
  | error reason => exact nofun
  | ok value => exact rfl

section

variable {parseMap parseSeq : Nat → List YamlLine → Parsed Yaml} {lines : List YamlLine}

theorem parseNestedBlockWith_leaves {mapOwn seqOwn : YamlLine → Prop}
    (map : ∀ indent, (parseMap indent lines).Leaves (Reads indent mapOwn lines))
    (seq : ∀ indent, (parseSeq indent lines).Leaves (Reads indent seqOwn lines)) (parent : Nat) :
    (parseNestedBlockWith parseMap parseSeq parent lines).Leaves
      (Reads parent (fun _ => False) lines) := by
  cases lines with
  | nil => exact Reads.refl
  | cons line rest =>
    simp only [parseNestedBlockWith, parseBlockWith, lt_irrefl, if_false]
    split
    · exact Reads.refl
    case isFalse deeper =>
      rw [not_le] at deeper
      split
      · exact (seq line.indent).imp fun _ reads => reads.outer deeper
      · exact (map line.indent).imp fun _ reads => reads.outer deeper

theorem parseValueWith_leaves {nested : Nat → List YamlLine → Parsed Yaml} {indent : Nat}
    (nestedLeaves : (nested indent lines).Leaves (Reads indent (fun _ => False) lines))
    (line : YamlLine) (text : Bytes) : (parseValueWith lib nested line indent text lines).Leaves
      (Reads indent (fun _ => False) lines) := by
  rw [parseValueWith]
  split
  · exact nestedLeaves
  · exact (line.located_leaves lines _).imp fun _ same => same ▸ Reads.refl

end

structure LoopsLeave (fuel : Nat) : Prop where
  map : ∀ indent result lines, lines.length < fuel →
    (parseMap lib fuel indent result lines).Leaves fun rest =>
      Reads indent (¬ ·.isItem) lines rest ∧ Stops indent (¬ ·.isItem) rest
  seq : ∀ indent result lines, lines.length < fuel →
    (parseSeq lib fuel indent result lines).Leaves fun rest =>
      Reads indent (·.hasDash) lines rest ∧ Stops indent (·.hasDash) rest
  keys : ∀ indent sub lines, lines.length < fuel →
    (parseItemKeys lib fuel indent sub lines).Leaves (Reads indent (fun _ => True) lines)

section

variable {lib} {fuel : Nat} (loops : LoopsLeave lib fuel) {lines : List YamlLine}

include loops

theorem LoopsLeave.nested (enough : lines.length < fuel) (parent : Nat) :
    (parseNestedBlock lib fuel parent lines).Leaves (Reads parent (fun _ => False) lines) :=
  parseNestedBlockWith_leaves
    (fun indent => (loops.map indent [] lines enough).imp fun _ left => left.1)
    (fun indent => (loops.seq indent [] lines enough).imp fun _ left => left.1) parent

theorem LoopsLeave.value (enough : lines.length < fuel) (line : YamlLine) (indent : Nat)
    (text : Bytes) :
    (parseValueWith lib (parseNestedBlock lib fuel) line indent text lines).Leaves
      (Reads indent (fun _ => False) lines) :=
  parseValueWith_leaves lib (loops.nested enough indent) line text

theorem LoopsLeave.map_step (indent : Nat) (result : Entries) (enough : lines.length < fuel + 1) :
    (parseMap lib (fuel + 1) indent result lines).Leaves fun rest =>
      Reads indent (¬ ·.isItem) lines rest ∧ Stops indent (¬ ·.isItem) rest := by
  cases lines with
  | nil =>
    rw [parseMap]
    exact ⟨Reads.refl, by simp [Stops]⟩
  | cons line rest =>
    have enough : rest.length < fuel := Nat.lt_of_succ_lt_succ enough
    rw [parseMap]
    split_ifs with shallower deeper item
    · exact ⟨Reads.refl, by simpa [Stops] using .inl shallower⟩
    · exact nofun
    · exact ⟨Reads.refl, by simpa [Stops, item] using .inr (by omega)⟩
    · have atIndent : line.indent = indent := by omega
      apply (line.located_leaves rest _).andThen
      rintro entry _ rfl
      apply (loops.value enough line indent entry.2).andThen
      intro value left read
      apply (loops.map indent _ left (read.length_le.trans_lt enough)).imp
      intro rest' loop
      exact ⟨(read.deeper.trans loop.1).cons atIndent item, loop.2⟩

theorem LoopsLeave.keys_step (indent : Nat) (sub : Entries) (enough : lines.length < fuel + 1) :
    (parseItemKeys lib (fuel + 1) indent sub lines).Leaves
      (Reads indent (fun _ => True) lines) := by
  cases lines with
  | nil =>
    rw [parseItemKeys]
    exact Reads.refl
  | cons line rest =>
    have enough : rest.length < fuel := Nat.lt_of_succ_lt_succ enough
    rw [parseItemKeys]
    split_ifs with other item
    · exact Reads.refl
    · exact Reads.refl
    · apply (line.located_leaves rest _).andThen
      rintro entry _ rfl
      apply (loops.value enough line indent entry.2).andThen
      intro value left read
      apply (loops.keys indent _ left (read.length_le.trans_lt enough)).imp
      intro rest' loop
      exact (read.deeper.trans loop).cons (not_not.mp other) trivial

theorem LoopsLeave.seq_behind {line : YamlLine} {rest left : List YamlLine} {indent : Nat}
    (result : List Yaml) (enough : rest.length < fuel) (atIndent : line.indent = indent)
    (dash : line.hasDash) (read : Reads indent (fun _ => False) rest left) :
    (parseSeq lib fuel indent result left).Leaves fun rest' =>
      Reads indent (·.hasDash) (line :: rest) rest' ∧ Stops indent (·.hasDash) rest' := by
  apply (loops.seq indent result left (read.length_le.trans_lt enough)).imp
  intro rest' loop
  exact ⟨(read.deeper.trans loop.1).cons atIndent dash, loop.2⟩

theorem LoopsLeave.seq_step (indent : Nat) (result : List Yaml) (enough : lines.length < fuel + 1) :
    (parseSeq lib (fuel + 1) indent result lines).Leaves fun rest =>
      Reads indent (·.hasDash) lines rest ∧ Stops indent (·.hasDash) rest := by
  cases lines with
  | nil =>
    rw [parseSeq]
    exact ⟨Reads.refl, by simp [Stops]⟩
  | cons line rest =>
    have enough : rest.length < fuel := Nat.lt_of_succ_lt_succ enough
    rw [parseSeq]
    split_ifs with shallower deeper dash bare
    · exact ⟨Reads.refl, by simpa [Stops] using .inl shallower⟩
    · exact nofun
    · exact ⟨Reads.refl, by simpa [Stops] using .inr ⟨by omega, by simpa using dash⟩⟩
    · have atIndent : line.indent = indent := by omega
      have dash : line.hasDash := by simpa using dash
      apply (loops.nested enough indent).andThen
      intro child left read
      exact loops.seq_behind _ enough atIndent dash read
    · have atIndent : line.indent = indent := by omega
      have dash : line.hasDash := by simpa using dash
      split
      case h_1 key text start =>
        apply (loops.value enough line (indent + 2) text).andThen
        intro value left read
        apply (loops.keys (indent + 2) _ left (read.length_le.trans_lt enough)).andThen
        intro sub left' keys
        exact loops.seq_behind _ enough atIndent dash ((read.deeper.trans keys).outer (by omega))
      case h_2 =>
        apply (line.located_leaves rest _).andThen
        rintro value _ rfl
        exact loops.seq_behind _ enough atIndent dash Reads.refl

end

theorem loopsLeave (fuel : Nat) : LoopsLeave lib fuel := by
  induction fuel with
  | zero => exact ⟨by simp, by simp, by simp⟩
  | succ fuel loops =>
    exact ⟨fun indent result _ => loops.map_step indent result,
      fun indent result _ => loops.seq_step indent result,
      fun indent sub _ => loops.keys_step indent sub⟩

def OneKind (lines : List YamlLine) : Prop :=
  ∀ first ∈ lines.head?, ∀ line ∈ lines, line.indent = 0 →
    if first.isItem then line.hasDash else ¬ line.isItem

instance OneKind.decidable (lines : List YamlLine) : Decidable (OneKind lines) :=
  inferInstanceAs (Decidable (∀ first ∈ lines.head?, ∀ line ∈ lines, _ → _))

theorem rest_eq_nil_iff {own : YamlLine → Prop} {lines rest : List YamlLine}
    (reads : Reads 0 own lines rest) (stops : Stops 0 own rest) :
    rest = [] ↔ ∀ line ∈ lines, line.indent = 0 → own line := by
  obtain ⟨used, rfl, usedOwn⟩ := reads
  constructor
  · rintro rfl line mem atZero
    rw [append_nil] at mem
    rcases usedOwn line mem with deeper | ⟨_, isOwn⟩
    · omega
    · exact isOwn
  · intro all
    cases rest with
    | nil => rfl
    | cons line rest =>
      rcases stops line rfl with shallower | ⟨atZero, other⟩
      · exact absurd shallower (Nat.not_lt_zero _)
      · exact absurd (all line (by simp) atZero) other

theorem parseLines_leaves (lines : List YamlLine) :
    (parseLines lib lines).Leaves fun rest => rest = [] ↔ OneKind lines := by
  rw [parseLines]
  split
  case isTrue empty =>
    subst empty
    exact iff_of_true rfl (by simp [OneKind])
  case isFalse nonempty =>
    have loops := loopsLeave lib (lines.length + 1)
    cases lines with
    | nil => exact absurd rfl nonempty
    | cons first rest =>
      simp only [parseBlock, parseBlockWith, Nat.not_lt_zero, if_false, OneKind,
        head?_cons, Option.mem_some_iff, forall_eq']
      split_ifs with item
      · exact (loops.seq 0 [] _ (Nat.lt_succ_self _)).imp fun _ left =>
          rest_eq_nil_iff left.1 left.2
      · exact (loops.map 0 [] _ (Nat.lt_succ_self _)).imp fun _ left =>
          rest_eq_nil_iff left.1 left.2

theorem tokenizeLine_ne_outOfFuel (number : Nat) (rawLine : Bytes) :
    tokenizeLine number rawLine ≠ .error .outOfFuel := by
  unfold tokenizeLine
  dsimp only
  split_ifs <;> exact nofun

theorem tokenizeYAML_ne_outOfFuel (data : Bytes) : tokenizeYAML data ≠ .error .outOfFuel := by
  have noFuel : ∀ lines : List (Bytes × Nat),
      lines.mapM (fun line => tokenizeLine line.2 line.1) ≠ .error .outOfFuel := by
    intro lines
    induction lines with
    | nil => exact nofun
    | cons line lines ih =>
      rw [mapM_cons]
      cases first : tokenizeLine line.2 line.1 with
      | error e =>
        rintro ⟨⟩
        exact tokenizeLine_ne_outOfFuel _ _ first
      | ok token =>
        cases others : lines.mapM (fun line => tokenizeLine line.2 line.1) with
        | error e =>
          rintro ⟨⟩
          exact ih others
        | ok tokens => exact nofun
  unfold tokenizeYAML
  cases tokens : ((data.splitOn (byte '\n')).zipIdx 1).mapM
      (fun line => tokenizeLine line.2 line.1) with
  | error e =>
    rintro ⟨⟩
    exact noFuel _ tokens
  | ok tokens => exact nofun

theorem parseYAML_leaves (data : Bytes) : (parseYAML lib data).Leaves fun rest =>
      rest = [] ↔ ∃ lines, tokenizeYAML data = .ok lines ∧ OneKind lines := by
  rw [parseYAML]
  cases tokens : tokenizeYAML data with
  | error e =>
    rintro rfl
    exact tokenizeYAML_ne_outOfFuel data tokens
  | ok lines => exact (parseLines_leaves lib lines).imp fun rest iff => by simpa using iff

/-- The parser always ends, and a parse that succeeds has read every line exactly if the lines
without indentation are of one kind. -/
theorem parseYAML_reads_all_iff (data : Bytes) :
    parseYAMLTree lib data ≠ .error .outOfFuel ∧
      ∀ tree rest, parseYAML lib data = .ok (tree, rest) →
        (rest = [] ↔ ∃ lines, tokenizeYAML data = .ok lines ∧ OneKind lines) := by
  have leaves := parseYAML_leaves lib data
  rw [parseYAMLTree]
  cases parsed : parseYAML lib data with
  | error e =>
    rw [parsed] at leaves
    exact ⟨fun outOfFuel => leaves (Except.error.inj outOfFuel), nofun⟩
  | ok result =>
    rw [parsed] at leaves
    refine ⟨nofun, ?_⟩
    rintro tree rest ⟨⟩
    exact leaves

end

theorem parseYAML_reads_all_services :
    ∃ lib tree rest,
      parseYAML lib (bytes "services:\n  a:\n    ports:\n      - 80\n  b: y") =
        .ok (tree, rest) ∧ rest = [] := by
  let lib : Library := ⟨fun _ => none, fun _ => "", id, fun _ => .error ""⟩
  let data := bytes "services:\n  a:\n    ports:\n      - 80\n  b: y"
  have succeeds : (parseYAML lib data).isOk = true := by decide +kernel
  cases parsed : parseYAML lib data with
  | error e =>
    rw [parsed] at succeeds
    cases succeeds
  | ok result =>
    refine ⟨lib, result.1, result.2, parsed, ?_⟩
    apply ((parseYAML_reads_all_iff lib data).2 result.1 result.2 parsed).mpr
    exact ⟨_, rfl, by decide⟩

/-- A sequence at the indentation of its key ends the mapping: neither it nor the next key is read,
and no error is reported. -/
theorem parseYAML_loses_sequence_and_key :
    tokenizeYAML (bytes "a:\n- x\nb: y") =
        .ok [⟨0, bytes "a:", 1⟩, ⟨0, bytes "- x", 2⟩, ⟨0, bytes "b: y", 3⟩] ∧
      ∀ lib, parseYAML lib (bytes "a:\n- x\nb: y") =
        .ok (.map [(bytes "a", .null)], [⟨0, bytes "- x", 2⟩, ⟨0, bytes "b: y", 3⟩]) := by
  refine ⟨rfl, ?_⟩
  intro lib
  rfl

end OpenThesis.Container
