import Mathlib.Data.List.DropRight
import Mathlib.Data.List.ReduceOption
import OpenThesis.Container.Yaml

/-!
# Block style

Trees written in the block style of compose files and read back. What the parser does with a block
does not depend on lines that are less deep.
-/

namespace OpenThesis.Container

open Text List

def isWordByte (b : UInt8) : Bool :=
  byte 'a' ≤ b && b ≤ byte 'z' || byte 'A' ≤ b && b ≤ byte 'Z' || byte '0' ≤ b && b ≤ byte '9' ||
    (bytes "./_").contains b || 0x80 ≤ b

structure IsWord (text : Bytes) : Prop where
  nonempty : text ≠ []
  word : ∀ b ∈ text, isWordByte b
  trimmed : trimSpace text = text

instance (text : Bytes) : Decidable (IsWord text) :=
  decidable_of_iff (text ≠ [] ∧ (∀ b ∈ text, isWordByte b) ∧ trimSpace text = text)
    ⟨fun ⟨nonempty, word, trimmed⟩ => ⟨nonempty, word, trimmed⟩,
      fun ⟨nonempty, word, trimmed⟩ => ⟨nonempty, word, trimmed⟩⟩

/-- Mappings and sequences that are not empty, with words for keys and scalars. -/
inductive Yaml.Plain : Yaml → Prop
  | str {text : Bytes} (word : IsWord text) (notNull : text ∉ nullTokens) : Plain (.str text)
  | seq {items : List Yaml} (nonempty : items ≠ []) (plain : ∀ item ∈ items, Plain item) :
      Plain (.seq items)
  | map {entries : Entries} (nonempty : entries ≠ []) (distinct : (entries.map Prod.fst).Nodup)
      (words : ∀ entry ∈ entries, IsWord entry.1) (plain : ∀ entry ∈ entries, Plain entry.2) :
      Plain (.map entries)

/-- A tree that can be written in block style: a mapping or a sequence of plain parts. -/
structure BlockTree where
  tree : Yaml
  plain : tree.Plain
  collection : ∀ text, tree ≠ .str text

/-- A list below a key, with a word, a mapping and a list for items. -/
def nestedTree : BlockTree where
  tree := .map [(bytes "a", .seq [.str (bytes "x"), .map [(bytes "b", .str (bytes "y"))],
    .seq [.str (bytes "z")]])]
  plain := by
    have words : ∀ text ∈ ["a", "b", "x", "y", "z"].map bytes,
        IsWord text ∧ text ∉ nullTokens := by decide +kernel
    simp only [map_cons, map_nil, forall_mem_cons, not_mem_nil, false_implies, implies_true,
      and_true] at words
    obtain ⟨a, b, x, y, z⟩ := words
    have mapping : (Yaml.map [(bytes "b", .str (bytes "y"))]).Plain :=
      .map (by simp) (by simp) (by simpa using b.1) (by simpa using .str y.1 y.2)
    have list : (Yaml.seq [.str (bytes "z")]).Plain :=
      .seq (by simp) (by simpa using .str z.1 z.2)
    exact .map (by simp) (by simp) (by simpa using a.1) (by
      simpa using .seq (by simp) (by simpa using ⟨.str x.1 x.2, mapping, list⟩))
  collection := nofun

structure BlockLine where
  indent : Nat
  content : Bytes
  deriving DecidableEq, Repr

open BlockLine

def scalarText : Yaml → Bytes
  | .str text => text
  | _ => []

def keyLine (key : Bytes) (value : Yaml) : Bytes :=
  key ++ byte ':' :: if scalarText value = [] then [] else byte ' ' :: scalarText value

def behindDash (indent : Nat) : List BlockLine → List BlockLine
  | [] => []
  | first :: rest => ⟨indent, bytes "- " ++ first.content⟩ :: rest

mutual

def blockLines (indent : Nat) : Yaml → List BlockLine
  | .seq items => itemsLines indent items
  | .map entries => entriesLines indent entries
  | _ => []

def itemLines (indent : Nat) : Yaml → List BlockLine
  | .str text => [⟨indent, bytes "- " ++ text⟩]
  | .seq items => ⟨indent, bytes "-"⟩ :: itemsLines (indent + 2) items
  | .map entries => behindDash indent (entriesLines (indent + 2) entries)
  | _ => []

def itemsLines (indent : Nat) : List Yaml → List BlockLine
  | [] => []
  | item :: items => itemLines indent item ++ itemsLines indent items

def entriesLines (indent : Nat) : Entries → List BlockLine
  | [] => []
  | (key, value) :: entries =>
    ⟨indent, keyLine key value⟩ :: blockLines (indent + 2) value ++ entriesLines indent entries

end

def BlockLine.text (line : BlockLine) : Bytes :=
  replicate line.indent (byte ' ') ++ line.content

def render (finalNewline : Bool) (tree : Yaml) : Bytes :=
  [byte '\n'].intercalate
    ((blockLines 0 tree).map text ++ if finalNewline then [[]] else [])

theorem ne_of_isWordByte {b c : UInt8} (word : isWordByte b) (other : isWordByte c = false) :
    b ≠ c := by
  rintro rfl
  rw [other] at word
  cases word

section

variable {text key : Bytes}

section

variable {c : UInt8} (word : IsWord text) (other : isWordByte c = false)

include word other

theorem IsWord.notMem : c ∉ text :=
  fun mem => ne_of_isWordByte (word.word c mem) other rfl

theorem IsWord.head?_ne : text.head? ≠ some c :=
  fun first => word.notMem other (mem_of_mem_head? first)

theorem IsWord.not_isQuoted : isQuoted c text = false := by
  simp [isQuoted, word.head?_ne other]

end

theorem IsWord.unquote (word : IsWord text) (lib : Library) : unquote lib text = text := by
  simp [Container.unquote, word.not_isQuoted (c := byte '"') (by decide),
    word.not_isQuoted (c := byte '\'') (by decide)]

theorem IsWord.parseScalar (word : IsWord text) (notNull : text ∉ nullTokens) (lib : Library) :
    parseScalar lib text = .ok (.str text) := by
  simp only [Container.parseScalar, word.trimmed, word.nonempty, if_false, notNull,
    word.head?_ne (c := byte '\x7b') (by decide), word.head?_ne (c := byte '[') (by decide),
    word.not_isQuoted (c := byte '"') (by decide), word.not_isQuoted (c := byte '\'') (by decide),
    false_and, or_self, Bool.false_eq_true]

theorem keyColonFrom_cons {b next : UInt8} (word : isWordByte b) (before rest : Bytes) :
    keyColonFrom false false before (b :: next :: rest) =
      keyColonFrom false false (before ++ [b]) (next :: rest) := by
  simp [keyColonFrom, ne_of_isWordByte word (c := byte '"') (by decide),
    ne_of_isWordByte word (c := byte '\'') (by decide),
    ne_of_isWordByte word (c := byte ':') (by decide)]

theorem keyColonFrom_word (words : ∀ b ∈ text, isWordByte b) (before : Bytes) :
    keyColonFrom false false before text = none := by
  induction text generalizing before with
  | nil => rfl
  | cons b text ih =>
    rw [forall_mem_cons] at words
    cases text with
    | nil => simp [keyColonFrom, ne_of_isWordByte words.1 (c := byte ':') (by decide)]
    | cons next rest => rw [keyColonFrom_cons words.1, ih words.2]

theorem keyColonFrom_key (words : ∀ b ∈ key, isWordByte b) (before : Bytes) {rest : Bytes}
    (behind : rest = [] ∨ rest.head? = some (byte ' ')) :
    keyColonFrom false false before (key ++ byte ':' :: rest) = some (before ++ key, rest) := by
  induction key generalizing before with
  | nil =>
    cases rest with
    | nil => simp [keyColonFrom]
    | cons next rest =>
      obtain rfl : next = byte ' ' := by simpa using behind
      rw [nil_append, keyColonFrom, if_neg (by decide), if_neg (by decide),
        if_neg (by decide), if_pos (by decide), append_nil]
  | cons b key ih =>
    rw [forall_mem_cons] at words
    cases key with
    | nil => simpa [keyColonFrom_cons words.1] using ih words.2 (before ++ [b])
    | cons next key =>
      rw [cons_append, cons_append, keyColonFrom_cons words.1, ← cons_append, ih words.2]
      simp

end

section

variable {lib : Library} {key : Bytes} {value item : Yaml} {line : YamlLine}

theorem Yaml.Plain.isWord_scalarText (plain : value.Plain) (nonempty : scalarText value ≠ []) :
    IsWord (scalarText value) := by
  cases plain with
  | str word _ => exact word
  | seq | map => exact absurd rfl nonempty

theorem keyLine_ne_nil (key : Bytes) (value : Yaml) : keyLine key value ≠ [] := by
  simp [keyLine]

theorem splitKey_keyLine (word : IsWord key) (plain : value.Plain) :
    splitKey lib (keyLine key value) = .ok (key, scalarText value) := by
  have behind : ∀ rest : Bytes, rest = [] ∨ rest.head? = some (byte ' ') →
      splitKey lib (key ++ byte ':' :: rest) = .ok (key, trimSpace rest) := by
    intro rest behind
    simp [splitKey, keyColonFrom_key word.word [] behind, word.trimmed, word.nonempty, word.unquote]
  rw [keyLine]
  split
  case isTrue empty =>
    rw [behind _ (.inl rfl), empty]
    rfl
  case isFalse nonempty =>
    rw [behind _ (.inr rfl), trimSpace_blank (.inl rfl), (plain.isWord_scalarText nonempty).trimmed]

theorem head?_keyLine (word : IsWord key) {c : UInt8} (other : isWordByte c = false) :
    (keyLine key value).head? ≠ some c := by
  rw [keyLine, head?_append_of_ne_nil key word.nonempty]
  exact word.head?_ne other

theorem isItem_of_head? (other : line.content.head? ≠ some (byte '-')) : line.isItem = false := by
  rw [YamlLine.isItem]
  cases content : line.content with
  | nil => rfl
  | cons c rest =>
    have differ : c ≠ byte '-' := by simpa [content] using other
    have dash : bytes "- " = [byte '-', byte ' '] ∧ bytes "-" = [byte '-'] := ⟨rfl, rfl⟩
    simp [dash, differ, differ.symm, List.isPrefixOf]

theorem itemKey_keyLine (word : IsWord key) (plain : value.Plain) :
    itemKey lib (keyLine key value) = some (key, scalarText value) := by
  simp [itemKey, tryMappingStart, head?_keyLine word (c := byte '\x7b') (by decide),
    head?_keyLine word (c := byte '[') (by decide), splitKey_keyLine word plain, word.nonempty]

theorem itemKey_word (word : IsWord key) : itemKey lib key = none := by
  simp [itemKey, tryMappingStart, word.head?_ne (c := byte '\x7b') (by decide),
    word.head?_ne (c := byte '[') (by decide), splitKey, keyColonFrom_word word.word]

end

def YamlLine.bare (line : YamlLine) : BlockLine :=
  ⟨line.indent, line.content⟩

theorem exists_of_map_bare {lines : List YamlLine} {indent : Nat} {content : Bytes}
    {others : List BlockLine} (written : lines.map YamlLine.bare = ⟨indent, content⟩ :: others) :
    ∃ number rest, lines = ⟨indent, content, number⟩ :: rest ∧ rest.map YamlLine.bare = others := by
  obtain ⟨⟨_, _, number⟩, rest, rfl, bare, behind⟩ := map_eq_cons_iff.mp written
  obtain ⟨rfl, rfl⟩ := mk.inj bare
  exact ⟨number, rest, rfl, behind⟩

def Below (bound : Nat) (rest : List YamlLine) : Prop :=
  ∀ line ∈ rest.head?, line.indent < bound

theorem Below.mono {low high : Nat} {rest : List YamlLine} (below : Below low rest)
    (le : low ≤ high) : Below high rest :=
  fun line mem => (below line mem).trans_le le

/-- A block is written to lines that are followed by less deep ones, and the fuel is enough. -/
structure Stands (bound fuel : Nat) (block : List BlockLine) (lines rest : List YamlLine) :
    Prop where
  below : Below bound rest
  written : lines.map YamlLine.bare = block
  enough : (lines ++ rest).length < fuel

/-- A tree is read back as the value of a key, and as an item of a sequence. -/
structure ReadsBack (lib : Library) (tree : Yaml) : Prop where
  value {fuel indent : Nat} (line : YamlLine) {lines rest : List YamlLine} :
    Stands (indent + 2) fuel (blockLines (indent + 2) tree) lines rest →
    parseValueWith lib (parseNestedBlock lib fuel) line indent (scalarText tree) (lines ++ rest) =
      .ok (tree, rest)
  item {fuel indent : Nat} (result : List Yaml) {lines rest : List YamlLine} :
    Stands (indent + 2) (fuel + 1) (itemLines indent tree) lines rest →
    parseSeq lib (fuel + 1) indent result (lines ++ rest) =
      parseSeq lib fuel indent (result ++ [tree]) rest

structure ReadsEntries (lib : Library) (entries : Entries) : Prop where
  words : ∀ entry ∈ entries, IsWord entry.1
  plain : ∀ entry ∈ entries, entry.2.Plain
  reads : ∀ entry ∈ entries, ReadsBack lib entry.2

section

variable {lib : Library} {entries result : Entries} {items : List Yaml} {bound fuel indent : Nat}
  {lines rest : List YamlLine}

theorem Entries.set_of_notMem {key : Bytes} (fresh : key ∉ result.map Prod.fst) (value : Yaml) :
    Entries.set result key value = result ++ [(key, value)] := by
  have absent : result.any (·.1 == key) = false := by
    rw [any_eq_false]
    intro entry mem same
    exact fresh (mem_map.mpr ⟨entry, mem, by simpa using same⟩)
  rw [Entries.set, absent]
  rfl

theorem below_append (written : ∀ line ∈ (lines.map YamlLine.bare).head?, line.indent = indent)
    (below : Below bound rest) (deeper : indent < bound) : Below bound (lines ++ rest) := by
  cases lines with
  | nil => exact below
  | cons line lines =>
    rintro _ ⟨⟩
    exact (written _ rfl).trans_lt deeper

theorem below_entries (written : lines.map YamlLine.bare = entriesLines indent entries)
    (below : Below bound rest) (deeper : indent < bound) : Below bound (lines ++ rest) := by
  refine below_append (fun line first => ?_) below deeper
  rw [written] at first
  cases entries with
  | nil => cases first
  | cons entry entries =>
    cases first
    rfl

theorem loop_entries (loop : Nat → Entries → List YamlLine → Parsed Yaml) (result : Entries)
    (stop : ∀ fuel result, loop (fuel + 1) result rest = .ok (.map result, rest))
    (step : ∀ fuel result line lines, line.indent = indent → line.isItem = false →
      loop (fuel + 1) result (line :: lines) =
        (line.located lines (splitKey lib line.content)).andThen fun entry lines =>
        (parseValueWith lib (parseNestedBlock lib fuel) line indent entry.2 lines).andThen
          fun value lines => loop fuel (Entries.set result entry.1 value) lines)
    (reads : ReadsEntries lib entries) (distinct : ((result ++ entries).map Prod.fst).Nodup)
    (stands : Stands indent fuel (entriesLines indent entries) lines rest) :
    loop fuel result (lines ++ rest) = .ok (.map (result ++ entries), rest) := by
  obtain ⟨below, written, enough⟩ := stands
  induction entries generalizing result lines fuel with
  | nil =>
    rw [entriesLines, map_eq_nil_iff] at written
    cases fuel with
    | zero => exact absurd enough (Nat.not_lt_zero _)
    | succ fuel => rw [written, nil_append, stop, append_nil]
  | cons entry entries ih =>
    obtain ⟨key, value⟩ := entry
    obtain ⟨words, plain, reads⟩ := reads
    rw [forall_mem_cons] at words plain reads
    rw [entriesLines, cons_append] at written
    obtain ⟨line, lines, rfl, bare, written⟩ := map_eq_cons_iff.mp written
    obtain ⟨below', others, rfl, writtenValue, writtenOthers⟩ := map_eq_append_iff.mp written
    obtain ⟨atIndent, content⟩ := mk.inj bare
    cases fuel with
    | zero => exact absurd enough (Nat.not_lt_zero _)
    | succ fuel =>
      have enough : (below' ++ (others ++ rest)).length < fuel := by
        simp only [length_append, length_cons] at enough ⊢
        omega
      have notItem : line.isItem = false :=
        isItem_of_head? (content ▸ head?_keyLine words.1 (by decide))
      have fresh : key ∉ result.map Prod.fst := by
        rw [map_append] at distinct
        exact fun mem => disjoint_of_nodup_append distinct mem (by simp)
      have readValue := reads.1.value line ⟨below_entries writtenOthers
        (below.mono (Nat.le_add_right _ 2)) (by simp), writtenValue, enough⟩
      rw [cons_append, step _ _ _ _ atIndent notItem, content,
        splitKey_keyLine words.1 plain.1, append_assoc]
      simp only [YamlLine.located, Parsed.andThen, readValue]
      rw [Entries.set_of_notMem fresh, ih _ ⟨words.2, plain.2, reads.2⟩ _ writtenOthers]
      · simp
      · exact (sublist_append_right _ _).length_le.trans_lt enough
      · simpa using distinct

theorem parseMap_entries (reads : ReadsEntries lib entries)
    (distinct : (entries.map Prod.fst).Nodup)
    (stands : Stands indent fuel (entriesLines indent entries) lines rest) :
    parseMap lib fuel indent [] (lines ++ rest) = .ok (.map entries, rest) := by
  refine loop_entries (parseMap lib · indent) [] ?_ ?_ reads distinct stands
  · intro fuel result
    cases rest with
    | nil => rw [parseMap]
    | cons line rest => rw [parseMap, if_pos (stands.below line rfl)]
  · rintro fuel result line lines rfl notItem
    rw [parseMap, if_neg (lt_irrefl _), if_neg (lt_irrefl _), notItem]
    rfl

theorem parseItemKeys_entries (result : Entries) (reads : ReadsEntries lib entries)
    (distinct : ((result ++ entries).map Prod.fst).Nodup)
    (stands : Stands indent fuel (entriesLines indent entries) lines rest) :
    parseItemKeys lib fuel indent result (lines ++ rest) =
      .ok (.map (result ++ entries), rest) := by
  refine loop_entries (parseItemKeys lib · indent) result ?_ ?_ reads distinct stands
  · intro fuel result
    cases rest with
    | nil => rw [parseItemKeys]
    | cons line rest => rw [parseItemKeys, if_pos (stands.below line rfl).ne]
  · rintro fuel result line lines rfl notItem
    rw [parseItemKeys, if_neg (not_not.mpr rfl), notItem]
    rfl

theorem itemLines_eq_cons {item : Yaml} (plain : item.Plain) (indent : Nat) :
    ∃ content rest, itemLines indent item = ⟨indent, content⟩ :: rest ∧
      ∀ number, (YamlLine.mk indent content number).isItem := by
  cases plain with
  | str | seq => exact ⟨_, _, rfl, fun _ => rfl⟩
  | @map entries nonempty =>
    cases entries with
    | nil => exact absurd rfl nonempty
    | cons entry entries => exact ⟨_, _, rfl, fun _ => rfl⟩

theorem below_items (plain : ∀ item ∈ items, item.Plain)
    (written : lines.map YamlLine.bare = itemsLines indent items) (below : Below bound rest)
    (deeper : indent < bound) : Below bound (lines ++ rest) := by
  refine below_append (fun line first => ?_) below deeper
  rw [written] at first
  cases items with
  | nil => cases first
  | cons item items =>
    obtain ⟨content, others, isFirst, -⟩ := itemLines_eq_cons (plain item (by simp)) indent
    rw [itemsLines, isFirst] at first
    cases first
    rfl

variable (plain : ∀ item ∈ items, item.Plain) (reads : ∀ item ∈ items, ReadsBack lib item)

include plain reads

theorem parseSeq_items (result : List Yaml)
    (stands : Stands indent fuel (itemsLines indent items) lines rest) :
    parseSeq lib fuel indent result (lines ++ rest) = .ok (.seq (result ++ items), rest) := by
  obtain ⟨below, written, enough⟩ := stands
  induction items generalizing result lines fuel with
  | nil =>
    rw [itemsLines, map_eq_nil_iff] at written
    cases fuel with
    | zero => exact absurd enough (Nat.not_lt_zero _)
    | succ fuel =>
      rw [written, append_nil]
      cases rest with
      | nil => rfl
      | cons line rest => rw [nil_append, parseSeq, if_pos (below line rfl)]
  | cons item items ih =>
    rw [forall_mem_cons] at plain reads
    rw [itemsLines] at written
    obtain ⟨own, others, rfl, writtenItem, writtenOthers⟩ := map_eq_append_iff.mp written
    cases fuel with
    | zero => exact absurd enough (Nat.not_lt_zero _)
    | succ fuel =>
      have nonempty : own ≠ [] := by
        obtain ⟨content, more, first, -⟩ := itemLines_eq_cons plain.1 indent
        rintro rfl
        rw [first] at writtenItem
        cases writtenItem
      have shorter : (others ++ rest).length < fuel := by
        have positive := length_pos_iff.mpr nonempty
        simp only [length_append] at enough ⊢
        omega
      have behind : Below (indent + 2) (others ++ rest) :=
        below_items plain.2 writtenOthers (below.mono (Nat.le_add_right _ 2)) (by simp)
      rw [append_assoc] at enough ⊢
      rw [reads.1.item result ⟨behind, writtenItem, enough⟩,
        ih plain.2 reads.2 _ writtenOthers shorter]
      simp

theorem parseBlock_seq (nonempty : items ≠ [])
    (stands : Stands indent fuel (itemsLines indent items) lines rest) :
    parseBlock lib fuel indent (lines ++ rest) = .ok (.seq items, rest) := by
  have parsed := parseSeq_items plain reads [] stands
  have written := stands.written
  obtain ⟨item, items, rfl⟩ := exists_cons_of_ne_nil nonempty
  obtain ⟨content, others, first, isItem⟩ := itemLines_eq_cons (plain item (by simp)) indent
  rw [itemsLines, first] at written
  obtain ⟨number, lines, rfl, -⟩ := exists_of_map_bare written
  rw [cons_append, parseBlock, parseBlockWith, if_neg (lt_irrefl _), if_pos (isItem number)]
  exact parsed

omit plain reads

theorem parseBlock_map (reads : ReadsEntries lib entries) (nonempty : entries ≠ [])
    (distinct : (entries.map Prod.fst).Nodup)
    (stands : Stands indent fuel (entriesLines indent entries) lines rest) :
    parseBlock lib fuel indent (lines ++ rest) = .ok (.map entries, rest) := by
  have parsed := parseMap_entries reads distinct stands
  have written := stands.written
  obtain ⟨⟨key, value⟩, entries, rfl⟩ := exists_cons_of_ne_nil nonempty
  rw [entriesLines, cons_append] at written
  obtain ⟨number, lines, rfl, -⟩ := exists_of_map_bare written
  have notItem : (YamlLine.mk indent (keyLine key value) number).isItem = false :=
    isItem_of_head? (head?_keyLine (reads.words _ mem_cons_self) (by decide))
  rw [cons_append, parseBlock, parseBlockWith, if_neg (lt_irrefl _), notItem]
  exact parsed

end

section

variable {lib : Library} {tree : Yaml} {fuel indent : Nat} {lines rest : List YamlLine}

theorem Yaml.Plain.blockLines_eq_cons (plain : tree.Plain) (collection : ∀ text, tree ≠ .str text)
    (indent : Nat) : ∃ content rest, blockLines indent tree = ⟨indent, content⟩ :: rest := by
  cases plain with
  | str => exact absurd rfl (collection _)
  | seq nonempty plain =>
    obtain ⟨item, items, rfl⟩ := exists_cons_of_ne_nil nonempty
    obtain ⟨content, others, first, -⟩ := itemLines_eq_cons (plain item (by simp)) indent
    rw [blockLines, itemsLines, first]
    exact ⟨content, _, rfl⟩
  | map nonempty =>
    obtain ⟨⟨key, value⟩, entries, rfl⟩ := exists_cons_of_ne_nil nonempty
    exact ⟨_, _, rfl⟩

theorem parseNestedBlock_tree (plain : tree.Plain) (collection : ∀ text, tree ≠ .str text)
    (written : lines.map YamlLine.bare = blockLines (indent + 2) tree)
    (parsed : parseBlock lib fuel (indent + 2) (lines ++ rest) = .ok (tree, rest)) :
    parseNestedBlock lib fuel indent (lines ++ rest) = .ok (tree, rest) := by
  obtain ⟨content, others, first⟩ := plain.blockLines_eq_cons collection (indent + 2)
  rw [first] at written
  obtain ⟨number, lines, rfl, -⟩ := exists_of_map_bare written
  rw [cons_append, parseNestedBlock, parseNestedBlockWith, if_neg (by simp)]
  exact parsed

section

variable (lib) (line : YamlLine) (dash : line.hasDash) (fuel : Nat) (result : List Yaml)
  (rest : List YamlLine)

include dash

theorem parseSeq_bare (bare : line.item = []) :
    parseSeq lib (fuel + 1) line.indent result (line :: rest) =
      (parseNestedBlock lib fuel line.indent rest).andThen fun child rest =>
        parseSeq lib fuel line.indent (result ++ [child]) rest := by
  rw [parseSeq, if_neg (lt_irrefl _), if_neg (lt_irrefl _), dash, if_neg (by decide), if_pos bare]

theorem parseSeq_scalar {value : Yaml} (nonempty : line.item ≠ [])
    (plain : itemKey lib line.item = none) (parsed : parseScalar lib line.item = .ok value) :
    parseSeq lib (fuel + 1) line.indent result (line :: rest) =
      parseSeq lib fuel line.indent (result ++ [value]) rest := by
  rw [parseSeq, if_neg (lt_irrefl _), if_neg (lt_irrefl _), dash, if_neg (by decide),
    if_neg nonempty, plain, parsed]
  rfl

theorem parseSeq_key {key text : Bytes} (nonempty : line.item ≠ [])
    (start : itemKey lib line.item = some (key, text)) :
    parseSeq lib (fuel + 1) line.indent result (line :: rest) =
      (parseValueWith lib (parseNestedBlock lib fuel) line (line.indent + 2) text rest).andThen
        fun value rest =>
      (parseItemKeys lib fuel (line.indent + 2) [(key, value)] rest).andThen fun sub rest =>
      parseSeq lib fuel line.indent (result ++ [sub]) rest := by
  rw [parseSeq, if_neg (lt_irrefl _), if_neg (lt_irrefl _), dash, if_neg (by decide),
    if_neg nonempty, start]

end

theorem readsBack_str {text : Bytes} (word : IsWord text) (notNull : text ∉ nullTokens) :
    ReadsBack lib (.str text) where
  value line lines rest stands := by
    obtain rfl : lines = [] := by simpa [blockLines] using stands.written
    rw [nil_append, scalarText, parseValueWith, if_neg word.nonempty, word.parseScalar notNull]
    rfl
  item {fuel indent} result lines rest stands := by
    have written := stands.written
    rw [itemLines] at written
    obtain ⟨number, lines, rfl, others⟩ := exists_of_map_bare written
    obtain rfl := map_eq_nil_iff.mp others
    exact parseSeq_scalar lib ⟨indent, bytes "- " ++ text, number⟩ rfl fuel result rest
      word.nonempty (itemKey_word word) (word.parseScalar notNull lib)

theorem readsBack_seq {items : List Yaml} (nonempty : items ≠ [])
    (plain : ∀ item ∈ items, item.Plain) (reads : ∀ item ∈ items, ReadsBack lib item) :
    ReadsBack lib (.seq items) := by
  have nested {fuel indent : Nat} {lines rest : List YamlLine}
      (stands : Stands (indent + 2) fuel (itemsLines (indent + 2) items) lines rest) :
      parseNestedBlock lib fuel indent (lines ++ rest) = .ok (.seq items, rest) := by
    apply parseNestedBlock_tree (.seq nonempty plain) (by simp)
    · rw [stands.written, blockLines]
    · exact parseBlock_seq plain reads nonempty stands
  constructor
  · intro fuel indent line lines rest stands
    rw [blockLines] at stands
    exact nested stands
  · intro fuel indent result lines rest stands
    obtain ⟨below, written, enough⟩ := stands
    rw [itemLines] at written
    obtain ⟨number, lines, rfl, writtenItems⟩ := exists_of_map_bare written
    have step := parseSeq_bare lib ⟨indent, bytes "-", number⟩ rfl fuel result (lines ++ rest) rfl
    rw [nested ⟨below, writtenItems, Nat.lt_of_succ_lt_succ enough⟩] at step
    exact step

theorem readsBack_map {entries : Entries} (nonempty : entries ≠ [])
    (distinct : (entries.map Prod.fst).Nodup) (reads : ReadsEntries lib entries) :
    ReadsBack lib (.map entries) := by
  constructor
  · intro fuel indent line lines rest stands
    apply parseNestedBlock_tree (.map nonempty distinct reads.words reads.plain) (by simp)
      stands.written
    rw [blockLines] at stands
    exact parseBlock_map reads nonempty distinct stands
  · intro fuel indent result lines rest stands
    obtain ⟨below, written, enough⟩ := stands
    obtain ⟨words, plain, reads⟩ := reads
    obtain ⟨⟨key, value⟩, entries, rfl⟩ := exists_cons_of_ne_nil nonempty
    rw [forall_mem_cons] at words plain reads
    rw [itemLines, entriesLines, cons_append, behindDash] at written
    obtain ⟨number, lines, rfl, writtenEntries⟩ := exists_of_map_bare written
    obtain ⟨own, others, rfl, writtenValue, writtenOthers⟩ :=
      map_eq_append_iff.mp writtenEntries
    have enough : (own ++ (others ++ rest)).length < fuel := by
      rw [← append_assoc]
      exact Nat.lt_of_succ_lt_succ enough
    have readValue := reads.1.value ⟨indent, bytes "- " ++ keyLine key value, number⟩
      ⟨below_entries writtenOthers (below.mono (Nat.le_add_right _ 2)) (by simp), writtenValue,
        enough⟩
    have readKeys := parseItemKeys_entries [(key, value)] ⟨words.2, plain.2, reads.2⟩ distinct
      ⟨below, writtenOthers, (sublist_append_right _ _).length_le.trans_lt enough⟩
    have step := parseSeq_key lib ⟨indent, bytes "- " ++ keyLine key value, number⟩ rfl fuel
      result (own ++ (others ++ rest)) (keyLine_ne_nil key value)
      (itemKey_keyLine words.1 plain.1)
    rw [readValue] at step
    simp only [Parsed.andThen] at step
    rw [readKeys] at step
    rw [cons_append, append_assoc]
    exact step

theorem Yaml.Plain.readsBack (plain : tree.Plain) : ReadsBack lib tree := by
  induction plain with
  | str word notNull => exact readsBack_str word notNull
  | seq nonempty plain reads => exact readsBack_seq nonempty plain reads
  | map nonempty distinct words plain reads =>
    exact readsBack_map nonempty distinct ⟨words, plain, reads⟩

theorem BlockTree.parseBlock (block : BlockTree)
    (written : lines.map YamlLine.bare = blockLines 0 block.tree)
    (enough : lines.length < fuel) : parseBlock lib fuel 0 lines = .ok (block.tree, []) := by
  obtain ⟨tree, plain, collection⟩ := block
  rw [← append_nil lines] at enough ⊢
  have stands : Stands 0 fuel (blockLines 0 tree) lines [] := ⟨nofun, written, enough⟩
  cases plain with
  | str => exact absurd rfl (collection _)
  | seq nonempty plain =>
    rw [blockLines] at stands
    exact parseBlock_seq plain (fun item mem => (plain item mem).readsBack) nonempty stands
  | map nonempty distinct words plain =>
    rw [blockLines] at stands
    exact parseBlock_map ⟨words, plain, fun entry mem => (plain entry mem).readsBack⟩ nonempty
      distinct stands

end

theorem commentStartFrom_eq_none {text : Bytes} (noHash : byte '#' ∉ text) (prev : Option UInt8)
    (inSingle inDouble : Bool) (i : Nat) :
    commentStartFrom prev inSingle inDouble i text = none := by
  fun_induction commentStartFrom prev inSingle inDouble i text <;> simp_all

theorem trimRight_eq_self {cut : UInt8 → Bool} {text : Bytes}
    (kept : ∀ b ∈ text.getLast?, cut b = false) : trimRight cut text = text := by
  apply rdropWhile_eq_self_iff.mpr
  intro nonempty
  rw [kept _ (getLast?_eq_some_getLast nonempty)]
  exact Bool.false_ne_true

structure IsContent (content : Bytes) : Prop where
  plain : ∀ b ∈ content, isWordByte b ∨ b ∈ bytes ":- "
  first : content.head? ≠ some (byte ' ')
  last : content.getLast? ≠ some (byte ' ')
  solid : byte ':' ∈ content ∨ byte '-' ∈ content
  notMarker : content ≠ bytes "---"

namespace IsContent

variable {content : Bytes} (isContent : IsContent content)

include isContent

theorem notMem {c : UInt8} (other : isWordByte c = false)
    (notPlain : c ∉ bytes ":- ") : c ∉ content := by
  intro mem
  rcases isContent.plain c mem with word | mem
  · exact ne_of_isWordByte word other rfl
  · exact notPlain mem

theorem nonempty : content ≠ [] := by
  rintro rfl
  simpa using isContent.solid

theorem text_ne_nil (indent : Nat) :
    trimSpace (text ⟨indent, content⟩) ≠ [] := by
  rcases isContent.solid with colon | dash
  · exact trimSpace_ne_nil (mem_append_right _ colon) (by decide)
  · exact trimSpace_ne_nil (mem_append_right _ dash) (by decide)

theorem newline_notMem_text (indent : Nat) :
    byte '\n' ∉ text ⟨indent, content⟩ := by
  rw [text, mem_append, not_or]
  exact ⟨fun mem => absurd (eq_of_mem_replicate mem) (by decide),
    isContent.notMem (by decide) (by decide)⟩

theorem head?_text_ne_tab (indent : Nat) :
    (text ⟨indent, content⟩).head? ≠ some (byte '\t') := by
  intro tab
  rcases mem_append.mp (mem_of_mem_head? tab) with mem | mem
  · exact absurd (eq_of_mem_replicate mem) (by decide)
  · exact isContent.notMem (by decide) (by decide) mem

theorem tokenizeLine (indent number : Nat) :
    tokenizeLine number (text ⟨indent, content⟩) =
      .ok (some ⟨indent, content, number⟩) := by
  have isSpace : ∀ b ∈ replicate indent (byte ' '), (b == byte ' ') = true := by
    intro b mem
    rw [eq_of_mem_replicate mem, beq_self_eq_true]
  have noReturn : trimRight (· == byte '\r') (text ⟨indent, content⟩) =
      text ⟨indent, content⟩ := by
    apply trimRight_eq_self
    intro b last
    rw [text, getLast?_append_of_ne_nil _ isContent.nonempty] at last
    have differ : b ≠ byte '\r' := fun same =>
      isContent.notMem (by decide) (by decide) (same ▸ mem_of_getLast? last)
    simpa using differ
  have noComment : findCommentStart (text ⟨indent, content⟩) = none := by
    apply commentStartFrom_eq_none
    rw [text, mem_append, not_or]
    exact ⟨fun mem => absurd (eq_of_mem_replicate mem) (by decide),
      isContent.notMem (by decide) (by decide)⟩
  have noSpace : trimRight (· == byte ' ') content = content := by
    apply trimRight_eq_self
    intro b last
    have differ : b ≠ byte ' ' := fun same => isContent.last (same ▸ last)
    simpa using differ
  have kept : ¬ (content = [] ∨ content = bytes "---" ∨ content = bytes "...") := by
    rintro (empty | marker | marker)
    · exact isContent.nonempty empty
    · exact isContent.notMarker marker
    · exact absurd (marker ▸ isContent.solid) (by decide)
  rw [Container.tokenizeLine, noReturn, noComment]
  simp only [isContent.text_ne_nil, isContent.head?_text_ne_tab, if_false]
  obtain ⟨c, rest, rfl⟩ := exists_cons_of_ne_nil isContent.nonempty
  have first : ¬ (c == byte ' ') = true := by simpa using isContent.first
  have dropped : (c :: rest).dropWhile (· == byte ' ') = c :: rest :=
    dropWhile_cons_of_neg first
  have taken : (c :: rest).takeWhile (· == byte ' ') = [] := takeWhile_cons_of_neg first
  rw [text, dropWhile_append_of_pos isSpace, takeWhile_append_of_pos isSpace,
    dropped, taken, noSpace, if_neg kept]
  simp

end IsContent

theorem isContent_behindDash {content : Bytes}
    (plain : ∀ b ∈ content, isWordByte b ∨ b ∈ bytes ":- ") (nonempty : content ≠ [])
    (last : content.getLast? ≠ some (byte ' ')) : IsContent (bytes "- " ++ content) where
  plain b mem := by
    rcases mem_append.mp mem with mem | mem
    · exact .inr (mem_of_mem_tail mem)
    · exact plain b mem
  first := by
    intro same
    exact absurd (Option.some.inj same) (by decide)
  last := by rwa [getLast?_append_of_ne_nil _ nonempty]
  solid := .inr mem_cons_self
  notMarker marker := by cases marker

theorem isContent_keyLine {key : Bytes} {value : Yaml} (word : IsWord key) (plain : value.Plain) :
    IsContent (keyLine key value) where
  plain b mem := by
    rw [keyLine] at mem
    rcases mem_append.mp mem with mem | mem
    · exact .inl (word.word b mem)
    · rcases mem_cons.mp mem with rfl | mem
      · exact .inr (by decide)
      · split at mem
        · cases mem
        case isFalse nonempty =>
          rcases mem_cons.mp mem with rfl | mem
          · exact .inr (by decide)
          · exact .inl ((plain.isWord_scalarText nonempty).word b mem)
  first := head?_keyLine word (by decide)
  last := by
    rw [keyLine, getLast?_append_of_ne_nil _ (cons_ne_nil _ _)]
    split
    · decide
    case isFalse nonempty =>
      have wordValue := plain.isWord_scalarText nonempty
      rw [getLast?_cons_cons, ← singleton_append, getLast?_append_of_ne_nil _ nonempty]
      exact fun last => wordValue.notMem (by decide) (mem_of_getLast? last)
  solid := .inl (mem_append_right _ mem_cons_self)
  notMarker marker := head?_keyLine word (c := byte '-') (by decide) (congrArg List.head? marker)

theorem isContent_dash : IsContent (bytes "-") where
  plain := by
    intro b mem
    obtain rfl : b = byte '-' := mem_singleton.mp mem
    exact .inr (by decide)
  first := by decide
  last := by decide
  solid := by decide
  notMarker := by decide

theorem isContent_entriesLines {entries : Entries} (words : ∀ entry ∈ entries, IsWord entry.1)
    (plain : ∀ entry ∈ entries, entry.2.Plain)
    (contents : ∀ entry ∈ entries, ∀ indent, ∀ line ∈ blockLines indent entry.2,
      IsContent line.content) (indent : Nat) :
    ∀ line ∈ entriesLines indent entries, IsContent line.content := by
  induction entries with
  | nil => simp [entriesLines]
  | cons entry entries ih =>
    rw [forall_mem_cons] at words plain contents
    rw [entriesLines, forall_mem_append, forall_mem_cons]
    exact ⟨⟨isContent_keyLine words.1 plain.1, contents.1 _⟩, ih words.2 plain.2 contents.2⟩

theorem isContent_itemsLines {items : List Yaml}
    (contents : ∀ item ∈ items, ∀ indent, ∀ line ∈ itemLines indent item, IsContent line.content)
    (indent : Nat) : ∀ line ∈ itemsLines indent items, IsContent line.content := by
  induction items with
  | nil => simp [itemsLines]
  | cons item items ih =>
    rw [forall_mem_cons] at contents
    rw [itemsLines, forall_mem_append]
    exact ⟨contents.1 indent, ih contents.2⟩

theorem Yaml.Plain.isContent {tree : Yaml} (plain : tree.Plain) (indent : Nat) :
    (∀ line ∈ blockLines indent tree, IsContent line.content) ∧
      ∀ line ∈ itemLines indent tree, IsContent line.content := by
  induction plain generalizing indent with
  | str word _ =>
    refine ⟨by simp [blockLines], ?_⟩
    rw [itemLines, forall_mem_singleton]
    exact isContent_behindDash (fun b mem => .inl (word.word b mem)) word.nonempty
      fun last => word.notMem (by decide) (mem_of_getLast? last)
  | seq _ _ ih =>
    have items := isContent_itemsLines fun item mem indent => (ih item mem indent).2
    refine ⟨by simpa only [blockLines] using items indent, ?_⟩
    rw [itemLines, forall_mem_cons]
    exact ⟨isContent_dash, items (indent + 2)⟩
  | map _ _ words plain ih =>
    have entries := isContent_entriesLines words plain fun entry mem indent =>
      (ih entry mem indent).1
    refine ⟨by simpa only [blockLines] using entries indent, ?_⟩
    rw [itemLines]
    have own := entries (indent + 2)
    revert own
    cases entriesLines (indent + 2) _ with
    | nil => simp [behindDash]
    | cons first rest =>
      rw [behindDash, forall_mem_cons, forall_mem_cons]
      exact fun own =>
        ⟨isContent_behindDash own.1.plain own.1.nonempty own.1.last, own.2⟩

theorem mapM_tokenizeLine {lines : List BlockLine}
    (contents : ∀ line ∈ lines, IsContent line.content) {blank : List Bytes}
    (isBlank : blank = [] ∨ blank = [[]]) (number : Nat) :
    ∃ tokens, ((lines.map text ++ blank).zipIdx number).mapM
        (fun line => tokenizeLine line.2 line.1) = .ok tokens ∧
      tokens.reduceOption.map YamlLine.bare = lines := by
  induction lines generalizing number with
  | nil =>
    rcases isBlank with rfl | rfl
    · exact ⟨[], rfl, rfl⟩
    · exact ⟨[none], rfl, rfl⟩
  | cons line lines ih =>
    rw [forall_mem_cons] at contents
    obtain ⟨tokens, tokenized, bare⟩ := ih contents.2 (number + 1)
    refine ⟨some ⟨line.indent, line.content, number⟩ :: tokens, ?_, ?_⟩
    · rw [map_cons, cons_append, zipIdx_cons, mapM_cons, tokenized,
        contents.1.tokenizeLine line.indent number]
      rfl
    · rw [reduceOption_cons_of_some, map_cons, bare]
      rfl

theorem BlockTree.tokenizeYAML_render (block : BlockTree) (finalNewline : Bool) :
    ∃ tokens, tokenizeYAML (render finalNewline block.tree) = .ok tokens ∧
      tokens.map YamlLine.bare = blockLines 0 block.tree := by
  have contents := (block.plain.isContent 0).1
  obtain ⟨content, rest, first⟩ := block.plain.blockLines_eq_cons block.collection 0
  have split : (render finalNewline block.tree).splitOn (byte '\n') =
      (blockLines 0 block.tree).map text ++ if finalNewline then [[]] else [] := by
    apply splitOn_intercalate
    · rw [forall_mem_append, forall_mem_map]
      refine ⟨fun line mem => (contents line mem).newline_notMem_text line.indent, ?_⟩
      cases finalNewline <;> simp
    · simp [first]
  have isBlank : (if finalNewline then [[]] else [] : List Bytes) = [] ∨
      (if finalNewline then [[]] else [] : List Bytes) = [[]] := by
    cases finalNewline <;> simp
  obtain ⟨tokens, tokenized, bare⟩ := mapM_tokenizeLine contents isBlank 1
  refine ⟨tokens.reduceOption, ?_, bare⟩
  rw [tokenizeYAML, split, tokenized]
  rfl

/-- A tree that is written in block style is read back as it is, without an error. -/
theorem parseYAMLTree_render (lib : Library) (block : BlockTree) (finalNewline : Bool) :
    parseYAMLTree lib (render finalNewline block.tree) = .ok block.tree := by
  obtain ⟨tokens, tokenized, written⟩ := block.tokenizeYAML_render finalNewline
  have nonempty : tokens ≠ [] := by
    obtain ⟨content, rest, first⟩ := block.plain.blockLines_eq_cons block.collection 0
    rintro rfl
    rw [first] at written
    cases written
  rw [parseYAMLTree, parseYAML, tokenized]
  simp only [parseLines, nonempty, if_false]
  rw [block.parseBlock written (Nat.lt_succ_self _)]
  rfl

theorem parseYAMLTree_render_nested :
    parseYAMLTree ⟨some, fun _ => "", id, fun _ => .error ""⟩
      (bytes "a:\n  - x\n  - b: y\n  -\n    - z\n") = .ok nestedTree.tree := by
  have written : render true nestedTree.tree = bytes "a:\n  - x\n  - b: y\n  -\n    - z\n" := by
    decide
  exact written ▸ parseYAMLTree_render _ nestedTree true

end OpenThesis.Container
