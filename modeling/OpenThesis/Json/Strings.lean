import OpenThesis.Json.Runes

/-!
# Strings of a JSON text

What may stand between quotes, and the string that an encoder writes for a text.
-/

namespace OpenThesis.Json.Text

open OpenThesis.Text List
open String (utf8EncodeChar)

def hexNumber (digits : Bytes) : Option Nat :=
  digits.foldlM (fun n digit => (hexDigit digit).map (16 * n + ·)) 0

/-- Printable bytes, and escapes by one of some letters or by a number. -/
inductive StringBody (letters : UInt8 → Bool) (numbers : Nat → Bool) : Bytes → Prop
  | nil : StringBody letters numbers []
  | plain {b : UInt8} {rest : Bytes} (printable : 0x20 ≤ b) (notQuote : b ≠ quote)
      (notBackslash : b ≠ backslash) (body : StringBody letters numbers rest) :
      StringBody letters numbers (b :: rest)
  | letter {b : UInt8} {rest : Bytes} (known : letters b = true)
      (body : StringBody letters numbers rest) :
      StringBody letters numbers (backslash :: b :: rest)
  | number {d₀ d₁ d₂ d₃ : UInt8} {n : Nat} {rest : Bytes}
      (reads : hexNumber [d₀, d₁, d₂, d₃] = some n) (allowed : numbers n = true)
      (body : StringBody letters numbers rest) :
      StringBody letters numbers (backslash :: byte 'u' :: d₀ :: d₁ :: d₂ :: d₃ :: rest)

def isEscapeLetter (b : UInt8) : Bool :=
  b = quote || b = backslash || (bytes "/bfnrt").contains b

abbrev JsonBody : Bytes → Prop :=
  StringBody isEscapeLetter fun _ => true

def Escape.next (escape : Escape) (b : UInt8) : Option Escape :=
  if escape = .plain ∧ b = quote then none else escape.step b

theorem Escape.next_escaped {b : UInt8} (known : isEscapeLetter b = true) :
    Escape.next .escaped b = some .plain := by
  have notNumber : b ≠ byte 'u' := by
    rintro rfl
    exact absurd known (by decide)
  rw [isEscapeLetter] at known
  rw [Escape.next, if_neg (by simp), Escape.step, if_neg notNumber, if_pos known]

theorem Escape.next_hex {b : UInt8} (digit : (hexDigit b).isSome = true) (left : Nat) :
    Escape.next (.hex (left + 1)) b = some (.hex left) ∧ Escape.next (.hex 0) b = some .plain := by
  simp [Escape.next, Escape.step, digit]

theorem exists_next {escape last : Escape} {b : UInt8} {raw : Bytes}
    (scanned : (b :: raw).foldlM Escape.next escape = some last) :
    ∃ next, escape.next b = some next ∧ raw.foldlM Escape.next next = some last := by
  rwa [foldlM_cons, Option.bind_eq_bind, Option.bind_eq_some_iff] at scanned

theorem exists_digits {left : Nat} {raw : Bytes}
    (scanned : raw.foldlM Escape.next (.hex left) = some .plain) :
    ∃ digits rest, raw = digits ++ rest ∧ digits.length = left + 1 ∧
      (∀ digit ∈ digits, (hexDigit digit).isSome = true) ∧
        rest.foldlM Escape.next .plain = some .plain := by
  induction raw generalizing left with
  | nil => cases scanned
  | cons b raw ih =>
    obtain ⟨escape, stepped, scanned⟩ := exists_next scanned
    simp only [Escape.next, Escape.step, reduceCtorEq, false_and, if_false] at stepped
    split_ifs at stepped with digit
    cases left with
    | zero =>
      cases stepped
      exact ⟨[b], raw, rfl, rfl, by simpa using digit, scanned⟩
    | succ left =>
      cases stepped
      obtain ⟨digits, rest, rfl, length, all, scanned⟩ := ih scanned
      exact ⟨b :: digits, rest, rfl, by simp [length], by simpa [digit] using all, scanned⟩

theorem exists_hexNumber {digits : Bytes} (start : Nat)
    (all : ∀ digit ∈ digits, (hexDigit digit).isSome = true) :
    ∃ n, digits.foldlM (fun n digit => (hexDigit digit).map (16 * n + ·)) start = some n := by
  induction digits generalizing start with
  | nil => exact ⟨start, rfl⟩
  | cons digit digits ih =>
    obtain ⟨value, reads⟩ := Option.isSome_iff_exists.mp (all digit mem_cons_self)
    obtain ⟨n, rest⟩ := ih (16 * start + value) fun d mem => all d (mem_cons_of_mem _ mem)
    exact ⟨n, by rw [foldlM_cons, reads]; exact rest⟩

theorem isSome_of_hexNumber {digits : Bytes} {start n : Nat}
    (reads : digits.foldlM (fun n digit => (hexDigit digit).map (16 * n + ·)) start = some n) :
    ∀ digit ∈ digits, (hexDigit digit).isSome = true := by
  induction digits generalizing start with
  | nil => simp
  | cons digit digits ih =>
    rw [foldlM_cons, Option.bind_eq_bind, Option.bind_eq_some_iff] at reads
    obtain ⟨next, first, reads⟩ := reads
    obtain ⟨value, isDigit, -⟩ := Option.map_eq_some_iff.mp first
    simpa [isDigit] using ih reads

theorem ofEscaped {raw : Bytes} (scanned : raw.foldlM Escape.next .escaped = some .plain)
    (shorter : ∀ rest : Bytes, rest.length < raw.length →
      rest.foldlM Escape.next .plain = some .plain → JsonBody rest) :
    JsonBody (backslash :: raw) := by
  cases raw with
  | nil => cases scanned
  | cons b raw =>
    obtain ⟨escape, stepped, scanned⟩ := exists_next scanned
    simp only [Escape.next, Escape.step, reduceCtorEq, false_and, if_false] at stepped
    split_ifs at stepped with number known
    · cases stepped
      subst number
      obtain ⟨digits, rest, rfl, length, all, remaining⟩ := exists_digits scanned
      obtain ⟨n, reads⟩ := exists_hexNumber 0 all
      have less : rest.length < (byte 'u' :: (digits ++ rest)).length := by
        rw [length_cons, length_append]
        omega
      have body := shorter rest less remaining
      obtain ⟨d₀, d₁, d₂, d₃, rfl⟩ := length_eq_four.mp length
      exact .number reads rfl body
    · cases stepped
      exact .letter known (shorter raw (by simp) scanned)

theorem foldlM_next_iff {raw : Bytes} :
    raw.foldlM Escape.next .plain = some .plain ↔ JsonBody raw := by
  constructor
  · intro scanned
    induction size : raw.length using Nat.strongRecOn generalizing raw with
    | ind size ih =>
      cases raw with
      | nil => exact .nil
      | cons b raw =>
        obtain ⟨escape, stepped, scanned⟩ := exists_next scanned
        simp only [Escape.next, Escape.step, true_and] at stepped
        split_ifs at stepped with isQuote isBackslash control
        · cases stepped
          subst isBackslash
          refine ofEscaped scanned fun rest shorter accepted => ?_
          exact ih rest.length (size ▸ Nat.lt_succ_of_lt shorter) accepted rfl
        · cases stepped
          exact .plain (UInt8.not_lt.mp control) isQuote isBackslash
            (ih raw.length (by simp [← size]) scanned rfl)
  · intro body
    induction body with
    | nil => rfl
    | plain printable notQuote notBackslash _ ih =>
      have control := UInt8.not_lt.mpr printable
      rw [foldlM_cons]
      simpa [Escape.next, Escape.step, notQuote, notBackslash, control] using ih
    | letter known _ ih =>
      have begins : Escape.next .plain backslash = some .escaped := rfl
      simpa [begins, Escape.next_escaped known] using ih
    | number reads _ _ ih =>
      have all := isSome_of_hexNumber reads
      simp only [mem_cons, not_mem_nil, or_false, forall_eq_or_imp, forall_eq] at all
      obtain ⟨first, second, third, fourth⟩ := all
      have begins : Escape.next .plain backslash = some .escaped := rfl
      have number : Escape.next .escaped (byte 'u') = some (.hex 3) := rfl
      simpa [begins, number, (Escape.next_hex first 2).1, (Escape.next_hex second 1).1,
        (Escape.next_hex third 0).1, (Escape.next_hex fourth 0).2] using ih

section

variable {b d₀ d₁ d₂ d₃ : UInt8} {n : Nat} {rest : Bytes}

theorem unquoteAfter_append (text rest : Bytes) :
    unquoteAfter text.length (text ++ rest) = unquoteAfter 0 rest := by
  induction text with
  | nil => rfl
  | cons b text ih => exact ih

theorem unquoteAfter_of_decodeNext {c : Char} (text : Bytes)
    (decoded : decodeNext (b :: (text ++ rest)) = (c, text.length + 1)) :
    unquoteAfter 0 (b :: (text ++ rest)) = c :: unquoteAfter 0 rest := by
  rw [unquoteAfter, decoded]
  simp only [Nat.add_sub_cancel]
  rw [unquoteAfter_append]

theorem decodeNext_letter (known : isEscapeLetter b = true) :
    decodeNext (backslash :: b :: rest) = (simpleEscape b, 2) := by
  have notNumber : b ≠ byte 'u' := by
    rintro rfl
    exact absurd known (by decide)
  simp [decodeNext, unicodeEscape, notNumber]

theorem unquoteAfter_letter (known : isEscapeLetter b = true) :
    unquoteAfter 0 (backslash :: b :: rest) = simpleEscape b :: unquoteAfter 0 rest :=
  unquoteAfter_of_decodeNext [b] (decodeNext_letter known)

section

variable (reads : hexNumber [d₀, d₁, d₂, d₃] = some n)

include reads

theorem unicodeEscape_number :
    unicodeEscape (backslash :: byte 'u' :: d₀ :: d₁ :: d₂ :: d₃ :: rest) = some n := by
  rw [unicodeEscape, if_pos ⟨rfl, rfl, by simp⟩]
  exact reads

theorem decodeNext_number (scalar : ¬ (0xd800 ≤ n ∧ n < 0xe000)) :
    decodeNext (backslash :: byte 'u' :: d₀ :: d₁ :: d₂ :: d₃ :: rest) = (Char.ofNat n, 6) := by
  simp only [decodeNext, unicodeEscape_number reads, ne_eq, not_true_eq_false, if_false,
    if_neg scalar]

theorem unquoteAfter_number (scalar : ¬ (0xd800 ≤ n ∧ n < 0xe000)) :
    unquoteAfter 0 (backslash :: byte 'u' :: d₀ :: d₁ :: d₂ :: d₃ :: rest) =
      Char.ofNat n :: unquoteAfter 0 rest :=
  unquoteAfter_of_decodeNext [byte 'u', d₀, d₁, d₂, d₃] (decodeNext_number reads scalar)

end

theorem decodeNext_of_ne (notBackslash : b ≠ backslash) :
    decodeNext (b :: rest) = decodeRune (b :: rest) := by
  cases rest with
  | nil => rfl
  | cons b' rest => rw [decodeNext, if_pos notBackslash]

theorem unquoteAfter_utf8EncodeChar {c : Char} (notBackslash : c ≠ '\\') :
    unquoteAfter 0 (utf8EncodeChar c ++ rest) = c :: unquoteAfter 0 rest := by
  have decoded := decodeRune_utf8EncodeChar_append c rest
  cases encoded : utf8EncodeChar c with
  | nil => exact absurd encoded String.utf8EncodeChar_ne_nil
  | cons b text =>
    have other : b ≠ backslash := by
      rintro rfl
      apply notBackslash
      have same : utf8EncodeChar c ++ [] = utf8EncodeChar '\\' ++ text := by
        rw [encoded, append_nil]
        rfl
      exact utf8EncodeChar_append_inj same
    rw [encoded, cons_append, ← decodeNext_of_ne other] at decoded
    exact unquoteAfter_of_decodeNext text decoded

end

def marks (text : Bytes) : Nat :=
  text.countP fun b => b = quote || b = backslash

theorem marks_utf8EncodeChar_of_not_ascii {c : Char} (notAscii : 0x80 ≤ c.toNat) :
    marks (utf8EncodeChar c) = 0 := by
  rw [marks, countP_eq_zero]
  intro b mem
  have high := le_of_mem_utf8EncodeChar notAscii mem
  have other (d : UInt8) (ascii : d < 0x80) : b ≠ d := by
    rintro rfl
    exact absurd ascii (UInt8.not_lt.mpr high)
  simp [other quote (by decide), other backslash (by decide)]

theorem marks_utf8EncodeChar_le (c : Char) : marks (utf8EncodeChar c) ≤ 1 := by
  by_cases ascii : c.toNat < 0x80
  · rw [utf8EncodeChar_of_ascii ascii]
    exact countP_le_length
  · rw [marks_utf8EncodeChar_of_not_ascii (Nat.le_of_not_lt ascii)]
    exact Nat.zero_le 1

theorem one_le_decodeNext (text : Bytes) : 1 ≤ (decodeNext text).2 := by
  rw [decodeNext.eq_def]
  split
  · split
    · exact one_le_decodeRune _
    · split
      · split
        · split <;> simp
        · simp
      · simp
  · exact one_le_decodeRune _

theorem marks_decodeNext (b : UInt8) (text : Bytes) :
    marks (utf8EncodeChar (decodeNext (b :: text)).1) ≤
      marks ((b :: text).take (decodeNext (b :: text)).2) := by
  by_cases escaped : b = backslash
  · subst escaped
    obtain ⟨width, same⟩ : ∃ width, (decodeNext (backslash :: text)).2 = width + 1 :=
      ⟨_, (Nat.sub_add_cancel (one_le_decodeNext _)).symm⟩
    rw [same, take_succ_cons, marks, marks, countP_cons_of_pos (by decide)]
    exact Nat.le_trans (marks_utf8EncodeChar_le _) (Nat.le_add_left 1 _)
  · rw [decodeNext_of_ne escaped]
    rcases decodeRune_cases (b :: text) with ⟨c, rest, same, decoded⟩ | ⟨-, decoded⟩
    · rw [decoded, same, take_left]
    · rw [decoded, marks_utf8EncodeChar_of_not_ascii (by decide)]
      exact Nat.zero_le _

theorem unquoteAfter_eq_drop (skip : Nat) (text : Bytes) :
    unquoteAfter skip text = unquoteAfter 0 (text.drop skip) :=
  eq_drop_of_skips (fun skip => by cases skip <;> rfl) (fun _ _ _ => rfl) skip text

theorem unquoteAfter_cons (b : UInt8) (text : Bytes) :
    unquoteAfter 0 (b :: text) = (decodeNext (b :: text)).1 ::
      unquoteAfter 0 ((b :: text).drop (decodeNext (b :: text)).2) := by
  obtain ⟨width, same⟩ : ∃ width, (decodeNext (b :: text)).2 = width + 1 :=
    ⟨_, (Nat.sub_add_cancel (one_le_decodeNext _)).symm⟩
  rw [same, drop_succ_cons, unquoteAfter]
  simp only [same, Nat.add_sub_cancel]
  rw [unquoteAfter_eq_drop]

theorem marks_unquote_le (raw : Bytes) : marks (bytes (unquote raw)) ≤ marks raw := by
  rw [unquote, bytes_ofList]
  induction size : raw.length using Nat.strongRecOn generalizing raw with
  | ind size ih =>
    cases raw with
    | nil => exact Nat.le_refl _
    | cons b text =>
      have shorter : ((b :: text).drop (decodeNext (b :: text)).2).length <
          (b :: text).length := by
        have positive := one_le_decodeNext (b :: text)
        rw [length_drop, length_cons]
        omega
      have first := marks_decodeNext b text
      have later := ih _ (size ▸ shorter) _ rfl
      rw [unquoteAfter_cons, flatMap_cons]
      calc
        marks (utf8EncodeChar (decodeNext (b :: text)).1 ++ _)
            = marks (utf8EncodeChar (decodeNext (b :: text)).1) + marks _ :=
              countP_append
        _ ≤ marks ((b :: text).take (decodeNext (b :: text)).2) +
              marks ((b :: text).drop (decodeNext (b :: text)).2) := Nat.add_le_add first later
        _ = marks (b :: text) := by
              rw [marks, marks, ← countP_append, take_append_drop, marks]

def hexByte (n : Nat) : UInt8 :=
  (bytes "0123456789abcdef").getD n 0

def escapeChar (c : Char) : Bytes :=
  if c = '"' then bytes "\\\""
  else if c = '\\' then bytes "\\\\"
  else if c = '\x08' then bytes "\\b"
  else if c = '\x0c' then bytes "\\f"
  else if c = '\n' then bytes "\\n"
  else if c = '\r' then bytes "\\r"
  else if c = '\t' then bytes "\\t"
  else if c.toNat < 0x20 ∨ c ∈ ['<', '>', '&'] then
    bytes "\\u00" ++ [hexByte (c.toNat / 16), hexByte (c.toNat % 16)]
  else if c = '\u2028' then bytes "\\u2028"
  else if c = '\u2029' then bytes "\\u2029"
  else utf8EncodeChar c

def escapeRune (rune : Char × Nat) : Bytes :=
  if rune = (replacement, 1) then bytes "\\ufffd" else escapeChar rune.1

def escapeText (text : Bytes) : Bytes :=
  (runes text).flatMap escapeRune

def marshalString (text : Bytes) : Bytes :=
  quote :: escapeText text ++ [quote]

example : marshalString (bytes "a\"<\n" ++ [0xff]) = bytes "\"a\\\"\\u003c\\n\\ufffd\"" := by
  decide

/-- How a character may be written: by the letter of an escape, by its number, or as it is. -/
inductive Written : Char → Bytes → Prop
  | letter {b : UInt8} (known : isEscapeLetter b = true) : Written (simpleEscape b) [backslash, b]
  | number {c : Char} {d₀ d₁ d₂ d₃ : UInt8} (reads : hexNumber [d₀, d₁, d₂, d₃] = some c.toNat) :
      Written c [backslash, byte 'u', d₀, d₁, d₂, d₃]
  | self {c : Char} (printable : 0x20 ≤ c.toNat) (notQuote : c ≠ '"') (notBackslash : c ≠ '\\') :
      Written c (utf8EncodeChar c)

theorem hexDigit_hexByte : ∀ n < 16, hexDigit (hexByte n) = some n := by
  decide

theorem hexNumber_hexByte {n : Nat} (small : n < 0x80) :
    hexNumber [byte '0', byte '0', hexByte (n / 16), hexByte (n % 16)] = some n := by
  have zero : hexDigit (byte '0') = some 0 := by decide
  simp only [hexNumber, foldlM_cons, foldlM_nil, zero, Option.map_some,
    hexDigit_hexByte (n / 16) (by omega), hexDigit_hexByte (n % 16) (by omega),
    Option.bind_eq_bind, Option.bind_some, Option.pure_def, Option.some.injEq]
  omega

theorem written_escapeChar (c : Char) : Written c (escapeChar c) := by
  rw [escapeChar]
  split
  next h => exact h ▸ .letter (b := quote) rfl
  split
  next h => exact h ▸ .letter (b := backslash) rfl
  split
  next h => exact h ▸ .letter (b := byte 'b') rfl
  split
  next h => exact h ▸ .letter (b := byte 'f') rfl
  split
  next h => exact h ▸ .letter (b := byte 'n') rfl
  split
  next h => exact h ▸ .letter (b := byte 'r') rfl
  split
  next h => exact h ▸ .letter (b := byte 't') rfl
  split
  next special =>
    refine .number (hexNumber_hexByte ?_)
    rcases special with control | html
    · omega
    · simp only [mem_cons, not_mem_nil, or_false] at html
      rcases html with rfl | rfl | rfl <;> decide
  split
  next h => exact h ▸ .number (by decide)
  split
  next h => exact h ▸ .number (by decide)
  next notQuote notBackslash _ _ _ _ _ ordinary _ _ =>
    refine .self ?_ notQuote notBackslash
    exact Nat.le_of_not_lt fun control => ordinary (Or.inl control)

theorem written_escapeRune (rune : Char × Nat) : Written rune.1 (escapeRune rune) := by
  rw [escapeRune]
  split
  next replaced => exact replaced ▸ .number (by decide)
  · exact written_escapeChar rune.1

section

variable {c : Char} {text rest : Bytes} {letters : UInt8 → Bool} {numbers : Nat → Bool}

theorem StringBody.append (first : StringBody letters numbers text)
    (second : StringBody letters numbers rest) : StringBody letters numbers (text ++ rest) := by
  induction first with
  | nil => exact second
  | plain printable notQuote notBackslash _ ih => exact .plain printable notQuote notBackslash ih
  | letter known _ ih => exact .letter known ih
  | number reads allowed _ ih => exact .number reads allowed ih

theorem StringBody.of_printable (printable : ∀ b ∈ text, 0x20 ≤ b ∧ b ≠ quote ∧ b ≠ backslash) :
    StringBody letters numbers text := by
  induction text with
  | nil => exact .nil
  | cons b text ih =>
    obtain ⟨notControl, notQuote, notBackslash⟩ := printable b mem_cons_self
    exact .plain notControl notQuote notBackslash
      (ih fun b mem => printable b (mem_cons_of_mem _ mem))

theorem Written.body (written : Written c text) : JsonBody text := by
  cases written with
  | letter known => exact .letter known .nil
  | number reads => exact .number reads rfl .nil
  | self printable notQuote notBackslash =>
    refine .of_printable fun b mem => ⟨?_, ?_, ?_⟩
    · by_cases ascii : c.toNat < 0x80
      · rw [utf8EncodeChar_of_ascii ascii, mem_singleton] at mem
        rw [mem, UInt8.le_iff_toNat_le, UInt8.toNat_ofNat']
        exact Nat.le_trans printable (by omega)
      · have high := le_of_mem_utf8EncodeChar (Nat.le_of_not_lt ascii) mem
        exact UInt8.le_trans (by decide) high
    · rintro rfl
      exact notQuote (eq_of_mem_utf8EncodeChar (d := '"') (by decide) mem)
    · rintro rfl
      exact notBackslash (eq_of_mem_utf8EncodeChar (d := '\\') (by decide) mem)

theorem Written.unquoteAfter (written : Written c text) :
    unquoteAfter 0 (text ++ rest) = c :: unquoteAfter 0 rest := by
  cases written with
  | letter known => exact unquoteAfter_letter known
  | number reads =>
    have scalar : ¬ (0xd800 ≤ c.toNat ∧ c.toNat < 0xe000) := by
      rcases c.valid with low | ⟨high, -⟩
      · exact fun surrogate => absurd low (Nat.not_lt.mpr surrogate.1)
      · exact fun surrogate => absurd high (Nat.not_lt.mpr (Nat.le_of_lt_succ surrogate.2))
    exact (unquoteAfter_number reads scalar).trans
      (congrArg (· :: unquoteAfter 0 rest) (Char.ofNat_toNat c))
  | self printable notQuote notBackslash => exact unquoteAfter_utf8EncodeChar notBackslash

end

theorem jsonBody_escapeText (text : Bytes) : JsonBody (escapeText text) := by
  rw [escapeText]
  induction runes text with
  | nil => exact .nil
  | cons rune runes ih => exact (written_escapeRune rune).body.append ih

theorem bytes_unquote_escapeText (text : Bytes) :
    bytes (unquote (escapeText text)) = toValid text := by
  have means : unquoteAfter 0 (escapeText text) = (runes text).map Prod.fst := by
    rw [escapeText]
    induction runes text with
    | nil => rfl
    | cons rune runes ih =>
      rw [flatMap_cons, (written_escapeRune rune).unquoteAfter, ih, map_cons]
  rw [unquote, means, bytes_ofList, flatMap_map, toValid]

end OpenThesis.Json.Text
