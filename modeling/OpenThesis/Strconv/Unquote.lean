import OpenThesis.Json.Strings

/-!
# Quoted strings of Go

`strconv.Unquote`, with other escapes than the strings of JSON.
-/

namespace OpenThesis.Strconv

open Text Json.Text List
open String (utf8EncodeChar)

def letterEscape (b : UInt8) : Option UInt8 :=
  if b = byte 'a' then some 0x07
  else if b = byte 'b' then some 0x08
  else if b = byte 'f' then some 0x0c
  else if b = byte 'n' then some 0x0a
  else if b = byte 'r' then some 0x0d
  else if b = byte 't' then some 0x09
  else if b = byte 'v' then some 0x0b
  else if b = backslash ∨ b = quote then some b
  else none

def fixedHex (count : Nat) (digits : Bytes) : Option Nat :=
  if count ≤ digits.length then hexNumber (digits.take count) else none

def fixedOctal (digits : Bytes) : Option Nat :=
  if 3 ≤ digits.length then
    (digits.take 3).foldlM
      (fun n digit =>
        if byte '0' ≤ digit ∧ digit ≤ byte '7' then some (8 * n + (digit - byte '0').toNat)
        else none) 0
  else none

def isScalar (n : Nat) : Bool :=
  n < 0xd800 || (0xe000 ≤ n && n < 0x110000)

def unquoteEscape : Bytes → Option (Bytes × Nat)
  | [] => none
  | b :: digits =>
    match letterEscape b with
    | some value => some ([value], 2)
    | none =>
      if b = byte 'x' then (fixedHex 2 digits).map fun n => ([UInt8.ofNat n], 4)
      else if b = byte 'u' then
        (fixedHex 4 digits).bind fun n =>
          if isScalar n then some (utf8EncodeChar (Char.ofNat n), 6) else none
      else if b = byte 'U' then
        (fixedHex 8 digits).bind fun n =>
          if isScalar n then some (utf8EncodeChar (Char.ofNat n), 10) else none
      else
        (fixedOctal (b :: digits)).bind fun n =>
          if n ≤ 255 then some ([UInt8.ofNat n], 4) else none

def unquoteChar : Bytes → Option (Bytes × Nat)
  | [] => none
  | b :: rest =>
    if b = backslash then unquoteEscape rest
    else if b < 0x80 then some ([b], 1)
    else
      some (utf8EncodeChar (decodeRune (b :: rest)).1, (decodeRune (b :: rest)).2)

def unquoteAfter : Nat → Bytes → Option Bytes
  | _, [] => none
  | skip + 1, _ :: text => unquoteAfter skip text
  | 0, b :: text =>
    if b = quote then if text = [] then some [] else none
    else if b = byte '\n' then none
    else
      match unquoteChar (b :: text) with
      | none => none
      | some (value, width) => (unquoteAfter (width - 1) text).map (value ++ ·)

def unquote : Bytes → Option Bytes
  | [] => none
  | b :: text => if b = quote then unquoteAfter 0 text else none

example : unquote (bytes "\"a\\x42\\103\\u0044\\n\"") = some (bytes "aBCD\n") := by decide

example : unquote (bytes "\"a\\/b\"") = none := by decide

def isCommonLetter (b : UInt8) : Bool :=
  b = quote || b = backslash || (bytes "bfnrt").contains b

abbrev CommonBody : Bytes → Prop :=
  StringBody isCommonLetter isScalar

section

variable {b d₀ d₁ d₂ d₃ : UInt8} {n : Nat} {text raw rest value : Bytes}
  {letters : UInt8 → Bool} {numbers : Nat → Bool}

theorem isEscapeLetter_iff : isEscapeLetter b = true ↔ isCommonLetter b = true ∨ b = byte '/' := by
  have letters : bytes "/bfnrt" = byte '/' :: bytes "bfnrt" := by decide
  simp only [isEscapeLetter, isCommonLetter, letters, contains_cons, Bool.or_eq_true,
    beq_iff_eq, decide_eq_true_eq]
  tauto

theorem CommonBody.json (common : CommonBody raw) : JsonBody raw := by
  induction common with
  | nil => exact .nil
  | plain printable notQuote notBackslash _ ih => exact .plain printable notQuote notBackslash ih
  | letter known _ ih => exact .letter (isEscapeLetter_iff.mpr (Or.inl known)) ih
  | number reads _ _ ih => exact .number reads rfl ih

theorem stringBody_letter_iff (notNumber : b ≠ byte 'u') :
    StringBody letters numbers (backslash :: b :: rest) ↔
      letters b = true ∧ StringBody letters numbers rest := by
  constructor
  · intro body
    generalize same : backslash :: b :: rest = whole at body
    cases body with
    | nil => cases same
    | plain _ _ notBackslash => exact absurd (cons.inj same).1.symm notBackslash
    | letter known body =>
      cases same
      exact ⟨known, body⟩
    | number => exact absurd (cons.inj (cons.inj same).2).1 notNumber
  · rintro ⟨known, body⟩
    exact .letter known body

theorem stringBody_number_iff (unknown : letters (byte 'u') = false)
    (reads : hexNumber [d₀, d₁, d₂, d₃] = some n) :
    StringBody letters numbers (backslash :: byte 'u' :: d₀ :: d₁ :: d₂ :: d₃ :: rest) ↔
      numbers n = true ∧ StringBody letters numbers rest := by
  constructor
  · intro body
    generalize same : backslash :: byte 'u' :: d₀ :: d₁ :: d₂ :: d₃ :: rest = whole at body
    cases body with
    | nil => cases same
    | plain _ _ notBackslash => exact absurd (cons.inj same).1.symm notBackslash
    | letter known body =>
      cases same
      rw [unknown] at known
      cases known
    | number reads' allowed body =>
      cases same
      cases reads.symm.trans reads'
      exact ⟨allowed, body⟩
  · rintro ⟨allowed, body⟩
    exact .number reads allowed body

theorem stringBody_append_iff (printable : ∀ b ∈ text, 0x20 ≤ b ∧ b ≠ quote ∧ b ≠ backslash) :
    StringBody letters numbers (text ++ rest) ↔ StringBody letters numbers rest := by
  constructor
  · intro body
    induction text with
    | nil => exact body
    | cons b text ih =>
      apply ih fun b mem => printable b (mem_cons_of_mem _ mem)
      have notBackslash := (printable b mem_cons_self).2.2
      generalize same : b :: text ++ rest = whole at body
      cases body with
      | nil => cases same
      | plain _ _ _ body =>
        cases same
        exact body
      | letter | number => exact absurd (cons.inj same).1 notBackslash
  · exact (StringBody.of_printable printable).append

theorem printable_take (printable : 0x20 ≤ b ∧ b ≠ quote ∧ b ≠ backslash) :
    ∀ x ∈ (b :: text).take (decodeRune (b :: text)).2, 0x20 ≤ x ∧ x ≠ quote ∧ x ≠ backslash := by
  rcases decodeRune_cases (b :: text) with ⟨c, rest, same, decoded⟩ | ⟨-, decoded⟩
  · rw [decoded, same, take_left]
    intro x mem
    by_cases ascii : c.toNat < 0x80
    · rw [utf8EncodeChar_of_ascii ascii, mem_singleton] at mem
      rw [utf8EncodeChar_of_ascii ascii, ← mem] at same
      rwa [← (cons.inj same).1]
    · have high := le_of_mem_utf8EncodeChar (Nat.le_of_not_lt ascii) mem
      have other (d : UInt8) (low : d < 0x80) : x ≠ d := by
        rintro rfl
        exact absurd low (UInt8.not_lt.mpr high)
      exact ⟨UInt8.le_trans (by decide) high, other _ (by decide), other _ (by decide)⟩
  · rw [decoded]
    simpa using printable

theorem stringBody_plain_iff (printable : 0x20 ≤ b ∧ b ≠ quote ∧ b ≠ backslash) :
    StringBody letters numbers (b :: text) ↔
      StringBody letters numbers ((b :: text).drop (decodeRune (b :: text)).2) := by
  have split : StringBody letters numbers ((b :: text).take (decodeRune (b :: text)).2 ++
      (b :: text).drop (decodeRune (b :: text)).2) ↔ _ :=
    stringBody_append_iff (printable_take printable)
  rwa [take_append_drop] at split

theorem unquoteAfter_eq_drop (skip : Nat) (text : Bytes) :
    unquoteAfter skip text = unquoteAfter 0 (text.drop skip) :=
  eq_drop_of_skips (fun skip => by cases skip <;> rfl) (fun _ _ _ => rfl) skip text

theorem unquoteAfter_of_unquoteChar (width : Nat) (notQuote : b ≠ quote)
    (notNewline : b ≠ byte '\n') (char : unquoteChar (b :: text) = some (value, width + 1)) :
    unquoteAfter 0 (b :: text) = (unquoteAfter 0 (text.drop width)).map (value ++ ·) := by
  rw [unquoteAfter, if_neg notQuote, if_neg notNewline, char]
  simp only [Nat.add_sub_cancel]
  rw [unquoteAfter_eq_drop]

theorem unquoteAfter_letter {v : UInt8} (known : letterEscape b = some v) :
    unquoteAfter 0 (backslash :: b :: rest) = (unquoteAfter 0 rest).map ([v] ++ ·) := by
  refine unquoteAfter_of_unquoteChar 1 (by decide) (by decide) ?_
  rw [unquoteChar, if_pos rfl, unquoteEscape, known]

theorem unquoteAfter_slash : unquoteAfter 0 (backslash :: byte '/' :: rest) = none := by
  have noLetter : letterEscape (byte '/') = none := rfl
  have noNumber : fixedOctal (byte '/' :: rest) = none := by
    rw [fixedOctal]
    split_ifs
    · rfl
    · rfl
  have unknown : unquoteChar (backslash :: byte '/' :: rest) = none := by
    rw [unquoteChar, if_pos rfl, unquoteEscape, noLetter]
    simp only [if_neg (show byte '/' ≠ byte 'x' by decide),
      if_neg (show byte '/' ≠ byte 'u' by decide), if_neg (show byte '/' ≠ byte 'U' by decide),
      noNumber, Option.bind_none]
  rw [unquoteAfter, if_neg (by decide), if_neg (by decide), unknown]

theorem unquoteAfter_number (reads : hexNumber [d₀, d₁, d₂, d₃] = some n) :
    unquoteAfter 0 (backslash :: byte 'u' :: d₀ :: d₁ :: d₂ :: d₃ :: rest) =
      if isScalar n then (unquoteAfter 0 rest).map (utf8EncodeChar (Char.ofNat n) ++ ·)
      else none := by
  have noLetter : letterEscape (byte 'u') = none := rfl
  have digits : fixedHex 4 (d₀ :: d₁ :: d₂ :: d₃ :: rest) = some n := by
    rw [fixedHex, if_pos (by simp)]
    exact reads
  have char : unquoteChar (backslash :: byte 'u' :: d₀ :: d₁ :: d₂ :: d₃ :: rest) =
      if isScalar n then some (utf8EncodeChar (Char.ofNat n), 6) else none := by
    rw [unquoteChar, if_pos rfl, unquoteEscape, noLetter]
    simp only [if_neg (show byte 'u' ≠ byte 'x' by decide), if_true, digits, Option.bind_some]
  split_ifs with scalar
  · rw [if_pos scalar] at char
    exact unquoteAfter_of_unquoteChar 5 (by decide) (by decide) char
  · rw [if_neg scalar] at char
    rw [unquoteAfter, if_neg (by decide), if_neg (by decide), char]

theorem unquoteAfter_plain (printable : 0x20 ≤ b ∧ b ≠ quote ∧ b ≠ backslash) :
    unquoteAfter 0 (b :: text ++ quote :: rest) =
      (unquoteAfter 0 ((b :: text).drop (decodeRune (b :: text)).2 ++ quote :: rest)).map
        (utf8EncodeChar (decodeRune (b :: text)).1 ++ ·) := by
  obtain ⟨notControl, notQuote, notBackslash⟩ := printable
  have notNewline : b ≠ byte '\n' := by
    rintro rfl
    exact absurd notControl (by decide)
  by_cases ascii : b < 0x80
  · have encoded := utf8EncodeChar_ofNat ascii
    have decoded := decodeRune_utf8EncodeChar_append (Char.ofNat b.toNat) text
    rw [encoded] at decoded
    have single : decodeRune (b :: text) = (Char.ofNat b.toNat, 1) := decoded
    rw [single, encoded]
    refine unquoteAfter_of_unquoteChar 0 notQuote notNewline ?_
    rw [unquoteChar, if_neg notBackslash, if_pos ascii]
  · have alone : decodeRune (b :: (text ++ quote :: rest)) = decodeRune (b :: text) :=
      decodeRune_append (cons_ne_nil b text) (by decide)
    obtain ⟨width, same⟩ : ∃ width, (decodeRune (b :: text)).2 = width + 1 :=
      ⟨_, (Nat.sub_add_cancel (one_le_decodeRune _)).symm⟩
    have within : width ≤ text.length := by
      have bound := decodeRune_le_length (cons_ne_nil b text)
      rw [same, length_cons] at bound
      omega
    have char : unquoteChar (b :: (text ++ quote :: rest)) =
        some (utf8EncodeChar (decodeRune (b :: text)).1, width + 1) := by
      rw [unquoteChar, if_neg notBackslash, if_neg ascii, alone, same]
    rw [same, drop_succ_cons, ← drop_append_of_le_length within]
    exact unquoteAfter_of_unquoteChar width notQuote notNewline char

theorem letterEscape_of_common (known : isCommonLetter b = true) :
    ∃ v, letterEscape b = some v ∧ utf8EncodeChar (simpleEscape b) = [v] := by
  have letters : bytes "bfnrt" = [byte 'b', byte 'f', byte 'n', byte 'r', byte 't'] := by decide
  simp only [isCommonLetter, letters, Bool.or_eq_true, decide_eq_true_eq, contains_cons,
    contains_nil, Bool.or_false, beq_iff_eq] at known
  rcases known with (rfl | rfl) | rfl | rfl | rfl | rfl | rfl
  all_goals exact ⟨_, rfl, by decide⟩

theorem map_append_eq_some_iff {read : Option Bytes} {first later : Bytes} {common : Prop}
    (reads : ∀ value, read = some value ↔ rest = [] ∧ common ∧ value = later) :
    read.map (first ++ ·) = some value ↔ rest = [] ∧ common ∧ value = first ++ later := by
  rw [Option.map_eq_some_iff]
  constructor
  · rintro ⟨value, isRead, rfl⟩
    obtain ⟨ended, both, rfl⟩ := (reads value).mp isRead
    exact ⟨ended, both, rfl⟩
  · rintro ⟨ended, both, rfl⟩
    exact ⟨later, (reads later).mpr ⟨ended, both, rfl⟩, rfl⟩

theorem unquoteAfter_eq_some_iff (body : JsonBody raw) :
    unquoteAfter 0 (raw ++ quote :: rest) = some value ↔
      rest = [] ∧ CommonBody raw ∧ value = bytes (Json.Text.unquote raw) := by
  rw [Json.Text.unquote, bytes_ofList]
  induction size : raw.length using Nat.strongRecOn generalizing raw value with
  | ind bound ih =>
    cases body with
    | nil =>
      rw [nil_append, unquoteAfter, if_pos rfl]
      split_ifs with ended
      · simp [ended, StringBody.nil, Json.Text.unquoteAfter, eq_comm]
      · simp [ended]
    | @plain b text printable notQuote notBackslash body =>
      have ordinary := And.intro printable (And.intro notQuote notBackslash)
      have later := (stringBody_plain_iff ordinary).mp
        (.plain printable notQuote notBackslash body)
      have common : CommonBody (b :: text) ↔ _ := stringBody_plain_iff ordinary
      have shorter : ((b :: text).drop (decodeRune (b :: text)).2).length < bound := by
        have positive := one_le_decodeRune (b :: text)
        rw [length_drop, ← size, length_cons]
        omega
      rw [unquoteAfter_plain ordinary, common, Json.Text.unquoteAfter_cons,
        decodeNext_of_ne notBackslash, flatMap_cons]
      exact map_append_eq_some_iff fun value => ih _ shorter later rfl
    | @letter b text known body =>
      have shorter : text.length < bound := by
        rw [← size, length_cons, length_cons]
        omega
      have notNumber : b ≠ byte 'u' := by
        rintro rfl
        exact absurd known (by decide)
      have common : CommonBody (backslash :: b :: text) ↔ _ := stringBody_letter_iff notNumber
      rw [cons_append, cons_append, common, Json.Text.unquoteAfter_letter known, flatMap_cons]
      rcases isEscapeLetter_iff.mp known with both | rfl
      · obtain ⟨v, escape, encoded⟩ := letterEscape_of_common both
        rw [unquoteAfter_letter escape, encoded, both, eq_self, true_and]
        exact map_append_eq_some_iff fun value => ih _ shorter body rfl
      · have unknown : isCommonLetter (byte '/') = false := by decide
        simp [unquoteAfter_slash, unknown]
    | @number d₀ d₁ d₂ d₃ n text reads _ body =>
      have shorter : text.length < bound := by
        rw [← size]
        simp only [length_cons]
        omega
      have common : CommonBody (backslash :: byte 'u' :: d₀ :: d₁ :: d₂ :: d₃ :: text) ↔ _ :=
        stringBody_number_iff rfl reads
      simp only [cons_append]
      rw [unquoteAfter_number reads, common]
      split_ifs with scalar
      · have notSurrogate : ¬ (0xd800 ≤ n ∧ n < 0xe000) := by
          simp only [isScalar, Bool.or_eq_true, decide_eq_true_eq, Bool.and_eq_true] at scalar
          omega
        rw [Json.Text.unquoteAfter_number reads notSurrogate, flatMap_cons, scalar, eq_self,
          true_and]
        exact map_append_eq_some_iff fun value => ih _ shorter body rfl
      · simp [scalar]

end

end OpenThesis.Strconv
