import Mathlib.Data.FinEnum
import Mathlib.Data.UInt

/-!
# Byte strings

Text as bytes. Literals stand for their UTF-8 encoding; bytes that encode nothing are ordinary
content.
-/

namespace OpenThesis.Text

open List

abbrev Bytes := List UInt8

def bytes (text : String) : Bytes :=
  text.toList.flatMap String.utf8EncodeChar

def byte (c : Char) : UInt8 :=
  c.toUInt8

def spaces : List Bytes :=
  ["\t", "\n", "\x0b", "\x0c", "\r", " ", "\u0085", "\u00a0", "\u1680", "\u2000", "\u2001",
    "\u2002", "\u2003", "\u2004", "\u2005", "\u2006", "\u2007", "\u2008", "\u2009", "\u200a",
    "\u2028", "\u2029", "\u202f", "\u205f", "\u3000"].map bytes

/-- Drop the words at the start of a text; its length is enough fuel. -/
def dropWords (words : List Bytes) : Nat → Bytes → Bytes
  | 0, text => text
  | fuel + 1, text =>
    match words.find? (·.isPrefixOf text) with
    | some word => dropWords words fuel (text.drop word.length)
    | none => text

def trimSpace (text : Bytes) : Bytes :=
  let text := dropWords spaces text.length text
  (dropWords (spaces.map List.reverse) text.length text.reverse).reverse

def trimRight (cut : UInt8 → Bool) (text : Bytes) : Bytes :=
  (text.reverse.dropWhile cut).reverse

/-- A reader that passes over the bytes it has already read starts behind them. -/
theorem eq_drop_of_skips {β : Type*} {read : Nat → Bytes → β}
    (nil : ∀ skip, read skip [] = read 0 [])
    (cons : ∀ skip b text, read (skip + 1) (b :: text) = read skip text) (skip : Nat)
    (text : Bytes) : read skip text = read 0 (text.drop skip) := by
  induction skip generalizing text with
  | zero => rfl
  | succ skip ih =>
    cases text with
    | nil => exact nil _
    | cons b text => exact (cons skip b text).trans (ih text)

section

variable {words : List Bytes} {text : Bytes} {b : UInt8}

theorem dropWords_eq_self (other : ∀ word ∈ words, ∀ c ∈ text.head?, word.head? ≠ some c)
    (nonempty : [] ∉ words) (fuel : Nat) : dropWords words fuel text = text := by
  cases fuel with
  | zero => rfl
  | succ fuel =>
    have none : words.find? (·.isPrefixOf text) = none := by
      rw [find?_eq_none]
      intro word mem isPrefix
      rw [ isPrefixOf_iff_prefix] at isPrefix
      obtain ⟨rest, rfl⟩ := isPrefix
      cases word with
      | nil => exact nonempty mem
      | cons c word => exact other _ mem c rfl rfl
    rw [dropWords, none]

theorem exists_words (words : List Bytes) (fuel : Nat) (text : Bytes) :
    ∃ parts : List Bytes, (∀ part ∈ parts, part ∈ words) ∧
      text = parts.flatten ++ dropWords words fuel text := by
  induction fuel generalizing text with
  | zero => exact ⟨[], by simp, rfl⟩
  | succ fuel ih =>
    rw [dropWords]
    split
    next word found =>
      have isPrefix := find?_some found
      rw [ isPrefixOf_iff_prefix] at isPrefix
      obtain ⟨rest, rfl⟩ := isPrefix
      rw [drop_left]
      obtain ⟨parts, known, same⟩ := ih rest
      refine ⟨word :: parts, ?_, ?_⟩
      · simpa using ⟨mem_of_find?_eq_some found, known⟩
      · rw [flatten_cons, append_assoc, ← same]
    · exact ⟨[], by simp, rfl⟩

theorem dropWords_suffix (words : List Bytes) (fuel : Nat) (text : Bytes) :
    dropWords words fuel text <:+ text := by
  obtain ⟨parts, -, same⟩ := exists_words words fuel text
  exact ⟨parts.flatten, same.symm⟩

theorem mem_dropWords (other : ∀ word ∈ words, b ∉ word) (fuel : Nat) (mem : b ∈ text) :
    b ∈ dropWords words fuel text := by
  obtain ⟨parts, known, same⟩ := exists_words words fuel text
  rw [same] at mem
  refine (mem_append.mp mem).resolve_left fun dropped => ?_
  obtain ⟨word, isPart, inside⟩ := mem_flatten.mp dropped
  exact other word (known word isPart) inside

theorem mem_of_mem_trimSpace (mem : b ∈ trimSpace text) : b ∈ text := by
  rw [trimSpace, mem_reverse] at mem
  have inner := (dropWords_suffix _ _ _).subset mem
  rw [mem_reverse] at inner
  exact (dropWords_suffix _ _ _).subset inner

theorem mem_trimSpace (mem : b ∈ text) (other : ∀ word ∈ spaces, b ∉ word) :
    b ∈ trimSpace text := by
  rw [trimSpace, mem_reverse]
  apply mem_dropWords
  · intro word reversed
    obtain ⟨space, isSpace, rfl⟩ := mem_map.mp reversed
    rw [mem_reverse]
    exact other space isSpace
  · rw [mem_reverse]
    exact mem_dropWords other _ mem

theorem trimSpace_ne_nil (mem : b ∈ text) (other : ∀ word ∈ spaces, b ∉ word) :
    trimSpace text ≠ [] :=
  ne_nil_of_mem (mem_trimSpace mem other)

theorem trimSpace_blank (isBlank : b = byte ' ' ∨ b = byte '\t') :
    trimSpace (b :: text) = trimSpace text := by
  have dropped : dropWords spaces (b :: text).length (b :: text) =
      dropWords spaces text.length text := by
    rcases isBlank with rfl | rfl <;> rfl
  rw [trimSpace, dropped, ← trimSpace]

end

def White (text : Bytes) : Prop :=
  ∃ parts : List Bytes, (∀ part ∈ parts, part ∈ spaces) ∧ text = parts.flatten

section

variable {text before behind : Bytes} {b : UInt8}

theorem White.append (first : White before) (last : White behind) : White (before ++ behind) := by
  obtain ⟨parts, known, rfl⟩ := first
  obtain ⟨others, known', rfl⟩ := last
  refine ⟨parts ++ others, fun part mem => ?_, by rw [flatten_append]⟩
  exact (mem_append.mp mem).elim (known part) (known' part)

theorem White.le_or_le (white : White text) (mem : b ∈ text) : b ≤ 0x20 ∨ 0x80 ≤ b := by
  have range : ∀ space ∈ spaces, ∀ b ∈ space, b ≤ 0x20 ∨ 0x80 ≤ b := by decide +kernel
  obtain ⟨parts, known, rfl⟩ := white
  obtain ⟨part, isPart, inside⟩ := mem_flatten.mp mem
  exact range part (known part isPart) b inside

theorem find?_spaces {space : Bytes} (mem : space ∈ spaces) (rest : Bytes) :
    spaces.find? (·.isPrefixOf (space ++ rest)) = some space := by
  have starts : ∀ word ∈ spaces, ∀ other ∈ spaces, word.isPrefixOf other = true → word = other := by
    decide +kernel
  cases found : spaces.find? (·.isPrefixOf (space ++ rest)) with
  | none =>
    rw [find?_eq_none] at found
    exact absurd ( isPrefixOf_iff_prefix.mpr (prefix_append space rest)) (found space mem)
  | some word =>
    have isSpace := mem_of_find?_eq_some found
    have isPrefix := find?_some found
    rw [ isPrefixOf_iff_prefix] at isPrefix
    rcases prefix_or_prefix_of_prefix isPrefix (prefix_append space rest) with
      shorter | longer
    · rw [starts word isSpace space mem ( isPrefixOf_iff_prefix.mpr shorter)]
    · rw [starts space mem word isSpace ( isPrefixOf_iff_prefix.mpr longer)]

theorem exists_white (text : Bytes) :
    ∃ before behind, White before ∧ White behind ∧ text = before ++ trimSpace text ++ behind := by
  obtain ⟨parts, known, front⟩ := exists_words spaces text.length text
  rw [trimSpace]
  generalize dropWords spaces text.length text = kept at front ⊢
  obtain ⟨others, known', back⟩ := exists_words (spaces.map List.reverse) kept.length kept.reverse
  refine ⟨parts.flatten, others.flatten.reverse, ⟨parts, known, rfl⟩,
    ⟨(others.map List.reverse).reverse, fun part mem => ?_, reverse_flatten⟩, ?_⟩
  · obtain ⟨word, isPart, rfl⟩ := mem_map.mp (mem_reverse.mp mem)
    obtain ⟨space, isSpace, rfl⟩ := mem_map.mp (known' word isPart)
    rwa [reverse_reverse]
  · have whole := congrArg List.reverse back
    rw [reverse_reverse, reverse_append] at whole
    rw [append_assoc, ← whole, front]

theorem trimSpace_eq_nil_iff : trimSpace text = [] ↔ White text := by
  constructor
  · intro empty
    obtain ⟨before, behind, first, last, same⟩ := exists_white text
    rw [empty, append_nil] at same
    rw [same]
    exact first.append last
  · rintro ⟨parts, known, rfl⟩
    have dropped (fuel : Nat) (enough : parts.flatten.length ≤ fuel) :
        dropWords spaces fuel parts.flatten = [] := by
      induction parts generalizing fuel with
      | nil => exact suffix_nil.mp (dropWords_suffix spaces fuel [])
      | cons part parts ih =>
        have isSpace := known part mem_cons_self
        have nonempty : part ≠ [] := by
          rintro rfl
          exact absurd isSpace (by decide)
        have positive := length_pos_of_ne_nil nonempty
        rw [flatten_cons, length_append] at enough
        obtain ⟨fuel, rfl⟩ : ∃ fuel', fuel = fuel' + 1 := ⟨fuel - 1, by omega⟩
        rw [flatten_cons, dropWords, find?_spaces isSpace]
        simp only [drop_left]
        exact ih (fun other mem => known other (mem_cons_of_mem part mem)) fuel (by omega)
    rw [trimSpace, dropped _ (Nat.le_refl _)]
    rfl

end

end OpenThesis.Text
