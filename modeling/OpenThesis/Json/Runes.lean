import OpenThesis.Json.Decode

/-!
# The characters of a text

Bytes that encode no character are read one by one as the replacement character.
-/

namespace OpenThesis.Json.Text

open OpenThesis.Text List
open String (utf8EncodeChar)

variable (c : Char) {text : Bytes} {b : UInt8}

theorem codePoint_utf8EncodeChar : codePoint (utf8EncodeChar c) = c.toNat := by
  have bound : c.val.toNat < 0x110000 := by
    rcases c.valid with low | ⟨-, high⟩
    · exact Nat.lt_trans low (by decide)
    · exact high
  have toNat : c.toNat = c.val.toNat := rfl
  simp only [utf8EncodeChar]
  split_ifs
  all_goals
    simp only [codePoint, UInt8.toNat_ofNat']
    omega

theorem utf8EncodeChar_append_inj {c d : Char} {rest rest' : Bytes}
    (same : utf8EncodeChar c ++ rest = utf8EncodeChar d ++ rest') : c = d := by
  have arrays := congrArg List.toByteArray same
  rw [toByteArray_append, toByteArray_append] at arrays
  have first := @ByteArray.utf8DecodeChar?_utf8EncodeChar_append rest.toByteArray c
  rw [arrays, ByteArray.utf8DecodeChar?_utf8EncodeChar_append] at first
  exact (Option.some.inj first).symm

theorem isEncoded_iff : isEncoded text = true ↔ ∃ c, utf8EncodeChar c = text := by
  rw [isEncoded, decide_eq_true_iff]
  constructor
  · intro encoded
    exact ⟨_, encoded⟩
  · rintro ⟨c, rfl⟩
    rw [codePoint_utf8EncodeChar, Char.ofNat_toNat]

theorem decodeRune_utf8EncodeChar_append (rest : Bytes) :
    decodeRune (utf8EncodeChar c ++ rest) = (c, (utf8EncodeChar c).length) := by
  have whole : (utf8EncodeChar c ++ rest).take (utf8EncodeChar c).length = utf8EncodeChar c :=
    take_left
  have encoded : isEncoded ((utf8EncodeChar c ++ rest).take (utf8EncodeChar c).length) = true := by
    rw [whole]
    exact isEncoded_iff.mpr ⟨c, rfl⟩
  have shorter (width : Nat) (less : width < (utf8EncodeChar c).length) :
      isEncoded ((utf8EncodeChar c ++ rest).take width) = false := by
    rw [Bool.eq_false_iff]
    intro short
    obtain ⟨d, encodes⟩ := isEncoded_iff.mp short
    have split : utf8EncodeChar c ++ rest =
        utf8EncodeChar d ++ (utf8EncodeChar c ++ rest).drop width := by
      rw [encodes, take_append_drop]
    obtain rfl := utf8EncodeChar_append_inj split
    have length := congrArg List.length encodes
    rw [length_take] at length
    omega
  have found : [1, 2, 3, 4].find? (fun width => isEncoded ((utf8EncodeChar c ++ rest).take width)) =
      some (utf8EncodeChar c).length := by
    have sizes : (utf8EncodeChar c).length = 1 ∨ (utf8EncodeChar c).length = 2 ∨
        (utf8EncodeChar c).length = 3 ∨ (utf8EncodeChar c).length = 4 := by
      simp only [utf8EncodeChar]
      split_ifs <;> simp
    rcases sizes with size | size | size | size
    all_goals
      rw [size] at encoded shorter ⊢
      simp [List.find?, encoded, shorter]
  rw [decodeRune, found]
  simp only [whole, codePoint_utf8EncodeChar, Char.ofNat_toNat]

theorem decodeRune_of_not_encoded (other : ∀ c rest, text ≠ utf8EncodeChar c ++ rest) :
    decodeRune text = (replacement, 1) := by
  have absent : [1, 2, 3, 4].find? (fun width => isEncoded (text.take width)) = none := by
    rw [find?_eq_none]
    intro width _ encoded
    obtain ⟨c, encodes⟩ := isEncoded_iff.mp encoded
    apply other c (text.drop width)
    rw [encodes, take_append_drop]
  rw [decodeRune, absent]

theorem decodeRune_cases (text : Bytes) : (∃ c rest, text = utf8EncodeChar c ++ rest ∧
        decodeRune text = (c, (utf8EncodeChar c).length)) ∨
      (∀ c rest, text ≠ utf8EncodeChar c ++ rest) ∧ decodeRune text = (replacement, 1) := by
  by_cases encoded : ∃ c rest, text = utf8EncodeChar c ++ rest
  · obtain ⟨c, rest, rfl⟩ := encoded
    exact Or.inl ⟨c, rest, rfl, decodeRune_utf8EncodeChar_append c rest⟩
  · simp only [not_exists] at encoded
    exact Or.inr ⟨encoded, decodeRune_of_not_encoded encoded⟩

theorem one_le_decodeRune (text : Bytes) : 1 ≤ (decodeRune text).2 := by
  rcases decodeRune_cases text with ⟨c, rest, -, decoded⟩ | ⟨-, decoded⟩
  · rw [decoded]
    exact length_pos_of_ne_nil String.utf8EncodeChar_ne_nil
  · rw [decoded]

theorem decodeRune_le_length (nonempty : text ≠ []) : (decodeRune text).2 ≤ text.length := by
  rcases decodeRune_cases text with ⟨c, rest, same, decoded⟩ | ⟨-, decoded⟩
  · rw [decoded, same, length_append]
    exact Nat.le_add_right _ _
  · rw [decoded]
    exact length_pos_of_ne_nil nonempty

theorem utf8EncodeChar_of_ascii {c : Char} (ascii : c.toNat < 0x80) :
    utf8EncodeChar c = [UInt8.ofNat c.toNat] := by
  have toNat : c.toNat = c.val.toNat := rfl
  rw [utf8EncodeChar, if_pos (by omega), toNat]

theorem le_of_mem_utf8EncodeChar {c : Char} (notAscii : 0x80 ≤ c.toNat)
    (mem : b ∈ utf8EncodeChar c) : 0x80 ≤ b := by
  have toNat : c.toNat = c.val.toNat := rfl
  rw [UInt8.le_iff_toNat_le]
  simp only [utf8EncodeChar] at mem
  split_ifs at mem
  · omega
  all_goals
    simp only [mem_cons, not_mem_nil, or_false] at mem
    rcases mem with rfl | rfl | rfl | rfl
  all_goals
    simp only [UInt8.toNat_ofNat', UInt8.reduceToNat]
    omega

theorem eq_of_mem_utf8EncodeChar {c d : Char} (ascii : d.toNat < 0x80)
    (mem : UInt8.ofNat d.toNat ∈ utf8EncodeChar c) : c = d := by
  by_cases small : c.toNat < 0x80
  · rw [utf8EncodeChar_of_ascii small, mem_singleton] at mem
    have same : utf8EncodeChar c ++ [] = utf8EncodeChar d ++ [] := by
      rw [utf8EncodeChar_of_ascii small, utf8EncodeChar_of_ascii ascii, mem]
    exact utf8EncodeChar_append_inj same
  · have high := le_of_mem_utf8EncodeChar (Nat.le_of_not_lt small) mem
    simp only [UInt8.le_iff_toNat_le, UInt8.toNat_ofNat', UInt8.reduceToNat] at high
    omega

theorem utf8EncodeChar_ofNat (ascii : b < 0x80) : utf8EncodeChar (Char.ofNat b.toNat) = [b] := by
  have bound : b.toNat < 0x80 := UInt8.lt_iff_toNat_lt.mp ascii
  have toNat : (Char.ofNat b.toNat).toNat = b.toNat := by
    rw [Char.ofNat, dif_pos (Or.inl (Nat.lt_trans bound (by decide)))]
    rfl
  rw [utf8EncodeChar_of_ascii (by rw [toNat]; exact bound), toNat, UInt8.ofNat_toNat]

theorem decodeRune_append {text rest : Bytes} (nonempty : text ≠ []) {b : UInt8}
    (ascii : b < 0x80) : decodeRune (text ++ b :: rest) = decodeRune text := by
  rcases decodeRune_cases text with ⟨c, behind, rfl, decoded⟩ | ⟨other, decoded⟩
  · rw [decoded, append_assoc, decodeRune_utf8EncodeChar_append]
  · rw [decoded]
    refine decodeRune_of_not_encoded fun c behind same => ?_
    rcases append_eq_append_iff.mp same with ⟨more, encoded, follows⟩ | ⟨more, encoded, -⟩
    · cases more with
      | nil => exact other c [] (by rw [encoded, append_nil, append_nil])
      | cons b' more =>
        -- the character would have the byte after its first one
        obtain rfl : b = b' := (cons.inj follows).1
        by_cases small : c.toNat < 0x80
        · rw [utf8EncodeChar_of_ascii small] at encoded
          have length := congrArg List.length encoded
          have positive := length_pos_of_ne_nil nonempty
          simp only [length_cons, length_nil, length_append] at length
          omega
        · have high := le_of_mem_utf8EncodeChar (Nat.le_of_not_lt small)
            (encoded ▸ mem_append_right text mem_cons_self)
          exact absurd ascii (UInt8.not_lt.mpr high)
    · exact other c more encoded

def runesAfter : Nat → Bytes → List (Char × Nat)
  | _, [] => []
  | skip + 1, _ :: text => runesAfter skip text
  | 0, b :: text => decodeRune (b :: text) :: runesAfter ((decodeRune (b :: text)).2 - 1) text

def runes (text : Bytes) : List (Char × Nat) :=
  runesAfter 0 text

def toValid (text : Bytes) : Bytes :=
  (runes text).flatMap fun rune => utf8EncodeChar rune.1

theorem runesAfter_append (text rest : Bytes) :
    runesAfter text.length (text ++ rest) = runes rest := by
  induction text with
  | nil => rfl
  | cons b text ih => exact ih

theorem runes_utf8EncodeChar_append (rest : Bytes) :
    runes (utf8EncodeChar c ++ rest) = (c, (utf8EncodeChar c).length) :: runes rest := by
  have decoded := decodeRune_utf8EncodeChar_append c rest
  cases encoded : utf8EncodeChar c with
  | nil => exact absurd encoded String.utf8EncodeChar_ne_nil
  | cons b text =>
    rw [encoded] at decoded
    rw [cons_append, runes, runesAfter, ← cons_append, decoded, length_cons,
      Nat.add_sub_cancel, runesAfter_append]

theorem runes_of_not_encoded {rest : Bytes}
    (other : ∀ c behind, b :: rest ≠ utf8EncodeChar c ++ behind) :
    runes (b :: rest) = (replacement, 1) :: runes rest := by
  rw [runes, runesAfter, decodeRune_of_not_encoded other]
  rfl

theorem runes_induction {motive : Bytes → Prop} (nil : motive [])
    (encoded : ∀ c rest, motive rest → motive (utf8EncodeChar c ++ rest))
    (replaced : ∀ b rest, (∀ c behind, b :: rest ≠ utf8EncodeChar c ++ behind) → motive rest →
      motive (b :: rest)) (text : Bytes) : motive text := by
  induction size : text.length using Nat.strongRecOn generalizing text with
  | ind size ih =>
    rcases decodeRune_cases text with ⟨c, rest, rfl, -⟩ | ⟨other, -⟩
    · refine encoded c rest (ih rest.length ?_ rest rfl)
      have positive := length_pos_of_ne_nil (@String.utf8EncodeChar_ne_nil c)
      rw [← size, length_append]
      omega
    · cases text with
      | nil => exact nil
      | cons b rest => exact replaced b rest other (ih rest.length (size ▸ by simp) rest rfl)

theorem toValid_utf8EncodeChar_append (rest : Bytes) :
    toValid (utf8EncodeChar c ++ rest) = utf8EncodeChar c ++ toValid rest := by
  rw [toValid, runes_utf8EncodeChar_append, flatMap_cons, toValid]

theorem bytes_ofList (text : List Char) :
    bytes (String.ofList text) = text.flatMap utf8EncodeChar := by
  rw [bytes, String.toList_ofList]

theorem toValid_eq_self_iff : toValid text = text ↔ ∃ s : String, bytes s = text := by
  constructor
  · intro same
    refine ⟨String.ofList ((runes text).map Prod.fst), ?_⟩
    rw [bytes_ofList, flatMap_map]
    exact same
  · rintro ⟨s, rfl⟩
    rw [bytes]
    induction s.toList with
    | nil => rfl
    | cons c text ih => rw [flatMap_cons, toValid_utf8EncodeChar_append, ih]

theorem le_of_mem_replacement (mem : b ∈ utf8EncodeChar replacement) : 0x80 ≤ b :=
  le_of_mem_utf8EncodeChar (by decide) mem

theorem mem_of_mem_toValid (ascii : b < 0x80) (mem : b ∈ toValid text) : b ∈ text := by
  induction text using runes_induction with
  | nil => exact mem
  | encoded c rest ih =>
    rw [toValid_utf8EncodeChar_append] at mem
    exact mem_append.mpr ((mem_append.mp mem).imp_right ih)
  | replaced b' rest other ih =>
    rw [toValid, runes_of_not_encoded other, flatMap_cons] at mem
    rcases mem_append.mp mem with new | old
    · exact absurd ascii (UInt8.not_lt.mpr (le_of_mem_replacement new))
    · exact mem_cons_of_mem _ (ih old)

end OpenThesis.Json.Text
