import OpenThesis.Json.Text

/-!
# Decoding of JSON values

What a string means, and how a value is decoded into a record, a map or a number.
-/

namespace OpenThesis.Json.Text

open OpenThesis.Text

universe u v

def replacement : Char := '\ufffd'

def codePoint : Bytes → Nat
  | [a] => a.toNat
  | [a, b] => (a.toNat % 32) * 64 + b.toNat % 64
  | [a, b, c] => ((a.toNat % 16) * 64 + b.toNat % 64) * 64 + c.toNat % 64
  | [a, b, c, d] => (((a.toNat % 8) * 64 + b.toNat % 64) * 64 + c.toNat % 64) * 64 + d.toNat % 64
  | _ => 0

def isEncoded (text : Bytes) : Bool :=
  String.utf8EncodeChar (Char.ofNat (codePoint text)) = text

def decodeRune (text : Bytes) : Char × Nat :=
  match [1, 2, 3, 4].find? fun width => isEncoded (text.take width) with
  | some width => (Char.ofNat (codePoint (text.take width)), width)
  | none => (replacement, 1)

def unicodeEscape : Bytes → Option Nat
  | a :: b :: digits =>
    if a = backslash ∧ b = byte 'u' ∧ 4 ≤ digits.length then
      (digits.take 4).foldlM (fun n digit => (hexDigit digit).map (16 * n + ·)) 0
    else none
  | _ => none

def surrogatePair (high low : Nat) : Option Char :=
  if 0xd800 ≤ high ∧ high < 0xdc00 ∧ 0xdc00 ≤ low ∧ low < 0xe000 then
    some (Char.ofNat ((high - 0xd800) * 0x400 + (low - 0xdc00) + 0x10000))
  else none

def simpleEscape (b : UInt8) : Char :=
  if b = byte 'b' then '\x08'
  else if b = byte 'f' then '\x0c'
  else if b = byte 'n' then '\n'
  else if b = byte 'r' then '\r'
  else if b = byte 't' then '\t'
  else Char.ofNat b.toNat

def decodeNext (text : Bytes) : Char × Nat :=
  match text with
  | a :: b :: _ =>
    if a ≠ backslash then decodeRune text
    else
      match unicodeEscape text with
      | some n =>
        if 0xd800 ≤ n ∧ n < 0xe000 then
          match (unicodeEscape (text.drop 6)).bind (surrogatePair n) with
          | some c => (c, 12)
          | none => (replacement, 6)
        else (Char.ofNat n, 6)
      | none => (simpleEscape b, 2)
  | _ => decodeRune text

def unquoteAfter : Nat → Bytes → List Char
  | _, [] => []
  | skip + 1, _ :: text => unquoteAfter skip text
  | 0, b :: text =>
    let (c, width) := decodeNext (b :: text)
    c :: unquoteAfter (width - 1) text

def unquote (raw : Bytes) : String :=
  String.ofList (unquoteAfter 0 raw)

example : unquote (bytes "é\\ud83d" ++ [0xff]) = "é\ufffd\ufffd" := by decide

def natLiteral? (literal : Bytes) : Option Nat :=
  if literal ≠ [] ∧ literal.all isDigit then
    some (literal.foldl (fun n digit => 10 * n + (digit - byte '0').toNat) 0)
  else none

def intLiteral? (literal : Bytes) : Option Int :=
  match literal with
  | b :: rest =>
    if b = byte '-' then (natLiteral? rest).map fun n => -(n : Int)
    else (natLiteral? literal).map fun n => (n : Int)
  | [] => none

namespace Value

def bool? : Value → Option Bool
  | bool value => some value
  | _ => none

def string? : Value → Option String
  | string raw => some (unquote raw)
  | _ => none

def int64? : Value → Option Int64
  | number literal =>
    (intLiteral? literal).bind fun n =>
      if -2 ^ 63 ≤ n ∧ n < 2 ^ 63 then some (Int64.ofInt n) else none
  | _ => none

def uint64? : Value → Option UInt64
  | number literal =>
    (natLiteral? literal).bind fun n => if n < 2 ^ 64 then some (UInt64.ofNat n) else none
  | _ => none

def members? : Value → Option (List (Bytes × Value))
  | object members => some members
  | null => some []
  | _ => none

end Value

def lastMember (name : String) (members : List (Bytes × Value)) : Option (Bytes × Value) :=
  members.reverse.find? fun member => unquote member.1 = name

def readMap {α : Type u} (read : Value → Option α) (map : Std.ExtTreeMap String α)
    (members : List (Bytes × Value)) : Option (Std.ExtTreeMap String α) :=
  members.foldlM (fun map member => (read member.2).map (map.insert (unquote member.1))) map

def foldChar (c : Char) : Char :=
  if c = '\u017f' then 'S' else if c = '\u212a' then 'K' else c.toUpper

def sameName (name key : String) : Bool :=
  name.toList.map foldChar = key.toList.map foldChar

structure RecordField (σ : Type u) where
  name : String
  store : Value → σ → Option σ

def RecordField.of {σ : Type u} {α : Type v} (name : String) (read : Value → Option α)
    (set : σ → α → σ) : RecordField σ where
  name
  store value record :=
    match value with
    | .null => some record
    | value => (read value).map (set record)

def RecordField.ofMap {σ : Type u} {α : Type v} (name : String) (read : Value → Option α)
    (get : σ → Option (Std.ExtTreeMap String α)) (set : σ → Option (Std.ExtTreeMap String α) → σ) :
    RecordField σ where
  name
  store value record :=
    match value with
    | .null => some (set record none)
    | .object members =>
      (readMap read ((get record).getD ∅) members).map fun map => set record (some map)
    | _ => none

def decodeRecord {σ : Type u} (fields : List (RecordField σ)) (zero : σ) (value : Value) :
    Option σ :=
  value.members?.bind fun members =>
    members.foldlM (fun record member =>
      match fields.find? fun field => sameName field.name (unquote member.1) with
      | some field => field.store member.2 record
      | none => some record) zero

mutual

def Value.numbersFit (fits : Bytes → Bool) : Value → Bool
  | .number literal => fits literal
  | .array items => itemsFit fits items
  | .object members => membersFit fits members
  | _ => true

def itemsFit (fits : Bytes → Bool) : List Value → Bool
  | [] => true
  | item :: items => item.numbersFit fits && itemsFit fits items

def membersFit (fits : Bytes → Bool) : List (Bytes × Value) → Bool
  | [] => true
  | (_, value) :: members => value.numbersFit fits && membersFit fits members

end

def Value.any? (fits : Bytes → Bool) (value : Value) : Option Value :=
  if value.numbersFit fits then some value else none

end OpenThesis.Json.Text
