import Mathlib.Algebra.Group.Int.Defs
import Mathlib.Data.String.Basic
import Mathlib.Tactic.Common

/-!
# JSON documents

JSON trees and accessors for a decoder into a fixed record.
-/

namespace OpenThesis.Json

open List

/-- A JSON value. -/
inductive Json where
  | null
  | bool (value : Bool)
  | num (value : Int)
  | str (value : String)
  | arr (items : List Json)
  | obj (members : List (String × Json))

def omitEmpty (empty : Bool) (name : String) (value : Json) : List (String × Json) :=
  if empty then [] else [(name, value)]

def member {α : Type} (members : List (String × Json)) (name : String)
    (read : Json → Option α) (default : α) : Option α :=
  match members.lookup name with
  | none => some default
  | some value => read value

theorem lookup_omitEmpty (empty : Bool) (name key : String) (value : Json) :
    (omitEmpty empty name value).lookup key =
      if key == name then (if empty then none else some value) else none := by
  cases empty with
  | true => simp [omitEmpty]
  | false =>
    cases equal : key == name with
    | true | false => simp [omitEmpty, List.lookup_cons, equal]

variable {name : String}

theorem member_of_lookup {α : Type} {members : List (String × Json)} {value : Json}
    (found : members.lookup name = some value) (read : Json → Option α) (default : α) :
    member members name read default = read value := by
  simp only [member, found]

theorem member_of_omitted {α : Type} {members : List (String × Json)} {value : Json}
    {empty : Bool} {read : Json → Option α} {original default : α}
    (found : members.lookup name = if empty then none else some value)
    (reads : read value = some original) (isDefault : empty = true → original = default) :
    member members name read default = some original := by
  cases empty with
  | true => simp [member, found, isDefault rfl]
  | false => simp [member, found, reads]

def required {α : Type} (members : List (String × Json)) (name : String)
    (read : Json → Option α) : Option α :=
  (members.lookup name).bind read

def omitEmptyMembers (fields : List (String × Bool × Json)) : List (String × Json) :=
  fields.flatMap fun field => omitEmpty field.2.1 field.1 field.2.2

theorem lookup_omitEmptyMembers_of_notMem {fields : List (String × Bool × Json)}
    (absent : name ∉ fields.map Prod.fst) : (omitEmptyMembers fields).lookup name = none := by
  induction fields with
  | nil => rfl
  | cons field fields ih =>
    rw [map_cons, mem_cons, not_or] at absent
    rw [omitEmptyMembers, flatMap_cons, lookup_append, lookup_omitEmpty,
      beq_false_of_ne absent.1, if_neg Bool.false_ne_true, Option.none_or]
    exact ih absent.2

theorem lookup_omitEmptyMembers {fields : List (String × Bool × Json)}
    (distinct : (fields.map Prod.fst).Nodup) {empty : Bool} {value : Json}
    (inside : (name, empty, value) ∈ fields) :
    (omitEmptyMembers fields).lookup name = if empty then none else some value := by
  induction fields with
  | nil => cases inside
  | cons field fields ih =>
    rw [map_cons, nodup_cons] at distinct
    rw [omitEmptyMembers, flatMap_cons, lookup_append, lookup_omitEmpty]
    rcases mem_cons.mp inside with rfl | later
    · rw [beq_self_eq_true, if_pos rfl]
      exact (congrArg _ (lookup_omitEmptyMembers_of_notMem distinct.1)).trans (Option.or_none ..)
    · have other : name ≠ field.1 := fun same =>
        distinct.1 (same ▸ mem_map_of_mem later)
      rw [beq_false_of_ne other, if_neg Bool.false_ne_true, Option.none_or]
      exact ih distinct.2 later

namespace Json

def str? : Json → Option String
  | str value => some value
  | _ => none

def nat? : Json → Option Nat
  | num value => if 0 ≤ value then some value.toNat else none
  | _ => none

def uint64? : Json → Option UInt64
  | num value => if 0 ≤ value ∧ value < 2 ^ 64 then some (UInt64.ofNat value.toNat) else none
  | _ => none

def arr? : Json → Option (List Json)
  | arr items => some items
  | _ => none

def obj? : Json → Option (List (String × Json))
  | obj members => some members
  | _ => none

@[simp]
theorem str?_str (value : String) : (str value).str? = some value :=
  rfl

@[simp]
theorem nat?_num (value : Nat) : (num value).nat? = some value := by
  simp [nat?]

@[simp]
theorem uint64?_num (value : UInt64) : (num value.toNat).uint64? = some value := by
  have bound := value.toNat_lt
  have range : (0 : Int) ≤ value.toNat ∧ (value.toNat : Int) < 2 ^ 64 := by omega
  simp only [uint64?, if_pos range, Int.toNat_natCast, UInt64.ofNat_toNat]

@[simp]
theorem arr?_arr (items : List Json) : (arr items).arr? = some items :=
  rfl

@[simp]
theorem obj?_obj (members : List (String × Json)) : (obj members).obj? = some members :=
  rfl

end Json

end OpenThesis.Json
