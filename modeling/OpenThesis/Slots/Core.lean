import Mathlib.Data.Set.Card

/-!
# Byte slots

Byte counters that saturate, written by passes over a buffer of increments.
-/

namespace OpenThesis.Slots

universe u v

def saturatingAdd (a b : UInt8) : UInt8 :=
  let sum := a.toUInt16 + b.toUInt16
  if sum > 255 then 255 else sum.toUInt8

theorem toNat_saturatingAdd (a b : UInt8) :
    (saturatingAdd a b).toNat = min 255 (a.toNat + b.toNat) := by
  have boundA := a.toNat_lt
  have boundB := b.toNat_lt
  have sum : (a.toUInt16 + b.toUInt16).toNat = a.toNat + b.toNat := by
    rw [UInt16.toNat_add, UInt8.toNat_toUInt16, UInt8.toNat_toUInt16]
    exact Nat.mod_eq_of_lt (by omega)
  simp only [saturatingAdd, gt_iff_lt, UInt16.lt_iff_toNat_lt, sum, UInt16.reduceToNat]
  split
  · change 255 = _
    omega
  · rw [UInt16.toNat_toUInt8, sum]
    omega

theorem saturatingAdd_eq_zero_iff (a b : UInt8) : saturatingAdd a b = 0 ↔ a = 0 ∧ b = 0 := by
  simp only [← UInt8.toNat_inj, toNat_saturatingAdd, UInt8.toNat_zero]
  omega

theorem saturatingAdd_ne_zero (a : UInt8) {b : UInt8} (nonzero : b ≠ 0) :
    saturatingAdd a b ≠ 0 := by
  intro zero
  exact nonzero ((saturatingAdd_eq_zero_iff a b).mp zero).2

@[simp]
theorem saturatingAdd_zero (a : UInt8) : saturatingAdd a 0 = a := by
  have bound := a.toNat_lt
  simp only [← UInt8.toNat_inj, toNat_saturatingAdd, UInt8.toNat_zero]
  omega

theorem saturatingAdd_right_comm (a b c : UInt8) :
    saturatingAdd (saturatingAdd a b) c = saturatingAdd (saturatingAdd a c) b := by
  simp only [← UInt8.toNat_inj, toNat_saturatingAdd]
  omega

section

variable {n : Nat} {σ : Type u} {α : Type v}

def sweep (visit : Fin n → UInt8 → σ → σ) : Nat → List UInt8 → σ → σ
  | _, [], s => s
  | i, byte :: bytes, s =>
    if inside : i < n then
      sweep visit (i + 1) bytes (if byte = 0 then s else visit ⟨i, inside⟩ byte s)
    else s

def sweepAny (test : Fin n → UInt8 → Bool) : Nat → List UInt8 → Bool
  | _, [] => false
  | i, byte :: bytes =>
    if inside : i < n then
      if byte ≠ 0 ∧ test ⟨i, inside⟩ byte then true else sweepAny test (i + 1) bytes
    else false

theorem sweep_invariant {visit : Fin n → UInt8 → σ → σ} {invariant : σ → Prop}
    (keeps : ∀ slot byte s, byte ≠ 0 → invariant s → invariant (visit slot byte s))
    (i : Nat) (bytes : List UInt8) {s : σ} (initially : invariant s) :
    invariant (sweep visit i bytes s) := by
  induction bytes generalizing i s with
  | nil => exact initially
  | cons byte bytes ih =>
    simp only [sweep]
    split
    · rename_i inside
      apply ih
      split
      · exact initially
      · rename_i nonzero
        exact keeps _ _ _ nonzero initially
    · exact initially

def byteAt (bytes : List UInt8) (i : Nat) : UInt8 :=
  (bytes[i]?).getD 0

@[simp]
theorem byteAt_zero (byte : UInt8) (bytes : List UInt8) : byteAt (byte :: bytes) 0 = byte :=
  rfl

@[simp]
theorem byteAt_succ (byte : UInt8) (bytes : List UInt8) (k : Nat) :
    byteAt (byte :: bytes) (k + 1) = byteAt bytes k :=
  rfl

theorem sweepAny_eq_true_iff (test : Fin n → UInt8 → Bool) (i : Nat) (bytes : List UInt8) :
    sweepAny test i bytes = true ↔
      ∃ (slot : Fin n) (k : Nat), slot.val = i + k ∧ byteAt bytes k ≠ 0 ∧
        test slot (byteAt bytes k) = true := by
  induction bytes generalizing i with
  | nil => simp [sweepAny, byteAt]
  | cons byte bytes ih =>
    simp only [sweepAny]
    split
    · rename_i inside
      split
      · rename_i passes
        exact iff_of_true rfl ⟨⟨i, inside⟩, 0, rfl, passes.1, passes.2⟩
      · rename_i fails
        rw [ih]
        constructor
        · rintro ⟨slot, k, place, nonzero, passes⟩
          exact ⟨slot, k + 1, by omega, nonzero, passes⟩
        · rintro ⟨slot, k, place, nonzero, passes⟩
          cases k with
          | zero =>
            obtain rfl : slot = ⟨i, inside⟩ := Fin.ext place
            exact absurd ⟨nonzero, passes⟩ fails
          | succ k => exact ⟨slot, k, by omega, nonzero, passes⟩
    · rename_i outside
      simp only [Bool.false_eq_true, false_iff]
      rintro ⟨slot, k, place, -⟩
      have bound := slot.isLt
      omega

section

variable {visit : Fin n → UInt8 → σ → σ} {view : σ → Fin n → α} {change : α → UInt8 → α}
  (localized : ∀ slot byte s other, byte ≠ 0 →
    view (visit slot byte s) other =
      if other = slot then change (view s other) byte else view s other)

include localized

theorem sweep_before {i : Nat} {slot : Fin n} (before : slot.val < i) (bytes : List UInt8)
    (s : σ) : view (sweep visit i bytes s) slot = view s slot := by
  induction bytes generalizing i s with
  | nil => rfl
  | cons byte bytes ih =>
    simp only [sweep]
    split
    · rename_i inside
      rw [ih (Nat.lt_succ_of_lt before)]
      split
      · rfl
      · rename_i nonzero
        have differs : slot ≠ ⟨i, inside⟩ := Fin.ne_of_val_ne (Nat.ne_of_lt before)
        rw [localized _ _ _ _ nonzero, if_neg differs]
    · rfl

theorem sweep_slot {i k : Nat} {slot : Fin n} (place : slot.val = i + k) (bytes : List UInt8)
    (s : σ) :
    view (sweep visit i bytes s) slot =
      if byteAt bytes k = 0 then view s slot else change (view s slot) (byteAt bytes k) := by
  induction bytes generalizing i k s with
  | nil => simp [sweep, byteAt]
  | cons byte bytes ih =>
    have inside : i < n := by
      have bound := slot.isLt
      omega
    simp only [sweep, dif_pos inside]
    cases k with
    | zero =>
      obtain rfl : slot = ⟨i, inside⟩ := Fin.ext place
      rw [sweep_before localized (Nat.lt_succ_self i), byteAt_zero]
      split
      · rfl
      · rename_i nonzero
        rw [localized _ _ _ _ nonzero, if_pos rfl]
    | succ k =>
      have shifted : slot.val = i + 1 + k := by omega
      have apart : slot.val ≠ i := by omega
      have differs : slot ≠ ⟨i, inside⟩ := Fin.ne_of_val_ne apart
      have untouched : view (if byte = 0 then s else visit ⟨i, inside⟩ byte s) slot =
          view s slot := by
        split
        · rfl
        · rename_i nonzero
          rw [localized _ _ _ _ nonzero, if_neg differs]
      rw [ih shifted, untouched, byteAt_succ]

end

end

section

variable {n : Nat} {σ : Type u} {α : Type v}

def setSlot (slots : Vector α n) (slot : Fin n) (value : α) : Vector α n :=
  slots.set slot value slot.isLt

theorem get_setSlot (slots : Vector α n) (slot other : Fin n) (value : α) :
    (setSlot slots slot value).get other = if other = slot then value else slots.get other := by
  by_cases same : other = slot
  · subst same
    rw [if_pos rfl]
    exact Vector.getElem_set_self other.isLt
  · have apart : slot.val ≠ other.val := fun equal => same (Fin.ext equal.symm)
    rw [if_neg same]
    exact Vector.getElem_set_ne slot.isLt other.isLt apart

theorem eq_of_get {slots others : Vector α n} (same : ∀ slot, slots.get slot = others.get slot) :
    slots = others :=
  Vector.ext fun slot inside => same ⟨slot, inside⟩

theorem sweep_vector {visit : Fin n → UInt8 → σ → σ} (slots : σ → Vector α n)
    (change : α → UInt8 → α)
    (writes : ∀ slot byte s, slots (visit slot byte s) =
      setSlot (slots s) slot (change ((slots s).get slot) byte))
    (bytes : List UInt8) (s : σ) (slot : Fin n) :
    (slots (sweep visit 0 bytes s)).get slot =
      if byteAt bytes slot = 0 then (slots s).get slot
      else change ((slots s).get slot) (byteAt bytes slot) := by
  have localized : ∀ slot byte s (other : Fin n), byte ≠ 0 →
      (slots (visit slot byte s)).get other =
        if other = slot then change ((slots s).get other) byte else (slots s).get other := by
    intro slot byte s other _
    rw [writes, get_setSlot]
    by_cases same : other = slot
    · subst same
      rfl
    · rw [if_neg same, if_neg same]
  exact @sweep_slot n σ α visit (fun s other => (slots s).get other) change localized 0 slot slot
    (Nat.zero_add slot.val).symm bytes s

end

section

variable {n : Nat}

def touch (slots : Vector UInt8 n) (slot : Fin n) : Vector UInt8 n :=
  if slots.get slot < 255 then setSlot slots slot (slots.get slot + 1) else slots

def touchAll (slots : Vector UInt8 n) (hits : List (Fin n)) : Vector UInt8 n :=
  hits.foldl touch slots

variable (slots : Vector UInt8 n)

theorem toNat_get_touch (hit slot : Fin n) :
    ((touch slots hit).get slot).toNat =
      min 255 ((slots.get slot).toNat + if hit = slot then 1 else 0) := by
  have bound := (slots.get slot).toNat_lt
  by_cases same : slot = hit
  · subst same
    rw [touch, if_pos rfl]
    split
    · next room =>
        simp only [UInt8.lt_iff_toNat_lt, UInt8.reduceToNat] at room
        rw [get_setSlot, if_pos rfl, UInt8.toNat_add]
        simp only [UInt8.reduceToNat]
        omega
    · next full =>
        simp only [UInt8.lt_iff_toNat_lt, UInt8.reduceToNat] at full
        omega
  · have apart : hit ≠ slot := fun equal => same equal.symm
    have unchanged : (touch slots hit).get slot = slots.get slot := by
      rw [touch]
      split
      · rw [get_setSlot, if_neg same]
      · rfl
    rw [unchanged, if_neg apart]
    omega

theorem toNat_get_touchAll (hits : List (Fin n)) (slot : Fin n) :
    ((touchAll slots hits).get slot).toNat =
      min 255 ((slots.get slot).toNat + hits.count slot) := by
  induction hits generalizing slots with
  | nil =>
    have bound := (slots.get slot).toNat_lt
    simp only [touchAll, List.foldl_nil, List.count_nil]
    omega
  | cons hit hits ih =>
    rw [touchAll, List.foldl_cons, ← touchAll, ih, toNat_get_touch, List.count_cons]
    simp only [beq_iff_eq]
    omega

theorem touchAll_append (hits more : List (Fin n)) :
    touchAll slots (hits ++ more) = touchAll (touchAll slots hits) more :=
  List.foldl_append

theorem touchAll_perm {hits others : List (Fin n)} (same : hits.Perm others) :
    touchAll slots hits = touchAll slots others := by
  apply eq_of_get
  intro slot
  rw [← UInt8.toNat_inj, toNat_get_touchAll, toNat_get_touchAll, same.count_eq]

theorem touchAll_append_eq_iff (hits more : List (Fin n)) :
    touchAll slots hits = touchAll slots (hits ++ more) ↔
      ∀ slot ∈ more, 255 ≤ (slots.get slot).toNat + hits.count slot := by
  constructor
  · intro same slot hit
    have equal := congrArg (fun slots => (slots.get slot).toNat) same
    have positive := List.count_pos_iff.mpr hit
    simp only [toNat_get_touchAll, List.count_append] at equal
    omega
  · intro full
    apply eq_of_get
    intro slot
    rw [← UInt8.toNat_inj, toNat_get_touchAll, toNat_get_touchAll, List.count_append]
    by_cases hit : slot ∈ more
    · have enough := full slot hit
      omega
    · rw [List.count_eq_zero_of_not_mem hit, Nat.add_zero]

def raise (slots : Vector UInt8 n) (hit : Fin n × UInt8) : Vector UInt8 n :=
  if slots.get hit.1 < hit.2 then setSlot slots hit.1 hit.2 else slots

def raiseAll (slots : Vector UInt8 n) (hits : List (Fin n × UInt8)) : Vector UInt8 n :=
  hits.foldl raise slots

theorem toNat_get_raise (hit : Fin n × UInt8) (slot : Fin n) :
    ((raise slots hit).get slot).toNat =
      max (slots.get slot).toNat (if hit.1 = slot then hit.2.toNat else 0) := by
  rw [raise]
  split
  · next lower =>
      rw [UInt8.lt_iff_toNat_lt] at lower
      rw [get_setSlot]
      by_cases same : slot = hit.1
      · subst same
        rw [if_pos rfl, if_pos rfl]
        omega
      · rw [if_neg same, if_neg fun equal => same equal.symm, Nat.max_zero]
  · next high =>
      rw [UInt8.lt_iff_toNat_lt] at high
      by_cases same : hit.1 = slot
      · subst same
        rw [if_pos rfl]
        omega
      · rw [if_neg same, Nat.max_zero]

theorem raiseAll_le_iff (hits : List (Fin n × UInt8)) (slot : Fin n) (level : Nat) :
    ((raiseAll slots hits).get slot).toNat ≤ level ↔
      (slots.get slot).toNat ≤ level ∧ ∀ hit ∈ hits, hit.1 = slot → hit.2.toNat ≤ level := by
  induction hits generalizing slots with
  | nil => simp [raiseAll]
  | cons hit hits ih =>
    rw [raiseAll, List.foldl_cons, ← raiseAll, ih, toNat_get_raise, List.forall_mem_cons,
      Nat.max_le, and_assoc]
    apply and_congr_right'
    apply and_congr_left'
    by_cases same : hit.1 = slot
    · rw [if_pos same]
      exact ⟨fun low _ => low, fun low => low same⟩
    · rw [if_neg same]
      exact ⟨fun _ equal => absurd equal same, fun _ => Nat.zero_le _⟩

theorem raiseAll_congr {hits others : List (Fin n × UInt8)}
    (same : ∀ hit, hit ∈ hits ↔ hit ∈ others) : raiseAll slots hits = raiseAll slots others := by
  have levels : ∀ slot level, ((raiseAll slots hits).get slot).toNat ≤ level ↔
      ((raiseAll slots others).get slot).toNat ≤ level := by
    intro slot level
    simp only [raiseAll_le_iff, same]
  apply eq_of_get
  intro slot
  rw [← UInt8.toNat_inj]
  exact Nat.le_antisymm ((levels slot _).mpr (Nat.le_refl _)) ((levels slot _).mp (Nat.le_refl _))

theorem raiseAll_append (hits more : List (Fin n × UInt8)) :
    raiseAll slots (hits ++ more) = raiseAll (raiseAll slots hits) more :=
  List.foldl_append

end

section

variable {n : Nat} {slots others more : Vector UInt8 n}

def Below (slots others : Vector UInt8 n) : Prop :=
  ∀ slot, (slots.get slot).toNat ≤ (others.get slot).toNat

theorem Below.refl (slots : Vector UInt8 n) : Below slots slots :=
  fun _ => Nat.le_refl _

theorem Below.trans (first : Below slots others) (second : Below others more) : Below slots more :=
  fun slot => Nat.le_trans (first slot) (second slot)

theorem below_touchAll (slots : Vector UInt8 n) (hits : List (Fin n)) :
    Below slots (touchAll slots hits) := by
  intro slot
  have bound := (slots.get slot).toNat_lt
  rw [toNat_get_touchAll]
  omega

theorem below_raiseAll (slots : Vector UInt8 n) (hits : List (Fin n × UInt8)) :
    Below slots (raiseAll slots hits) := by
  induction hits generalizing slots with
  | nil => exact Below.refl slots
  | cons hit hits ih =>
    have first : Below slots (raise slots hit) := by
      intro slot
      rw [toNat_get_raise]
      exact Nat.le_max_left _ _
    exact first.trans (ih (raise slots hit))

end

section

variable {n : Nat} {slots : Vector UInt8 n}

def occupied (slots : Vector UInt8 n) : Nat :=
  slots.countP (· ≠ 0)

theorem occupied_le (slots : Vector UInt8 n) : occupied slots ≤ n :=
  Vector.countP_le_size

@[simp]
theorem occupied_replicate_zero (n : Nat) : occupied (Vector.replicate n 0) = 0 := by
  simp [occupied, Vector.countP_replicate]

theorem occupied_set_of_zero (slot : Fin n) {byte : UInt8} (free : slots.get slot = 0)
    (nonzero : byte ≠ 0) : occupied (setSlot slots slot byte) = occupied slots + 1 := by
  have free' : slots[slot.val] = 0 := free
  simp [occupied, setSlot, Vector.countP_set, free', nonzero]

theorem occupied_set_of_nonzero (slot : Fin n) {byte : UInt8} (taken : slots.get slot ≠ 0)
    (nonzero : byte ≠ 0) : occupied (setSlot slots slot byte) = occupied slots := by
  have taken' : slots[slot.val] ≠ 0 := taken
  have positive : 0 < occupied slots := by
    apply Vector.countP_pos_iff.mpr
    exact ⟨slots[slot.val], Vector.getElem_mem _, by simpa using taken'⟩
  unfold occupied at positive
  rw [occupied, setSlot, Vector.countP_set]
  simp only [taken', nonzero, ne_eq, not_false_eq_true, decide_true, if_true]
  exact Nat.sub_add_cancel positive

theorem occupied_eq_ncard (slots : Vector UInt8 n) :
    occupied slots = {slot | slots.get slot ≠ 0}.ncard := by
  have listed : slots.toList = (List.finRange n).map slots.get := by
    apply List.ext_getElem
    · simp
    · intro i _ _
      simp [Vector.get]
  have counted : occupied slots = slots.toList.countP (· ≠ 0) := by
    simp [occupied]
  rw [counted, listed, List.countP_map, List.countP_eq_length_filter, Set.ncard_eq_toFinset_card',
    ← List.toFinset_card_of_nodup ((List.nodup_finRange n).filter _)]
  congr 1
  ext slot
  simp

end

end OpenThesis.Slots
