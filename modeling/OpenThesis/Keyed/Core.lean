import Mathlib.Algebra.BigOperators.Group.List.Basic
import Mathlib.Algebra.GroupWithZero.Nat
import Mathlib.Data.List.Induction
import Mathlib.Data.Nat.Basic
import Mathlib.Tactic.Common

/-!
# Maps with ordered keys

Lookups, sums over all values, occurrences of keys, and the first item of the least rank for each
key.
-/

namespace OpenThesis.Keyed

open List

universe u v w

variable {κ : Type u} [Ord κ] [Std.TransOrd κ] [Std.LawfulEqOrd κ] [DecidableEq κ]
  {α : Type v} {β : Type w}

variable (m : Std.ExtTreeMap κ α)

omit [Std.TransOrd κ] [DecidableEq κ] in
theorem compare_eq_iff (key other : κ) : compare key other = .eq ↔ other = key :=
  Std.compare_eq_iff_eq.trans eq_comm

theorem lookup_insert (key other : κ) (value : α) :
    (m.insert key value)[other]? = if other = key then some value else m[other]? := by
  rw [Std.ExtTreeMap.getElem?_insert]
  simp only [compare_eq_iff]

theorem lookup_erase (key other : κ) :
    (m.erase key)[other]? = if other = key then none else m[other]? := by
  rw [Std.ExtTreeMap.getElem?_erase]
  simp only [compare_eq_iff]

omit [Std.LawfulEqOrd κ] [DecidableEq κ] in
theorem mem_iff_lookup {m : Std.ExtTreeMap κ α} {key : κ} :
    key ∈ m ↔ ∃ value, m[key]? = some value := by
  rw [Std.ExtTreeMap.mem_iff_isSome_getElem?, Option.isSome_iff_exists]

omit [Std.LawfulEqOrd κ] [DecidableEq κ] in
theorem not_mem_iff_lookup {m : Std.ExtTreeMap κ α} {key : κ} : key ∉ m ↔ m[key]? = none := by
  rw [mem_iff_lookup]
  cases m[key]? <;> simp

theorem erase_of_lookup_eq_none {m : Std.ExtTreeMap κ α} {key : κ} (absent : m[key]? = none) :
    m.erase key = m := by
  apply Std.ExtTreeMap.ext_getElem?
  intro other
  rw [lookup_erase]
  split
  · next equal => rw [equal, absent]
  · rfl

theorem insert_of_lookup {m : Std.ExtTreeMap κ α} {key : κ} {value : α}
    (found : m[key]? = some value) : m.insert key value = m := by
  apply Std.ExtTreeMap.ext_getElem?
  intro other
  rw [lookup_insert]
  split
  · next equal => rw [equal, found]
  · rfl

section

variable {key : α → κ} {m : Std.ExtTreeMap κ α} (own : ∀ k v, m[k]? = some v → key v = k)
include own

omit [DecidableEq κ] in
theorem mem_values_iff {v : α} : v ∈ m.toList.map Prod.snd ↔ m[key v]? = some v := by
  simp only [mem_map, Prod.exists, exists_eq_right, Std.ExtTreeMap.mem_toList_iff_getElem?_eq_some]
  constructor
  · rintro ⟨k, found⟩
    rw [own k v found]
    exact found
  · exact fun found => ⟨_, found⟩

omit [DecidableEq κ] in
theorem pairwise_values :
    (m.toList.map Prod.snd).Pairwise fun a b => compare (key a) (key b) = .lt := by
  refine pairwise_map.mpr (m.ordered_keys_toList.imp_of_mem ?_)
  intro a b ha hb less
  rw [Std.ExtTreeMap.mem_toList_iff_getElem?_eq_some] at ha hb
  rw [own _ _ ha, own _ _ hb]
  exact less

end

section

variable {M : Type w} [AddCommMonoid M] (f : α → M)

def total (m : Std.ExtTreeMap κ α) : M :=
  (m.toList.map fun entry => f entry.2).sum

variable (m : Std.ExtTreeMap κ α)

omit [DecidableEq κ] in
theorem nodup_toList : m.toList.Nodup := by
  refine m.distinct_keys_toList.imp fun differs same => differs ?_
  rw [same]
  exact Std.ReflCmp.compare_self

theorem toList_insert_perm (key : κ) (value : α) :
    (m.insert key value).toList.Perm ((key, value) :: (m.erase key).toList) := by
  have fresh : (key, value) ∉ (m.erase key).toList := by
    rw [Std.ExtTreeMap.mem_toList_iff_getElem?_eq_some, lookup_erase]
    simp
  rw [perm_ext_iff_of_nodup (nodup_toList _) (nodup_cons.mpr ⟨fresh, nodup_toList _⟩)]
  rintro ⟨other, found⟩
  rw [mem_cons, Std.ExtTreeMap.mem_toList_iff_getElem?_eq_some,
    Std.ExtTreeMap.mem_toList_iff_getElem?_eq_some, lookup_insert, lookup_erase]
  by_cases same : other = key
  · simp [same, eq_comm]
  · simp [same]

theorem toList_insert_perm_of_lookup_eq_none {m : Std.ExtTreeMap κ α} {key : κ}
    (absent : m[key]? = none) (value : α) :
    (m.insert key value).toList.Perm ((key, value) :: m.toList) := by
  simpa [erase_of_lookup_eq_none absent] using toList_insert_perm m key value

theorem toList_perm_of_lookup {m : Std.ExtTreeMap κ α} {key : κ} {value : α}
    (found : m[key]? = some value) : m.toList.Perm ((key, value) :: (m.erase key).toList) := by
  simpa [insert_of_lookup found] using toList_insert_perm m key value

theorem total_insert (key : κ) (value : α) :
    total f (m.insert key value) = f value + total f (m.erase key) := by
  unfold total
  rw [((toList_insert_perm m key value).map _).sum_eq, map_cons, sum_cons]

theorem total_insert_add {m : Std.ExtTreeMap κ α} {key : κ} {value : α} {amount : M}
    (added : f value = ((m[key]?).map f).getD 0 + amount) :
    total f (m.insert key value) = total f m + amount := by
  rw [total_insert, added]
  cases found : m[key]? with
  | none =>
    rw [erase_of_lookup_eq_none found, Option.map_none, Option.getD_none, zero_add, add_comm]
  | some old =>
    rw [Option.map_some, Option.getD_some, add_right_comm, ← total_insert, insert_of_lookup found]

end

def countOf (m : Std.ExtTreeMap κ Nat) (key : κ) : Nat :=
  (m[key]?).getD 0

def bump (m : Std.ExtTreeMap κ Nat) (key : κ) : Std.ExtTreeMap κ Nat :=
  m.insert key (countOf m key + 1)

theorem countOf_bump (m : Std.ExtTreeMap κ Nat) (key other : κ) :
    countOf (bump m key) other = countOf m other + if other = key then 1 else 0 := by
  rw [countOf, bump, lookup_insert]
  by_cases equal : other = key
  · rw [if_pos equal, if_pos equal, equal]
    rfl
  · rw [if_neg equal, if_neg equal]
    rfl

theorem countOf_foldl_bump (keys : List κ) (m : Std.ExtTreeMap κ Nat) (key : κ) :
    countOf (keys.foldl bump m) key = countOf m key + keys.count key := by
  induction keys generalizing m with
  | nil => rfl
  | cons first keys ih =>
    rw [foldl_cons, ih, countOf_bump, count_cons]
    by_cases equal : key = first
    · simp only [equal, if_true, beq_self_eq_true]
      omega
    · have differs : ¬ first = key := Ne.symm equal
      simp only [equal, if_false, beq_iff_eq, differs]
      omega

section

variable (key : α → κ) (step : Option β → α → β)

def accumulate (m : Std.ExtTreeMap κ β) (items : List α) : Std.ExtTreeMap κ β :=
  items.foldl (fun m item => m.insert (key item) (step m[key item]? item)) m

variable {key step}

theorem lookup_accumulate (m : Std.ExtTreeMap κ β) (items : List α) (k : κ) :
    (accumulate key step m items)[k]? =
      (items.filter (key · = k)).foldl (fun old item => some (step old item)) m[k]? := by
  induction items generalizing m with
  | nil => rfl
  | cons item items ih =>
    rw [accumulate, foldl_cons, ← accumulate, ih, lookup_insert]
    by_cases mine : key item = k
    · subst mine
      simp
    · have others : ¬ k = key item := Ne.symm mine
      simp [mine, others]

def collect (key : α → κ) (items : List α) : Std.ExtTreeMap κ (List α) :=
  accumulate key (fun group item => group.getD [] ++ [item]) ∅ items

theorem lookup_collect (key : α → κ) (items : List α) (k : κ) :
    (collect key items)[k]? =
      if items.filter (key · = k) = [] then none else some (items.filter (key · = k)) := by
  rw [collect, lookup_accumulate]
  induction items.filter (key · = k) using reverseRecOn with
  | nil => rfl
  | append_singleton group item ih =>
    rw [foldl_concat, ih]
    split
    case isTrue empty => simp [empty]
    case isFalse => simp

theorem exists_collect_iff (key : α → κ) (items : List α) (item : α) :
    (∃ entry ∈ (collect key items).toList, item ∈ entry.2) ↔ item ∈ items := by
  constructor
  · rintro ⟨⟨k, group⟩, found, mem⟩
    rw [Std.ExtTreeMap.mem_toList_iff_getElem?_eq_some, lookup_collect] at found
    split at found
    · cases found
    · cases found
      exact mem_of_mem_filter mem
  · intro mem
    have inside : item ∈ items.filter (key · = key item) :=
      mem_filter.mpr ⟨mem, decide_eq_true rfl⟩
    refine ⟨(key item, items.filter (key · = key item)), ?_, inside⟩
    rw [Std.ExtTreeMap.mem_toList_iff_getElem?_eq_some, lookup_collect,
      if_neg (ne_nil_of_mem inside)]

end

section

variable (key : α → κ) (rank : α → Nat)

def keepLeast (best : Std.ExtTreeMap κ α) (item : α) : Std.ExtTreeMap κ α :=
  if (best[key item]?).all fun existing => rank item < rank existing then
    best.insert (key item) item
  else best

def selectLeast (items : List α) : Std.ExtTreeMap κ α :=
  items.foldl (keepLeast key rank) ∅

/-- An item of least rank with the key, before all others of that rank. -/
def FirstLeast (items : List α) (k : κ) (item : α) : Prop :=
  key item = k ∧ ∃ earlier later, items = earlier ++ item :: later ∧
    (∀ other ∈ earlier, key other = k → rank item < rank other) ∧
    ∀ other ∈ later, key other = k → rank item ≤ rank other

variable {key rank}

omit [Std.LawfulEqOrd κ] [DecidableEq κ] in
theorem selectLeast_concat (items : List α) (item : α) : selectLeast key rank (items ++ [item]) =
      keepLeast key rank (selectLeast key rank items) item := by
  rw [selectLeast, foldl_append, foldl_cons, foldl_nil]
  rfl

theorem lookup_keepLeast (best : Std.ExtTreeMap κ α) (item : α) (k : κ) :
    (keepLeast key rank best item)[k]? =
      if key item = k ∧ ((best[k]?).all fun existing => rank item < rank existing) = true
      then some item else best[k]? := by
  by_cases mine : key item = k
  · subst mine
    simp only [keepLeast, true_and]
    split
    · rw [lookup_insert, if_pos rfl]
    · rfl
  · have others : ¬ k = key item := Ne.symm mine
    simp only [keepLeast, mine, false_and, if_false]
    split
    · rw [lookup_insert, if_neg others]
    · rfl

theorem lookup_selectLeast_eq_none_iff (items : List α) (k : κ) :
    (selectLeast key rank items)[k]? = none ↔ ∀ item ∈ items, key item ≠ k := by
  induction items using reverseRecOn with
  | nil => simp [selectLeast]
  | append_singleton items item ih =>
    rw [selectLeast_concat, lookup_keepLeast, forall_mem_append, forall_mem_singleton, ← ih]
    split
    · rename_i kept
      exact iff_of_false (Option.some_ne_none item) fun both => both.2 kept.1
    · rename_i refused
      refine (and_iff_left_of_imp fun nothing mine => refused ⟨mine, ?_⟩).symm
      rw [nothing]
      rfl

variable {items : List α}

omit [Ord κ] [Std.TransOrd κ] [Std.LawfulEqOrd κ] [DecidableEq κ] in
theorem FirstLeast.mem {k : κ} {item : α} (least : FirstLeast key rank items k item) :
    item ∈ items := by
  rcases least with ⟨-, earlier, later, rfl, -, -⟩
  exact mem_append_right _ mem_cons_self

omit [Ord κ] [Std.TransOrd κ] [Std.LawfulEqOrd κ] [DecidableEq κ] in
theorem FirstLeast.rank_le {k : κ} {item : α} (least : FirstLeast key rank items k item)
    {other : α} (member : other ∈ items) (mine : key other = k) : rank item ≤ rank other := by
  rcases least with ⟨-, earlier, later, rfl, below, notAbove⟩
  rcases mem_append.mp member with before | after
  · exact Nat.le_of_lt (below other before mine)
  · rcases mem_cons.mp after with rfl | after
    · exact le_rfl
    · exact notAbove other after mine

theorem firstLeast_of_lookup {k : κ} {item : α}
    (selected : (selectLeast key rank items)[k]? = some item) :
    FirstLeast key rank items k item := by
  induction items using reverseRecOn generalizing item with
  | nil => simp [selectLeast] at selected
  | append_singleton items last ih =>
    rw [selectLeast_concat, lookup_keepLeast] at selected
    split at selected
    · rename_i kept
      cases selected
      refine ⟨kept.1, items, [], rfl, ?_, by simp⟩
      intro other member mine
      cases there : (selectLeast key rank items)[k]? with
      | none => exact absurd mine ((lookup_selectLeast_eq_none_iff items k).mp there other member)
      | some existing =>
        have lower := kept.2
        rw [there] at lower
        exact lt_of_lt_of_le (of_decide_eq_true lower) ((ih there).rank_le member mine)
    · rename_i refused
      rcases ih selected with ⟨mine, earlier, later, rfl, below, notAbove⟩
      refine ⟨mine, earlier, later ++ [last], by simp, below, ?_⟩
      intro other member otherMine
      rcases mem_append.mp member with before | isLast
      · exact notAbove other before otherMine
      · obtain rfl := mem_singleton.mp isLast
        by_contra lower
        refine refused ⟨otherMine, ?_⟩
        rw [selected]
        exact decide_eq_true (Nat.lt_of_not_le lower)

theorem lookup_selectLeast_map {key' : β → κ} {rank' : β → Nat} (f : α → β)
    (sameKey : ∀ item, key' (f item) = key item) (sameRank : ∀ item, rank' (f item) = rank item)
    (items : List α) (k : κ) :
    (selectLeast key' rank' (items.map f))[k]? = ((selectLeast key rank items)[k]?).map f := by
  induction items using reverseRecOn with
  | nil => simp [selectLeast]
  | append_singleton items item ih =>
    rw [map_append, map_singleton, selectLeast_concat, selectLeast_concat,
      lookup_keepLeast, lookup_keepLeast, ih, sameKey, sameRank]
    cases there : (selectLeast key rank items)[k]? with
    | none =>
      simp only [Option.map_none, Option.all_none]
      split
      · rfl
      · rfl
    | some existing =>
      simp only [Option.map_some, Option.all_some, sameRank]
      split
      · rfl
      · rfl

end

end OpenThesis.Keyed
