import Mathlib.Data.Nat.Basic
import Mathlib.Data.Prod.Lex
import Mathlib.Data.String.Basic
import OpenThesis.Report.Stats

/-!
# Triage

Of the violations with the same property and message the report keeps the one with the lowest step
(`internal/report/triage.go`).
-/

namespace OpenThesis.Report

open Explorer Keyed SnapshotTree List

def violationKey (property message : String) : String :=
  property ++ "\x00" ++ message

def keyOf (v : Violation) : String :=
  violationKey v.property v.message

def deduplicate (violations : List Violation) : Std.ExtTreeMap String Violation :=
  selectLeast keyOf Violation.step violations

def manifestVersion : Nat := 2

structure Artifact where
  version : Nat := manifestVersion
  property : String
  message : String
  snapshotID : ID
  hypervisorID : ID
  seed : UInt64
  step : Nat
  burstInsns : UInt64
  concurrentCmds : Nat
  pathIDs : List ID := []
  pathBranchIndices : List Int := []
  deriving DecidableEq, Repr

structure ViolationEntry where
  property : String
  message : String
  snapshotID : ID
  seed : UInt64
  step : Nat
  artifact : Option Artifact
  pathIDs : List ID
  pathDepth : Nat
  activeFaults : List String
  deriving DecidableEq, Repr

/-- A violation as the report shows it. -/
def violationEntry (v : Violation) : ViolationEntry where
  property := v.property
  message := v.message
  snapshotID := v.snapshotID
  seed := v.seed
  step := v.step
  artifact := some
    { property := v.property, message := v.message, snapshotID := v.snapshotID,
      hypervisorID := v.hypervisorID, seed := v.seed, step := v.step,
      burstInsns := v.burstInsns, concurrentCmds := v.concurrentCmds }
  pathIDs := v.path
  pathDepth := v.path.length
  activeFaults := faultKindMaskToNames v.faultKindMask

def entryLE (a b : ViolationEntry) : Bool :=
  a.step < b.step || a.step == b.step && a.property ≤ b.property

/-- By step and property; ties, which Go leaves in any order, in the order of their keys. -/
def triage (violations : List Violation) : List ViolationEntry :=
  ((deduplicate violations).toList.map fun (_, v) => violationEntry v).mergeSort entryLE

/-- What is known of a sort that need not be stable: the result is sorted, and a sorted list is
left as it is. -/
structure SortFunc {α : Type*} (le : α → α → Bool) where
  sort : List α → List α
  perm : ∀ items, (sort items).Perm items
  sorted : ∀ items, (sort items).Pairwise (le · ·)
  eq_self : ∀ items, items.Pairwise (le · ·) → sort items = items

def triageIn (s : SortFunc entryLE) (kept : List Violation) : List ViolationEntry :=
  s.sort (kept.map violationEntry)

def keptViolations (violations : List Violation) : List Violation :=
  (deduplicate violations).toList.map Prod.snd

theorem entryLE_iff {a b : ViolationEntry} :
    entryLE a b = true ↔ toLex (a.step, a.property) ≤ toLex (b.step, b.property) := by
  simp [entryLE, Prod.Lex.toLex_le_toLex]

theorem entryLE_trans (a b c : ViolationEntry) : entryLE a b → entryLE b c → entryLE a c := by
  simpa only [entryLE_iff] using le_trans

theorem entryLE_total (a b : ViolationEntry) : entryLE a b || entryLE b a := by
  simpa only [Bool.or_eq_true, entryLE_iff] using le_total _ _

def mergeSortFunc : SortFunc entryLE where
  sort items := items.mergeSort entryLE
  perm items := mergeSort_perm items _
  sorted items := pairwise_mergeSort entryLE_trans entryLE_total items
  eq_self _ sorted := mergeSort_of_pairwise sorted

def pairOf (v : Violation) : String × String :=
  (v.property, v.message)

/-- The entries do not depend on the order of the map, are sorted, and one for each property and
message, of the first violation with the least step. -/
structure Determined (s : SortFunc entryLE) (violations : List Violation)
    (entries : List ViolationEntry) : Prop where
  same : ∀ kept, kept.Perm (keptViolations violations) → triageIn s kept = entries
  sorted : entries.Pairwise fun a b => toLex (a.step, a.property) ≤ toLex (b.step, b.property)
  once : (entries.map fun e => (e.property, e.message)).Nodup
  known : ∀ e ∈ entries, ∃ v ∈ violations, violationEntry v = e
  least : ∀ v ∈ violations, ∃ w, FirstLeast pairOf Violation.step violations (pairOf v) w ∧
    violationEntry w ∈ entries

/-- The keys separate the pairs, and no two kept violations differ in their message only. -/
structure Separated (violations : List Violation) : Prop where
  pairs : ∀ v ∈ violations, ∀ w ∈ violations, keyOf v = keyOf w → pairOf v = pairOf w
  messages : ∀ v ∈ keptViolations violations, ∀ w ∈ keptViolations violations,
    v.property = w.property → v.step = w.step → v.message = w.message

variable {violations : List Violation}

variable {v w : Violation}

theorem mem_keptViolations_iff :
    v ∈ keptViolations violations ↔ (deduplicate violations)[keyOf v]? = some v :=
  mem_values_iff fun _ _ found => (firstLeast_of_lookup found).1

theorem eq_of_keyOf_eq (hv : v ∈ keptViolations violations) (hw : w ∈ keptViolations violations)
    (same : keyOf v = keyOf w) : v = w := by
  rw [mem_keptViolations_iff] at hv hw
  exact Option.some.inj (hv.symm.trans (same ▸ hw))

theorem nodup_keptViolations (violations : List Violation) :
    ((keptViolations violations).map keyOf).Nodup := by
  have sorted : (keptViolations violations).Pairwise _ :=
    pairwise_values fun _ _ found => (firstLeast_of_lookup found).1
  exact pairwise_map.mpr (sorted.imp fun less same => (compare_lt_iff_lt.mp less).ne same)

theorem mem_triageIn_iff {s : SortFunc entryLE} {kept : List Violation} {e : ViolationEntry} :
    e ∈ triageIn s kept ↔ ∃ v ∈ kept, violationEntry v = e := by
  rw [triageIn, (s.perm _).mem_iff, mem_map]

theorem Separated.firstLeast (separated : Separated violations) (member : v ∈ violations)
    (least : FirstLeast keyOf Violation.step violations (keyOf v) w) :
    FirstLeast pairOf Violation.step violations (pairOf v) w := by
  have key_of_pair (other : Violation) (same : pairOf other = pairOf v) :
      keyOf other = keyOf v := by
    simp only [pairOf, Prod.mk.injEq] at same
    rw [keyOf, keyOf, same.1, same.2]
  obtain ⟨mine, earlier, later, whole, before, after⟩ := least
  have inside : w ∈ violations := whole ▸ mem_append_right _ mem_cons_self
  exact ⟨separated.pairs w inside v member mine, earlier, later, whole,
    fun other mem same => before other mem (key_of_pair other same),
    fun other mem same => after other mem (key_of_pair other same)⟩

theorem Separated.determined (separated : Separated violations) (s : SortFunc entryLE) :
    Determined s violations (triageIn s (keptViolations violations)) where
  same := by
    intro kept order
    refine Perm.eq_of_pairwise ?_ (s.sorted _) (s.sorted _)
      ((s.perm _).trans ((order.map _).trans (s.perm _).symm))
    intro a b ha hb ab ba
    obtain ⟨v, hv, rfl⟩ := mem_triageIn_iff.mp ha
    obtain ⟨w, hw, rfl⟩ := mem_triageIn_iff.mp hb
    replace hv := order.mem_iff.mp hv
    have equal := congrArg ofLex (le_antisymm (entryLE_iff.mp ab) (entryLE_iff.mp ba))
    obtain ⟨step, property⟩ := Prod.mk.inj equal
    have message := separated.messages v hv w hw property step
    have sameKey : keyOf v = keyOf w := by
      rw [keyOf, keyOf, message]
      exact congrArg (violationKey · _) property
    rw [eq_of_keyOf_eq hv hw sameKey]
  sorted := (s.sorted _).imp entryLE_iff.mp
  once := by
    refine ((s.perm _).map _).nodup_iff.mpr ?_
    rw [map_map]
    have keys := nodup_keptViolations violations
    rw [show keyOf = (fun pair => violationKey pair.1 pair.2) ∘ pairOf from rfl, ← map_map] at keys
    exact Nodup.of_map _ keys
  known := by
    intro e mem
    obtain ⟨v, kept, rfl⟩ := mem_triageIn_iff.mp mem
    exact ⟨v, (firstLeast_of_lookup (mem_keptViolations_iff.mp kept)).mem, rfl⟩
  least := by
    intro v member
    cases found : (deduplicate violations)[keyOf v]? with
    | none => exact absurd rfl ((lookup_selectLeast_eq_none_iff violations _).mp found v member)
    | some w =>
      have least := firstLeast_of_lookup found
      refine ⟨w, separated.firstLeast member least, mem_triageIn_iff.mpr ⟨w, ?_, rfl⟩⟩
      rw [mem_keptViolations_iff, least.1]
      exact found

theorem Determined.pairs {s : SortFunc entryLE} {entries : List ViolationEntry}
    (determined : Determined s violations entries) (hv : v ∈ violations) (hw : w ∈ violations)
    (same : keyOf v = keyOf w) : pairOf v = pairOf w := by
  have kept (v : Violation) (hv : v ∈ violations) :
      ∃ a ∈ keptViolations violations, pairOf a = pairOf v := by
    obtain ⟨a, least, mem⟩ := determined.least v hv
    rw [← determined.same _ (Perm.refl _), mem_triageIn_iff] at mem
    obtain ⟨b, kept, equal⟩ := mem
    simp only [violationEntry, ViolationEntry.mk.injEq] at equal
    exact ⟨b, kept, least.1 ▸ Prod.ext equal.1 equal.2.1⟩
  obtain ⟨a, ha, pair_a⟩ := kept v hv
  obtain ⟨b, hb, pair_b⟩ := kept w hw
  have key (x y : Violation) (pair : pairOf x = pairOf y) : keyOf x = keyOf y :=
    congrArg (fun pair : String × String => violationKey pair.1 pair.2) pair
  have equal := eq_of_keyOf_eq ha hb ((key a v pair_a).trans (same.trans (key b w pair_b).symm))
  rw [← pair_a, ← pair_b, equal]

theorem exists_swapped (s : SortFunc entryLE) (hv : v ∈ keptViolations violations)
    (hw : w ∈ keptViolations violations) (property : v.property = w.property)
    (step : v.step = w.step) :
    ∃ kept swapped : List Violation, kept.Perm (keptViolations violations) ∧
      swapped.Perm (keptViolations violations) ∧
      (triageIn s kept = triageIn s swapped → violationEntry w = violationEntry v) := by
  let kept := (keptViolations violations).mergeSort
    fun a b => entryLE (violationEntry a) (violationEntry b)
  have order : kept.Perm (keptViolations violations) := mergeSort_perm _ _
  have sorted : kept.Pairwise fun a b => entryLE (violationEntry a) (violationEntry b) :=
    pairwise_mergeSort
      (fun a b c => entryLE_trans (violationEntry a) (violationEntry b) (violationEntry c))
      (fun a b => entryLE_total (violationEntry a) (violationEntry b)) _
  have place (a : Violation) : (Equiv.swap v w a).step = a.step ∧
      (Equiv.swap v w a).property = a.property := by
    rw [Equiv.swap_apply_def]
    split_ifs with isV isW
    · exact isV ▸ ⟨step.symm, property.symm⟩
    · exact isW ▸ ⟨step, property⟩
    · exact ⟨rfl, rfl⟩
  have fixed (kept : List Violation)
      (sorted : kept.Pairwise fun a b => entryLE (violationEntry a) (violationEntry b)) :
      triageIn s kept = kept.map violationEntry :=
    s.eq_self _ (pairwise_map.mpr sorted)
  refine ⟨kept, kept.map (Equiv.swap v w), order, ?_, ?_⟩
  · have nodup := Nodup.of_map _ (nodup_keptViolations violations)
    refine (perm_ext_iff_of_nodup ((order.nodup_iff.mpr nodup).map (Equiv.injective _))
      nodup).mpr ?_
    intro a
    rw [mem_map_of_involutive (fun b => by simp), order.mem_iff, Equiv.swap_apply_def]
    split_ifs with isV isW
    · simp [isV, hv, hw]
    · simp [isW, hv, hw]
    · rfl
  · rw [fixed kept sorted, fixed _ (pairwise_map.mpr (sorted.imp ?_)), map_map]
    · intro same
      simpa using (map_inj_left.mp same v (order.mem_iff.mpr hv)).symm
    · intro a b le
      rw [entryLE_iff] at le ⊢
      simpa only [violationEntry, place] using le

/-- Triage is a function of the violations, with one entry for each pair, if and only if the
condition holds. -/
theorem triage_determined_iff (s : SortFunc entryLE) (violations : List Violation) :
    (∃ entries, Determined s violations entries) ↔ Separated violations := by
  constructor
  · rintro ⟨entries, determined⟩
    refine ⟨fun v hv w hw => determined.pairs hv hw, ?_⟩
    intro v hv w hw property step
    obtain ⟨kept, swapped, order, order', same⟩ := exists_swapped s hv hw property step
    have equal := same ((determined.same kept order).trans (determined.same swapped order').symm)
    exact (congrArg ViolationEntry.message equal).symm
  · exact fun separated => ⟨_, separated.determined s⟩

/-- Two messages of one property at the same step. -/
theorem triage_depends_on_order :
    let v : Violation := { property := "always", message := "a" }
    let w : Violation := { property := "always", message := "b" }
    ∃ kept swapped : List Violation, kept.Perm (keptViolations [v, w]) ∧
      swapped.Perm (keptViolations [v, w]) ∧
      triageIn mergeSortFunc kept ≠ triageIn mergeSortFunc swapped := by
  intro v w
  have hv : v ∈ keptViolations [v, w] := by
    rw [mem_keptViolations_iff]
    simp [deduplicate, selectLeast, keepLeast, keyOf, violationKey, Std.ExtTreeMap.getElem_insert,
      v, w]
  have hw : w ∈ keptViolations [v, w] := by
    rw [mem_keptViolations_iff]
    simp [deduplicate, selectLeast, keepLeast, keyOf, violationKey, v, w]
  obtain ⟨kept, swapped, order, order', same⟩ := exists_swapped mergeSortFunc hv hw rfl rfl
  refine ⟨kept, swapped, order, order', fun equal => ?_⟩
  simpa [violationEntry, v, w] using same equal

end OpenThesis.Report
