import Mathlib.Order.Bounds.Basic
import OpenThesis.Api.Results

/-!
# The findings of a project

The findings of all tests (`handleListAllFindings` in `internal/api/findings.go`), merged before
they are filtered by status. Failures of the store are left out.
-/

namespace OpenThesis.Api

open List

structure SeenFinding extends Finding where
  lastSeenAt : Nat
  examples : List String

namespace SeenFinding

def key (f : SeenFinding) : String × String :=
  (f.property, f.message)

def merge (existing f : SeenFinding) : SeenFinding :=
  { existing with
    occurrences := existing.occurrences + f.occurrences
    lastSeenAt := max existing.lastSeenAt f.lastSeenAt
    firstSeenAt := min existing.firstSeenAt f.firstSeenAt
    examples := existing.examples ++ [f.runID] }

end SeenFinding

open SeenFinding

def addFinding (out : List SeenFinding) (f : SeenFinding) : List SeenFinding :=
  if ∃ existing ∈ out, existing.key = f.key then
    out.map fun existing => if existing.key = f.key then existing.merge f else existing
  else out ++ [f]

def deduplicateFindings (findings : List SeenFinding) : List SeenFinding :=
  findings.foldl addFinding []

/-- The list for the findings of each test. No filter is given by an empty text. -/
def handleListAllFindings (tests : List (List SeenFinding)) (status : Option (List FindingStatus)) :
    List SeenFinding :=
  (deduplicateFindings tests.flatten).filter fun f => status.all (f.status ∈ ·)

def group (findings : List SeenFinding) (k : String × String) : List SeenFinding :=
  findings.filter (·.key = k)

structure SumsUp (members : List SeenFinding) (e : SeenFinding) : Prop where
  occurrences : e.occurrences = (members.map (·.occurrences)).sum
  first : IsLeast {t | t ∈ members.map (·.firstSeenAt)} e.firstSeenAt
  last : IsGreatest {t | t ∈ members.map (·.lastSeenAt)} e.lastSeenAt

theorem SumsUp.merge {members : List SeenFinding} {e : SeenFinding} (sums : SumsUp members e)
    (f : SeenFinding) : SumsUp (members ++ [f]) (e.merge f) := by
  have one (time : SeenFinding → Nat) : {t | t ∈ (members ++ [f]).map time} =
      insert (time f) {t | t ∈ members.map time} := by
    ext t
    simp [or_comm]
  refine ⟨by simp [SeenFinding.merge, sums.occurrences], ?_, ?_⟩
  · rw [one, SeenFinding.merge, min_comm]
    exact sums.first.insert _
  · rw [one, SeenFinding.merge, max_comm]
    exact sums.last.insert _

theorem mem_group {findings : List SeenFinding} {k : String × String} {f : SeenFinding} :
    f ∈ group findings k ↔ f ∈ findings ∧ f.key = k := by
  rw [group, mem_filter, decide_eq_true_iff]

theorem group_addFinding (out : List SeenFinding) (f : SeenFinding) (k : String × String) :
    group (addFinding out f) k =
      if f.key = k then if group out k = [] then [f] else (group out k).map (·.merge f)
      else group out k := by
  by_cases known : ∃ existing ∈ out, existing.key = f.key
  · have kept (e : SeenFinding) : (if e.key = f.key then e.merge f else e).key = e.key := by
      split <;> rfl
    have merged : group (addFinding out f) k =
        (group out k).map fun e => if e.key = f.key then e.merge f else e := by
      rw [addFinding, if_pos known, group, filter_map, group]
      simp only [Function.comp_def, kept]
    rw [merged]
    split_ifs with mine empty
    · obtain ⟨existing, inside, same⟩ := known
      exact absurd (mem_group.mpr ⟨inside, same.trans mine⟩) (empty ▸ not_mem_nil)
    · exact map_congr_left fun e inside =>
        if_pos ((mem_group.mp inside).2.trans mine.symm)
    · refine (map_congr_left fun e inside => if_neg ?_).trans (map_id _)
      exact fun same => mine (same.symm.trans (mem_group.mp inside).2)
  · rw [addFinding, if_neg known, group, filter_append, ← group]
    split_ifs with mine empty
    · simp [empty, mine]
    · obtain ⟨e, inside⟩ := exists_mem_of_ne_nil _ empty
      obtain ⟨inside, same⟩ := mem_group.mp inside
      exact absurd ⟨e, inside, same.trans mine.symm⟩ known
    · simp [mine]

theorem group_deduplicateFindings (findings : List SeenFinding) (k : String × String) :
    group findings k = [] ∧ group (deduplicateFindings findings) k = [] ∨
      ∃ f e, (group findings k).head? = some f ∧ group (deduplicateFindings findings) k = [e] ∧
        e.status = f.status ∧ SumsUp (group findings k) e := by
  induction findings using reverseRecOn with
  | nil => exact .inl ⟨rfl, rfl⟩
  | append_singleton findings f ih =>
    rw [deduplicateFindings, foldl_concat, ← deduplicateFindings, group_addFinding]
    by_cases mine : f.key = k
    · have last : group (findings ++ [f]) k = group findings k ++ [f] := by simp [group, mine]
      rw [if_pos mine, last]
      rcases ih with ⟨none, empty⟩ | ⟨first, e, isFirst, entry, status, sums⟩
      · rw [if_pos empty, none]
        exact .inr ⟨f, f, rfl, rfl, rfl, by simp, by simp, by simp⟩
      · rw [if_neg (by simp [entry]), entry]
        refine .inr ⟨first, e.merge f, ?_, rfl, status, sums.merge f⟩
        rw [head?_append, isFirst]
        rfl
    · have same : group (findings ++ [f]) k = group findings k := by simp [group, mine]
      rwa [if_neg mine, same]

/-- Each group of findings is merged, and listed if one of them has a status of the filter. -/
structure ListsAll (tests : List (List SeenFinding)) (statuses : List FindingStatus) : Prop where
  merged : ∀ f ∈ tests.flatten, ∃ e, group (deduplicateFindings tests.flatten) f.key = [e] ∧
    SumsUp (group tests.flatten f.key) e
  listed : ∀ k, (∃ e ∈ handleListAllFindings tests (some statuses), e.key = k) ↔
    ∃ f ∈ tests.flatten, f.key = k ∧ f.status ∈ statuses

theorem listed_iff (tests : List (List SeenFinding)) (statuses : List FindingStatus)
    (k : String × String) : (∃ e ∈ handleListAllFindings tests (some statuses), e.key = k) ↔
      ∃ first, (group tests.flatten k).head? = some first ∧ first.status ∈ statuses := by
  have entries (e : SeenFinding) :
      e ∈ handleListAllFindings tests (some statuses) ∧ e.key = k ↔
        e ∈ group (deduplicateFindings tests.flatten) k ∧ e.status ∈ statuses := by
    rw [handleListAllFindings, mem_filter, mem_group]
    simp [and_right_comm]
  simp only [entries]
  rcases group_deduplicateFindings tests.flatten k with
    ⟨none, empty⟩ | ⟨first, e, isFirst, entry, status, -⟩
  · simp [none, empty]
  · simp [isFirst, entry, status]

/-- The list hides nothing if and only if the first finding of every group with a status of the
filter has one. -/
theorem lists_all_iff (tests : List (List SeenFinding)) (statuses : List FindingStatus) :
    ListsAll tests statuses ↔ ∀ f ∈ tests.flatten, f.status ∈ statuses →
      ∃ first, (group tests.flatten f.key).head? = some first ∧ first.status ∈ statuses := by
  constructor
  · intro all f inside wanted
    exact (listed_iff tests statuses f.key).mp ((all.listed f.key).mpr ⟨f, inside, rfl, wanted⟩)
  · intro firsts
    refine ⟨fun f inside => ?_, fun k => (listed_iff tests statuses k).trans ⟨?_, ?_⟩⟩
    · rcases group_deduplicateFindings tests.flatten f.key with
        ⟨none, -⟩ | ⟨-, e, -, entry, -, sums⟩
      · exact absurd (mem_group.mpr ⟨inside, rfl⟩) (none ▸ not_mem_nil)
      · exact ⟨e, entry, sums⟩
    · rintro ⟨first, isFirst, wanted⟩
      obtain ⟨inside, same⟩ := mem_group.mp (mem_of_head? isFirst)
      exact ⟨first, inside, same, wanted⟩
    · rintro ⟨f, inside, rfl, wanted⟩
      exact firsts f inside wanted

/-- The finding of the first test is resolved, and that of the second one new. -/
theorem new_finding_hidden :
    let resolved : SeenFinding :=
      ⟨⟨"a", "r", "f", .resolved, .always, "p", "m", "", 1, 1⟩, 1, []⟩
    let new : SeenFinding := ⟨⟨"b", "s", "f", .new, .always, "p", "m", "", 1, 2⟩, 2, []⟩
    handleListAllFindings [[resolved], [new]] (some [.new]) = [] ∧
      ¬ ListsAll [[resolved], [new]] [.new] := by
  intro resolved new
  have none : handleListAllFindings [[resolved], [new]] (some [.new]) = [] := by decide
  refine ⟨none, fun all => ?_⟩
  obtain ⟨e, inside, -⟩ := (all.listed ("p", "m")).mpr ⟨new, by simp, rfl, by decide⟩
  rw [none] at inside
  cases inside

end OpenThesis.Api
