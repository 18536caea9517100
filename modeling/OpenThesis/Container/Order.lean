import Mathlib.Data.Finset.Card

/-!
# The order of services

`TopologicalSort` of `internal/container/compose.go`, with fuel for the recursion.
-/

namespace OpenThesis.Container

open Relation List

structure Service where
  name : String
  dependsOn : List String

structure Visit where
  visited : Finset String := ∅
  result : List Service := []

variable (services : List Service)

/-- Of services with the same name the last one counts. -/
def byName (name : String) : Option Service :=
  services.reverse.find? (·.name = name)

def visit : Nat → Visit → String → Option Visit
  | 0, _, _ => none
  | fuel + 1, v, name =>
    if name ∈ v.visited then some v
    else
      let entered := { v with visited := insert name v.visited }
      match byName services name with
      | none => some entered
      | some svc =>
        (svc.dependsOn.foldlM (visit fuel) entered).map fun left =>
          { left with result := left.result ++ [svc] }

def topologicalSort (fuel : Nat) : Option (List Service) :=
  ((services.map (·.name)).foldlM (visit services fuel) {}).map (·.result)

def DependsOn (name dep : String) : Prop :=
  ∃ svc, byName services name = some svc ∧ dep ∈ svc.dependsOn

/-- What holds while the services named in `stack` are being visited. -/
structure Inv (stack : Finset String) (v : Visit) : Prop where
  entered : stack ⊆ v.visited
  once : v.result.Nodup
  done : ∀ svc, svc ∈ v.result ↔
    byName services svc.name = some svc ∧ svc.name ∈ v.visited ∧ svc.name ∉ stack
  ordered : ∀ svc ∈ v.result, ∀ dep, byName services dep.name = some dep →
    dep.name ∈ svc.dependsOn → ¬ ReflTransGen (DependsOn services) dep.name svc.name →
      [dep, svc].Sublist v.result

def unvisited (v : Visit) : Finset String :=
  (services.map (·.name)).toFinset \ v.visited

/-- The names are visited with success, and what holds is kept. -/
def Succeeds (stack : Finset String) (v : Visit) (names : List String) (outcome : Option Visit) :
    Prop :=
  ∃ next, outcome = some next ∧ Inv services stack next ∧ v.visited ⊆ next.visited ∧
    ∀ name ∈ names, name ∈ next.visited

variable {services} {stack : Finset String} {names : List String} {v : Visit} {fuel : Nat}
  {name : String} {svc : Service}

theorem name_of_byName (found : byName services name = some svc) :
    svc ∈ services ∧ svc.name = name :=
  ⟨mem_reverse.mp (mem_of_find?_eq_some found), by simpa using find?_some found⟩

theorem succeeds_foldlM
    (one : ∀ v, Inv services stack v → (unvisited services v).card < fuel → ∀ name ∈ names,
      Succeeds services stack v [name] (visit services fuel v name))
    (inv : Inv services stack v) (enough : (unvisited services v).card < fuel) :
    Succeeds services stack v names (names.foldlM (visit services fuel) v) := by
  induction names generalizing v with
  | nil => exact ⟨v, rfl, inv, subset_rfl, by simp⟩
  | cons name names ih =>
    rw [forall₃_congr fun v inv enough => forall_mem_cons] at one
    obtain ⟨next, visits, inv, grows, first⟩ := (one v inv enough).1
    have fewer : unvisited services next ⊆ unvisited services v :=
      Finset.sdiff_subset_sdiff subset_rfl grows
    obtain ⟨last, rest, inv, grows', others⟩ := ih (fun v inv enough => (one v inv enough).2) inv
      ((Finset.card_le_card fewer).trans_lt enough)
    have both := forall_mem_cons.mpr ⟨grows' (first name mem_cons_self), others⟩
    refine ⟨last, ?_, inv, Finset.Subset.trans grows grows', both⟩
    rw [foldlM_cons, visits]
    exact rest

theorem Inv.enter (inv : Inv services stack v) (isNew : name ∉ v.visited) :
    Inv services (insert name stack) { v with visited := insert name v.visited } where
  entered := Finset.insert_subset_insert name inv.entered
  once := inv.once
  done svc := by
    by_cases same : svc.name = name
    · simp [inv.done, same, isNew]
    · simp [inv.done, same]
  ordered := inv.ordered

theorem Inv.skip (inv : Inv services stack v) (unknown : byName services name = none) :
    Inv services stack { v with visited := insert name v.visited } where
  entered := Finset.Subset.trans inv.entered (Finset.subset_insert name _)
  once := inv.once
  done svc := by
    by_cases same : svc.name = name
    · simp [inv.done, same, unknown]
    · simp [inv.done, same]
  ordered := inv.ordered

theorem Inv.leave (inv : Inv services (insert svc.name stack) v) (isNew : svc.name ∉ stack)
    (found : byName services svc.name = some svc)
    (leads : ∀ other ∈ stack, ReflTransGen (DependsOn services) other svc.name)
    (deps : ∀ dep ∈ svc.dependsOn, dep ∈ v.visited) :
    Inv services stack { v with result := v.result ++ [svc] } where
  entered := (Finset.insert_subset_iff.mp inv.entered).2
  once := by
    have fresh : svc ∉ v.result := by simp [inv.done]
    simpa [nodup_append] using ⟨inv.once, fun other inside same => fresh (same ▸ inside)⟩
  done other := by
    have inside := inv.entered (Finset.mem_insert_self svc.name stack)
    by_cases same : other.name = svc.name
    · simp [inv.done, same, found, inside, isNew, eq_comm]
    · have differ : other ≠ svc := fun equal => same (congrArg Service.name equal)
      simp [inv.done, same, differ]
  ordered other inside dep isKnown isDep noCycle := by
    rcases mem_append.mp inside with before | last
    · exact (inv.ordered other before dep isKnown isDep noCycle).trans
        (sublist_append_left _ _)
    · obtain rfl := mem_singleton.mp last
      -- a dependency that is being visited leads to the service
      have closed : dep.name ∉ insert other.name stack := by
        rw [Finset.mem_insert, not_or]
        exact ⟨fun same => noCycle (same ▸ .refl), fun inStack => noCycle (leads _ inStack)⟩
      have before : dep ∈ v.result := (inv.done dep).mpr ⟨isKnown, deps _ isDep, closed⟩
      exact (singleton_sublist.mpr before).append (Sublist.refl [other])

theorem succeeds_visit (enough : (unvisited services v).card < fuel) (inv : Inv services stack v)
    (leads : ∀ other ∈ stack, ReflTransGen (DependsOn services) other name) :
    Succeeds services stack v [name] (visit services fuel v name) := by
  induction fuel generalizing stack v name with
  | zero => exact absurd enough (Nat.not_lt_zero _)
  | succ fuel ih =>
    rw [visit]
    split_ifs with before
    · exact ⟨v, rfl, inv, subset_rfl, by simpa using before⟩
    · have grow := Finset.subset_insert name v.visited
      cases found : byName services name with
      | none => exact ⟨_, rfl, inv.skip found, grow, by simp⟩
      | some svc =>
        obtain ⟨inside, rfl⟩ := name_of_byName found
        have fewer : unvisited services { v with visited := insert svc.name v.visited } ⊂
            unvisited services v := by
          refine Finset.ssubset_iff_of_subset ?_ |>.mpr ⟨svc.name, ?_, by simp [unvisited]⟩
          · exact Finset.sdiff_subset_sdiff subset_rfl grow
          · simpa [unvisited, before] using ⟨svc, inside, rfl⟩
        have less := (Finset.card_lt_card fewer).trans_le (Nat.le_of_lt_succ enough)
        obtain ⟨left, visits, inner, grows, deps⟩ := succeeds_foldlM
          (fun w inv enough dep isDep => ih enough inv fun other inStack => by
            have edge : DependsOn services svc.name dep := ⟨svc, found, isDep⟩
            rcases Finset.mem_insert.mp inStack with rfl | below
            · exact .single edge
            · exact (leads other below).tail edge) (inv.enter before) less
        have isNew : svc.name ∉ stack := fun inStack => before (inv.entered inStack)
        refine ⟨_, congrArg (Option.map _) visits, inner.leave isNew found leads deps,
          Finset.Subset.trans grow grows, ?_⟩
        simpa using inner.entered (Finset.mem_insert_self svc.name stack)

/-- Each service is there once, behind the services that it depends on and that do not depend on
it. -/
theorem topologicalSort_sorts (distinct : (services.map (·.name)).Nodup)
    (enough : services.length < fuel) :
    ∃ sorted, topologicalSort services fuel = some sorted ∧ sorted.Perm services ∧
      ∀ svc ∈ services, ∀ dep ∈ services, dep.name ∈ svc.dependsOn →
        ¬ ReflTransGen (DependsOn services) dep.name svc.name → [dep, svc].Sublist sorted := by
  have known {svc : Service} (inside : svc ∈ services) : byName services svc.name = some svc := by
    obtain ⟨found, isFound⟩ := Option.isSome_iff_exists.mp (find?_isSome.mpr
      ⟨svc, mem_reverse.mpr inside, by simp⟩ : (byName services svc.name).isSome)
    obtain ⟨isService, same⟩ := name_of_byName isFound
    rwa [inj_on_of_nodup_map distinct isService inside same] at isFound
  have start : Inv services ∅ {} := ⟨subset_rfl, nodup_nil, by simp, by simp⟩
  have few : (unvisited services {}).card ≤ services.length := by
    simpa [unvisited] using toFinset_card_le (services.map (·.name))
  obtain ⟨last, visits, inv, -, all⟩ : Succeeds services ∅ {} (services.map (·.name)) _ :=
    succeeds_foldlM (fun v inv enough name _ => succeeds_visit enough inv (by simp)) start
      (few.trans_lt enough)
  have members (svc : Service) : svc ∈ last.result ↔ svc ∈ services := by
    rw [inv.done]
    constructor
    · exact fun isDone => (name_of_byName isDone.1).1
    · exact fun inside => ⟨known inside, all _ (mem_map_of_mem inside), Finset.notMem_empty _⟩
  refine ⟨last.result, congrArg (Option.map _) visits, ?_, ?_⟩
  · exact (perm_ext_iff_of_nodup inv.once (Nodup.of_map _ distinct)).mpr members
  · exact fun svc inside dep isService isDep noCycle =>
      inv.ordered svc ((members svc).mpr inside) dep (known isService) isDep noCycle

theorem topologicalSort_sorts_cycle :
    let a : Service := ⟨"a", ["b", "b", "x"]⟩
    let b : Service := ⟨"b", ["a", "b"]⟩
    ∃ sorted, topologicalSort [a, b] 3 = some sorted ∧ sorted.Perm [a, b] :=
  (topologicalSort_sorts (by decide) (by decide)).imp fun _ sorts => ⟨sorts.1, sorts.2.1⟩

end OpenThesis.Container
