import Mathlib.Data.Finset.Card
import Mathlib.Data.List.Chain
import Mathlib.Logic.Relation
import OpenThesis.Loop.Core

/-!
# Parent-pointer forests

A forest is a partial parent map: ancestors, paths, upward-closed sets, and loops that collect or
mark along a walk to the root.
-/

namespace OpenThesis.Forest

open Loop List

universe u v

variable {ι : Type u}

/-- `ancestor` is met on the walk up from `node`, the node itself included. -/
def AncestorOrSelf (parent : ι → Option ι) (ancestor node : ι) : Prop :=
  Relation.ReflTransGen (fun child above => parent child = some above) node ancestor

/-- Following parents from `node` ends at a node without a parent, and `path` lists the nodes from
there down to `node`. -/
inductive Ancestry (parent : ι → Option ι) : ι → List ι → Prop
  | root {node : ι} : parent node = none → Ancestry parent node [node]
  | child {node above : ι} {path : List ι} :
      parent node = some above → Ancestry parent above path →
      Ancestry parent node (path ++ [node])

def UpClosed (parent : ι → Option ι) (nodes : Finset ι) : Prop :=
  ∀ ⦃node⦄, node ∈ nodes → ∀ ⦃above⦄, parent node = some above → above ∈ nodes

section

variable {parent : ι → Option ι} {node above ancestor : ι} {path : List ι}

theorem AncestorOrSelf.refl (parent : ι → Option ι) (node : ι) : AncestorOrSelf parent node node :=
  Relation.ReflTransGen.refl

theorem ancestorOrSelf_iff_of_parent (up : parent node = some above) :
    AncestorOrSelf parent ancestor node ↔
      ancestor = node ∨ AncestorOrSelf parent ancestor above := by
  constructor
  · intro walk
    rcases Relation.ReflTransGen.cases_head walk with equal | ⟨next, first, rest⟩
    · exact Or.inl equal.symm
    · cases up.symm.trans first
      exact Or.inr rest
  · rintro (rfl | walk)
    · exact AncestorOrSelf.refl parent ancestor
    · exact Relation.ReflTransGen.head up walk

theorem ancestorOrSelf_iff_of_root (top : parent node = none) :
    AncestorOrSelf parent ancestor node ↔ ancestor = node := by
  constructor
  · intro walk
    rcases Relation.ReflTransGen.cases_head walk with equal | ⟨next, first, -⟩
    · exact equal.symm
    · rw [top] at first
      contradiction
  · rintro rfl
    exact AncestorOrSelf.refl parent ancestor

theorem UpClosed.mem_of_ancestorOrSelf {nodes : Finset ι}
    (closed : UpClosed parent nodes) (walk : AncestorOrSelf parent ancestor node)
    (member : node ∈ nodes) : ancestor ∈ nodes := by
  induction walk with
  | refl => exact member
  | tail _ up ih => exact closed ih up

end

section

variable {parent other : ι → Option ι} {node above : ι} {path : List ι}

theorem Ancestry.unique {second : List ι} (first : Ancestry parent node path)
    (again : Ancestry parent node second) : path = second := by
  induction first generalizing second with
  | root top =>
    cases again with
    | root => rfl
    | child up _ =>
      rw [top] at up
      contradiction
  | child up _ ih =>
    cases again with
    | root top =>
      rw [top] at up
      contradiction
    | child otherUp rest =>
      cases up.symm.trans otherUp
      rw [ih rest]

section

variable (ancestry : Ancestry parent node path)

include ancestry

theorem Ancestry.ne_nil : path ≠ [] := by
  cases ancestry <;> simp

theorem Ancestry.getLast? : path.getLast? = some node := by
  cases ancestry <;> simp

theorem Ancestry.isChain : path.IsChain fun above child => parent child = some above := by
  induction ancestry with
  | root => exact isChain_singleton _
  | child up rest ih =>
    refine isChain_append.mpr ⟨ih, isChain_singleton _, ?_⟩
    intro last lastMem first firstMem
    rw [rest.getLast?] at lastMem
    simp only [Option.mem_def, Option.some.injEq, head?_cons] at lastMem firstMem
    subst lastMem firstMem
    exact up

theorem Ancestry.exists_head : ∃ top, path.head? = some top ∧ parent top = none := by
  induction ancestry with
  | root top => exact ⟨_, rfl, top⟩
  | child _ rest ih =>
    obtain ⟨top, headEq, topless⟩ := ih
    refine ⟨top, ?_, topless⟩
    rw [head?_append, headEq, Option.some_or]

theorem Ancestry.congr
    (agree : ∀ ancestor ∈ path, other ancestor = parent ancestor) : Ancestry other node path := by
  induction ancestry with
  | root top => exact .root ((agree _ (mem_singleton_self _)).trans top)
  | child up _ ih =>
    refine .child ((agree _ ?_).trans up) (ih fun ancestor member => agree _ ?_)
    · exact mem_append_right _ (mem_singleton_self _)
    · exact mem_append_left _ member

end

theorem exists_ancestry (rank : ι → Nat)
    (descends : ∀ ⦃node above⦄, parent node = some above → rank above < rank node)
    (node : ι) : ∃ path, Ancestry parent node path := by
  induction measured : rank node using Nat.strong_induction_on generalizing node with
  | _ bound ih =>
    subst measured
    cases up : parent node with
    | none => exact ⟨[node], .root up⟩
    | some above =>
      obtain ⟨path, ancestry⟩ := ih (rank above) (descends up) above rfl
      exact ⟨path ++ [node], .child up ancestry⟩

theorem Ancestry.length_le (ancestry : Ancestry parent node path) (rank : ι → Nat)
    (descends : ∀ ⦃node above⦄, parent node = some above → rank above < rank node) :
    path.length ≤ rank node + 1 := by
  induction ancestry with
  | root => exact Nat.le_add_left _ _
  | child up _ ih =>
    rw [length_append, length_singleton]
    exact Nat.succ_le_succ (ih.trans (descends up))

end

def walk {α : Type v} (visit : ι → Option (α × Option ι)) :
    List α × ι → Pass (List α × ι) (List α)
  | (readings, node) =>
    match visit node with
    | none => .leave readings
    | some (reading, none) => .leave (readings ++ [reading])
    | some (reading, some above) => .again (readings ++ [reading], above)

section

variable {α : Type v} {parent : ι → Option ι} {visit : ι → Option (α × Option ι)} {reading : ι → α}
  {node : ι} {path : List ι} (ancestry : Ancestry parent node path)
  (visits : ∀ ancestor ∈ path, visit ancestor = some (reading ancestor, parent ancestor))
  (readings : List α)

include ancestry visits readings

theorem run_walk : run (walk visit) path.length (readings, node) =
      some (readings ++ path.reverse.map reading) := by
  induction ancestry generalizing readings with
  | @root node top =>
    apply run_succ_of_leave
    simp [walk, visits node (mem_singleton_self _), top]
  | @child node above path up rest ih =>
    have here := visits node (mem_append_right _ (mem_singleton_self _))
    have pass : walk visit (readings, node) =
        .again (readings ++ [reading node], above) := by
      simp [walk, here, up]
    have later := ih (fun ancestor member => visits _ (mem_append_left _ member))
      (readings ++ [reading node])
    rw [length_append, length_singleton, run_succ_of_again pass, later]
    simp

theorem yields_walk : Yields (fun fuel => run (walk visit) fuel (readings, node))
      (readings ++ path.reverse.map reading) :=
  yields_of_run (run_walk ancestry visits readings)

end

variable [DecidableEq ι]

def mark (parent : ι → Option ι) : Finset ι × ι → Pass (Finset ι × ι) (Finset ι)
  | (marked, node) =>
    if node ∈ marked then .leave marked
    else
      match parent node with
      | none => .leave (insert node marked)
      | some above => .again (insert node marked, above)

/-- The marked set is upward closed up to the node the walk stands on, and only ancestors of the
start are added. -/
def MarkInvariant (parent : ι → Option ι) (before : Finset ι) (start : ι)
    (state : Finset ι × ι) : Prop :=
  (∀ node ∈ state.1, ∀ above, parent node = some above →
      above ∈ state.1 ∨ above = state.2) ∧
    ∀ ancestor, (ancestor ∈ state.1 ∨ AncestorOrSelf parent ancestor state.2) ↔
      (ancestor ∈ before ∨ AncestorOrSelf parent ancestor start)

namespace MarkInvariant

variable {parent : ι → Option ι} {before marked : Finset ι} {start node : ι}

theorem mem_insert_or (invariant : MarkInvariant parent before start (marked, node))
    {child above : ι} (member : child ∈ insert node marked) (up : parent child = some above) :
    above ∈ insert node marked ∨ parent node = some above := by
  rcases Finset.mem_insert.mp member with rfl | inMarked
  · exact Or.inr up
  · rcases invariant.1 child inMarked above up with aboveMarked | rfl
    · exact Or.inl (Finset.mem_insert_of_mem aboveMarked)
    · exact Or.inl (Finset.mem_insert_self _ _)

theorem again (invariant : MarkInvariant parent before start (marked, node)) {above : ι}
    (up : parent node = some above) :
    MarkInvariant parent before start (insert node marked, above) := by
  constructor
  · intro child member grand childUp
    rcases invariant.mem_insert_or member childUp with inMarked | isAbove
    · exact Or.inl inMarked
    · exact Or.inr (Option.some.inj (isAbove.symm.trans up))
  · intro ancestor
    rw [← invariant.2 ancestor, ancestorOrSelf_iff_of_parent up, Finset.mem_insert]
    tauto

omit [DecidableEq ι] in
theorem leave_marked (invariant : MarkInvariant parent before start (marked, node))
    (member : node ∈ marked) : UpClosed parent marked ∧ ∀ ancestor, ancestor ∈ marked ↔
      ancestor ∈ before ∨ AncestorOrSelf parent ancestor start := by
  have upClosed : UpClosed parent marked := by
    intro child childMem above childUp
    rcases invariant.1 child childMem above childUp with inMarked | rfl
    · exact inMarked
    · exact member
  refine ⟨upClosed, fun ancestor => ?_⟩
  rw [← invariant.2 ancestor]
  refine ⟨Or.inl, ?_⟩
  rintro (inMarked | walkUp)
  · exact inMarked
  · exact upClosed.mem_of_ancestorOrSelf walkUp member

theorem leave_root (invariant : MarkInvariant parent before start (marked, node))
    (root : parent node = none) :
    UpClosed parent (insert node marked) ∧ ∀ ancestor, ancestor ∈ insert node marked ↔
      ancestor ∈ before ∨ AncestorOrSelf parent ancestor start := by
  constructor
  · intro child childMem above childUp
    rcases invariant.mem_insert_or childMem childUp with inMarked | isAbove
    · exact inMarked
    · rw [root] at isAbove
      contradiction
  · intro ancestor
    rw [← invariant.2 ancestor, Finset.mem_insert, ancestorOrSelf_iff_of_root root]
    exact or_comm

end MarkInvariant

/-- Marking from an upward-closed set ends, adds exactly the ancestors of the start, and keeps the
set upward closed. -/
theorem exists_run_mark {parent : ι → Option ι} {live before : Finset ι}
    (inside : ∀ ⦃node above⦄, parent node = some above → node ∈ live)
    (closed : UpClosed parent before) (start : ι) :
    ∃ marked, run (mark parent) (live.card + 1) (before, start) = some marked ∧
      UpClosed parent marked ∧ ∀ ancestor, ancestor ∈ marked ↔
        ancestor ∈ before ∨ AncestorOrSelf parent ancestor start := by
  have initially : MarkInvariant parent before start (before, start) :=
    ⟨fun node member above up => Or.inl (closed member up), fun _ => Iff.rfl⟩
  -- Every pass that goes on marks a live node, so the unmarked live ones run out.
  refine exists_run_of_variant (fun state => (live \ state.1).card)
    (MarkInvariant parent before start) _ ?_ ?_ initially
    (Nat.lt_succ_of_le (Finset.card_le_card Finset.sdiff_subset))
  · rintro ⟨marked, node⟩ ⟨next, above⟩ invariant pass
    by_cases member : node ∈ marked
    · simp [mark, member] at pass
    cases up : parent node with
    | none => simp [mark, member, up] at pass
    | some parentNode =>
      simp only [mark, member, up, if_false, Pass.again.injEq, Prod.mk.injEq] at pass
      obtain ⟨rfl, rfl⟩ := pass
      refine ⟨invariant.again up, Finset.card_lt_card ?_⟩
      refine Finset.ssubset_iff_of_subset
        (Finset.sdiff_subset_sdiff le_rfl (Finset.subset_insert _ _)) |>.mpr ?_
      exact ⟨node, Finset.mem_sdiff.mpr ⟨inside up, member⟩, by simp⟩
  · rintro ⟨marked, node⟩ result invariant pass
    by_cases member : node ∈ marked
    · simp only [mark, member, if_true, Pass.leave.injEq] at pass
      subst pass
      exact invariant.leave_marked member
    · cases up : parent node with
      | some above => simp [mark, member, up] at pass
      | none =>
        simp only [mark, member, up, if_false, Pass.leave.injEq] at pass
        subst pass
        exact invariant.leave_root up

end OpenThesis.Forest
