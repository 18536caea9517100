import Mathlib.Data.List.Sort
import OpenThesis.Heap.Core
import OpenThesis.SnapshotTree.Core

/-!
# The frontier

Candidates in a heap, the highest score first (`internal/explorer/frontier.go`). `Trim` sorts with
any function that permutes its argument.
-/

namespace OpenThesis.Explorer

open SnapshotTree List

universe u

structure FrontierEntry (S : Type u) where
  snapshotID : ID
  score : S

/-- A sort of which only the result is known. -/
structure Sorting (α : Type u) where
  sort : List α → List α
  perm : ∀ items, (sort items).Perm items

abbrev Frontier (S : Type u) := Array (FrontierEntry S)

def newFrontier {S : Type u} : Frontier S :=
  #[]

namespace FrontierEntry

variable {S : Type u} [BEq S] [LT S] [DecidableLT S]

def less (a b : FrontierEntry S) : Bool :=
  if a.score != b.score then b.score < a.score else a.snapshotID < b.snapshotID

def notAfter (a b : FrontierEntry S) : Bool :=
  if b.score < a.score then true
  else if a.score < b.score then false
  else a.snapshotID ≤ b.snapshotID

def byScore : Sorting (FrontierEntry S) where
  sort := insertionSort fun a b => a.notAfter b = true
  perm := perm_insertionSort _

end FrontierEntry

namespace Frontier

variable {S : Type u}

def ids (f : Frontier S) : List ID :=
  f.toList.map (·.snapshotID)

variable [BEq S] [LT S] [DecidableLT S]

def push (f : Frontier S) (e : FrontierEntry S) : Frontier S :=
  Heap.push FrontierEntry.less f e

def pop (f : Frontier S) : Option (FrontierEntry S × Frontier S) :=
  Heap.pop FrontierEntry.less f

def trim (sorting : Sorting (FrontierEntry S)) (f : Frontier S) (n : Nat) :
    List ID × Frontier S :=
  if f.size ≤ n then ([], f)
  else
    let all := sorting.sort f.toList
    ((all.drop n).map (·.snapshotID), Heap.init FrontierEntry.less (all.take n).toArray)

theorem ids_push_perm (f : Frontier S) (e : FrontierEntry S) :
    (f.push e).ids.Perm (e.snapshotID :: f.ids) :=
  (Heap.push_perm f e).map _

theorem ids_pop_perm {f rest : Frontier S} {e : FrontierEntry S}
    (popped : f.pop = some (e, rest)) : (e.snapshotID :: rest.ids).Perm f.ids :=
  (Heap.perm_of_pop popped).map _

theorem ids_trim_perm (sorting : Sorting (FrontierEntry S)) (f : Frontier S) (n : Nat) :
    ((f.trim sorting n).1 ++ (f.trim sorting n).2.ids).Perm f.ids := by
  unfold trim
  split
  · exact .rfl
  · have kept : (Heap.init FrontierEntry.less ((sorting.sort f.toList).take n).toArray).toList.Perm
        ((sorting.sort f.toList).take n) := (Heap.init_perm _).toList
    have sorted := ((perm_append_comm.trans
      (Perm.of_eq (take_append_drop n (sorting.sort f.toList)))).trans
      (sorting.perm f.toList)).map FrontierEntry.snapshotID
    rw [map_append] at sorted
    exact ((kept.map _).append_left _).trans sorted

theorem trim_dropped_eq_nil_iff (sorting : Sorting (FrontierEntry S)) (f : Frontier S) (n : Nat) :
    (f.trim sorting n).1 = [] ↔ f.size ≤ n := by
  unfold trim
  split
  · next fits => exact iff_of_true rfl fits
  · next large =>
    refine iff_of_false ?_ large
    have length : (sorting.sort f.toList).length = f.size :=
      (sorting.perm f.toList).length_eq.trans Array.length_toList
    intro none
    have short := congrArg List.length none
    rw [length_map, length_drop, length, length_nil] at short
    exact large (Nat.sub_eq_zero_iff_le.mp short)

end Frontier

end OpenThesis.Explorer
