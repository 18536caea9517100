import OpenThesis.Minimize.Core
import OpenThesis.SnapshotTree.Core

/-!
# Shrinking fault lists in the debugger

The debugger's own minimiser (`internal/debugger/shrink.go`): two halves, then single events. An
oracle acts on a state, which the search passes on from call to call.
-/

namespace OpenThesis.Debugger

open Loop Minimize List

open SnapshotTree (ID)

universe u v w

variable {α : Type u} {ε : Type v} {σ : Type w}

/-- An oracle answers, or fails, and leaves the world in another state. -/
abbrev Oracle (σ : Type w) (α : Type u) (ε : Type v) := α → σ → Except ε Bool × σ

/-- The oracle that answers with a function and keeps a log of what it is asked. -/
def logging (answer : α → Except ε Bool) : Oracle (List α) α ε :=
  fun asked calls => (answer asked, calls ++ [asked])

inductive Probe (α : Type u) where
  | accepted (items : List α)
  | cancelled
  | exhausted

/-- Tries the candidates in turn; `rounds` is the counter of the result. -/
def probe (cancelled : Nat → Bool) (oracle : Oracle σ (List α) ε) (skipEmpty : Bool) :
    List (List α) → Nat → σ → Probe α × Nat × σ
  | [], rounds, world => (.exhausted, rounds, world)
  | candidate :: rest, rounds, world =>
    if cancelled rounds then (.cancelled, rounds, world)
    else if skipEmpty && candidate.isEmpty then
      probe cancelled oracle skipEmpty rest rounds world
    else
      match oracle candidate world with
      | (answer, world) =>
        let rounds := rounds + 1
        match answer with
        | .ok true => (.accepted candidate, rounds, world)
        | _ => probe cancelled oracle skipEmpty rest rounds world

def halves (faults : List α) : List (List α) :=
  [faults.take (faults.length / 2), faults.drop (faults.length / 2)]

def removals (faults : List α) : List (List α) :=
  (range faults.length).map fun i => faults.take i ++ faults.drop (i + 1)

/-- One call of the recursive `ddmin`. -/
def ddminPass (cancelled : Nat → Bool) (oracle : Oracle σ (List α) ε) :
    List α × Nat × σ → Pass (List α × Nat × σ) (List α × Nat × σ)
  | (faults, rounds, world) =>
    if faults.length = 1 then .leave (faults, rounds, world)
    else
      match probe cancelled oracle false (halves faults) rounds world with
      | (.accepted subset, stats) => .again (subset, stats)
      | (.cancelled, stats) => .leave (faults, stats)
      | (.exhausted, rounds, world) =>
        match probe cancelled oracle true (removals faults) rounds world with
        | (.accepted reduced, stats) => .again (reduced, stats)
        | (.cancelled, stats) => .leave (faults, stats)
        | (.exhausted, stats) => .leave (faults, stats)

def ddmin (cancelled : Nat → Bool) (oracle : Oracle σ (List α) ε) (faults : List α)
    (rounds : Nat) (world : σ) (fuel : Nat) : Option (List α × Nat × σ) :=
  run (ddminPass cancelled oracle) fuel (faults, rounds, world)

structure ShrinkResult where
  minimalSnapshotID : ID
  originalFaultCount : Nat
  minimalFaultCount : Nat
  rounds : Nat
  deriving DecidableEq, Repr

structure Shrunk (α : Type u) where
  faults : List α
  result : ShrinkResult

def report (baseSnapshot : ID) (faults minimal : List α) (rounds : Nat) : Shrunk α where
  faults := minimal
  result :=
    { minimalSnapshotID := baseSnapshot
      originalFaultCount := faults.length
      minimalFaultCount := minimal.length
      rounds }

/-- Delta debugging of a fault list; `none` when the fuel runs out. -/
def shrinkFaults (cancelled : Nat → Bool) (baseSnapshot : ID) (faults : List α)
    (oracle : Oracle σ (List α) ε) (world : σ) (fuel : Nat) : Option (Shrunk α × σ) :=
  if faults.length = 0 then some (report baseSnapshot faults [] 0, world)
  else
    match oracle faults world with
    | (answer, world) =>
      let rounds := 1
      match answer with
      | .ok true =>
        (ddmin cancelled oracle faults rounds world fuel).map fun (minimal, rounds, world) =>
          (report baseSnapshot faults minimal rounds, world)
      | _ => some (report baseSnapshot faults faults rounds, world)

section

variable {oracle : List α → Except ε Bool} {skipEmpty : Bool} {candidates calls : List (List α)}
  {items : List α} {rounds : Nat} {after : Nat × List (List α)}

theorem probe_cons (candidate : List α) (rounds : Nat) (calls : List (List α)) :
    probe (fun _ => false) (logging oracle) skipEmpty (candidate :: candidates) rounds calls =
      if skipEmpty && candidate.isEmpty then
        probe (fun _ => false) (logging oracle) skipEmpty candidates rounds calls
      else if accepts oracle candidate then
        (.accepted candidate, rounds + 1, calls ++ [candidate])
      else
        probe (fun _ => false) (logging oracle) skipEmpty candidates (rounds + 1)
          (calls ++ [candidate]) := by
  cases answered : oracle candidate with
  | error e => simp [probe, accepts, logging, answered]
  | ok answer =>
    cases answer with
    | false | true => simp [probe, accepts, logging, answered]

theorem probe_accepted
    (probed : probe (fun _ => false) (logging oracle) skipEmpty candidates rounds calls =
      (.accepted items, after)) : items ∈ candidates ∧ accepts oracle items = true := by
  induction candidates generalizing rounds calls with
  | nil => simp [probe] at probed
  | cons candidate candidates ih =>
    rw [probe_cons] at probed
    split at probed
    · rcases ih probed with ⟨member, accepted⟩
      exact ⟨mem_cons_of_mem _ member, accepted⟩
    · split at probed
      · rename_i accepted
        simp only [Prod.mk.injEq, Probe.accepted.injEq] at probed
        rw [← probed.1]
        exact ⟨mem_cons_self, accepted⟩
      · rcases ih probed with ⟨member, accepted⟩
        exact ⟨mem_cons_of_mem _ member, accepted⟩

theorem probe_ne_cancelled :
    probe (fun _ => false) (logging oracle) skipEmpty candidates rounds calls ≠
      (.cancelled, after) := by
  induction candidates generalizing rounds calls with
  | nil => simp [probe]
  | cons candidate candidates ih =>
    rw [probe_cons]
    split
    · exact ih
    · split
      · simp
      · exact ih

theorem probe_exhausted
    (probed : probe (fun _ => false) (logging oracle) skipEmpty candidates rounds calls =
      (.exhausted, after)) :
    ∀ candidate ∈ candidates, candidate ≠ [] → accepts oracle candidate = false := by
  induction candidates generalizing rounds calls with
  | nil => simp
  | cons candidate candidates ih =>
    rw [probe_cons] at probed
    rw [forall_mem_cons]
    split at probed
    · rename_i passed
      rw [Bool.and_eq_true, List.isEmpty_iff] at passed
      exact ⟨fun nonempty => absurd passed.2 nonempty, ih probed⟩
    · split at probed
      · simp at probed
      · rename_i rejected
        exact ⟨fun _ => by simpa using rejected, ih probed⟩

-- the counter and the log have to grow together, call by call
theorem probe_rounds {outcome : Probe α} (counted : rounds = calls.length)
    (probed : probe (fun _ => false) (logging oracle) skipEmpty candidates rounds calls =
      (outcome, after)) : after.1 = after.2.length := by
  induction candidates generalizing rounds calls with
  | nil =>
    simp only [probe, Prod.mk.injEq] at probed
    rw [← probed.2]
    exact counted
  | cons candidate candidates ih =>
    have once : rounds + 1 = (calls ++ [candidate]).length := by
      rw [length_append, length_singleton, counted]
    rw [probe_cons] at probed
    split at probed
    · exact ih counted probed
    · split at probed
      · rw [Prod.mk.injEq] at probed
        rw [← probed.2]
        exact once
      · exact ih once probed

end

theorem of_mem_halves {faults candidate : List α} (long : 2 ≤ faults.length)
    (member : candidate ∈ halves faults) :
    candidate.Sublist faults ∧ candidate ≠ [] ∧ candidate.length < faults.length := by
  simp only [halves, mem_cons, not_mem_nil, or_false] at member
  have nonempty : candidate.length ≠ 0 ∧ candidate.length < faults.length := by
    rcases member with rfl | rfl
    · rw [length_take]
      omega
    · rw [length_drop]
      omega
  have sublist : candidate.Sublist faults := by
    rcases member with rfl | rfl
    · exact take_sublist _ _
    · exact drop_sublist _ _
  exact ⟨sublist, ne_nil_of_length_pos (Nat.pos_of_ne_zero nonempty.1), nonempty.2⟩

theorem mem_removals {faults candidate : List α} :
    candidate ∈ removals faults ↔ ∃ i < faults.length, candidate = faults.eraseIdx i := by
  simp only [removals, mem_map, mem_range, eraseIdx_eq_take_drop_succ, eq_comm]

section

variable {oracle : List α → Except ε Bool} {faults : List α} {rounds : Nat}
  {calls : List (List α)}

/-- What the loop keeps: an accepted nonempty part of the original list, and a
counter that agrees with the oracle's log. -/
structure Shrinking (oracle : List α → Except ε Bool) (original : List α)
    (state : List α × Nat × List (List α)) : Prop where
  sublist : state.1.Sublist original
  nonempty : state.1 ≠ []
  accepted : accepts oracle state.1 = true
  counted : state.2.1 = state.2.2.length

section

variable {original : List α} (shrinking : Shrinking oracle original (faults, rounds, calls))

include shrinking

theorem ddminPass_again {next : List α × Nat × List (List α)}
    (pass : ddminPass (fun _ => false) (logging oracle) (faults, rounds, calls) = .again next) :
    Shrinking oracle original next ∧ next.1.length < faults.length := by
  unfold ddminPass at pass
  by_cases one : faults.length = 1
  · simp [one] at pass
  have long : 2 ≤ faults.length := by
    have positive : 0 < faults.length := length_pos_of_ne_nil shrinking.nonempty
    omega
  simp only [one, if_false] at pass
  split at pass
  · rename_i subset after probed
    cases pass
    rcases probe_accepted probed with ⟨member, accepted⟩
    rcases of_mem_halves long member with ⟨sublist, nonempty, shorter⟩
    exact ⟨⟨sublist.trans shrinking.sublist, nonempty, accepted,
      probe_rounds shrinking.counted probed⟩, shorter⟩
  · contradiction
  · rename_i between asked probedHalves
    have counted := probe_rounds shrinking.counted probedHalves
    split at pass
    · rename_i reduced after probed
      cases pass
      rcases probe_accepted probed with ⟨member, accepted⟩
      rcases mem_removals.mp member with ⟨i, inside, rfl⟩
      have length := length_eraseIdx_of_lt inside
      have nonempty : faults.eraseIdx i ≠ [] := by
        apply ne_nil_of_length_pos
        omega
      exact ⟨⟨(eraseIdx_sublist _ _).trans shrinking.sublist, nonempty, accepted,
        probe_rounds counted probed⟩, by simp only; omega⟩
    · contradiction
    · contradiction

theorem ddminPass_leave {result : List α × Nat × List (List α)}
    (pass : ddminPass (fun _ => false) (logging oracle) (faults, rounds, calls) = .leave result) :
    Shrinking oracle original result ∧
      OneMinimal (fun items => accepts oracle items = true) result.1 := by
  unfold ddminPass at pass
  by_cases one : faults.length = 1
  · simp only [one, if_true, Pass.leave.injEq] at pass
    subst pass
    exact ⟨shrinking, fun long => by simp only at long; omega⟩
  simp only [one, if_false] at pass
  split at pass
  · contradiction
  · rename_i after probed
    exact absurd probed probe_ne_cancelled
  · rename_i between asked probedHalves
    have counted := probe_rounds shrinking.counted probedHalves
    split at pass
    · contradiction
    · rename_i after probed
      exact absurd probed probe_ne_cancelled
    · rename_i after probed
      cases pass
      constructor
      · exact ⟨shrinking.sublist, shrinking.nonempty, shrinking.accepted,
          probe_rounds counted probed⟩
      · intro long i inside accepted
        have length := length_eraseIdx_of_lt inside
        have nonempty : faults.eraseIdx i ≠ [] := by
          apply ne_nil_of_length_pos
          simp only at long length
          omega
        have rejected := probe_exhausted probed _ (mem_removals.mpr ⟨i, inside, rfl⟩) nonempty
        rw [rejected] at accepted
        contradiction

end

end

theorem exists_yields_ddmin {oracle : List α → Except ε Bool} {faults : List α} {rounds : Nat}
    {calls : List (List α)} (shrinking : Shrinking oracle faults (faults, rounds, calls)) :
    ∃ result, Yields (ddmin (fun _ => false) (logging oracle) faults rounds calls) result ∧
      Shrinking oracle faults result ∧
        OneMinimal (fun items => accepts oracle items = true) result.1 := by
  apply exists_yields_of_variant Nat.lt_wfRel.wf (fun state => state.1.length)
    (Shrinking oracle faults)
  · intro state next kept pass
    exact ddminPass_again kept pass
  · intro state result kept pass
    exact ddminPass_leave kept pass
  · exact shrinking

section

variable (baseSnapshot : ID) {faults : List α} {oracle : List α → Except ε Bool}

theorem shrinkFaults_of_accepted (nonempty : faults ≠ []) (accepted : oracle faults = .ok true)
    (cancelled : Nat → Bool) :
    shrinkFaults cancelled baseSnapshot faults (logging oracle) [] = fun fuel =>
      (ddmin cancelled (logging oracle) faults 1 [faults] fuel).map
        fun shrunk => (report baseSnapshot faults shrunk.1 shrunk.2.1, shrunk.2.2) := by
  funext fuel
  simp [shrinkFaults, logging, nonempty, accepted]

theorem shrinkFaults_of_rejected (nonempty : faults ≠ []) (rejected : oracle faults ≠ .ok true)
    (cancelled : Nat → Bool) :
    shrinkFaults cancelled baseSnapshot faults (logging oracle) [] = fun _ =>
      some (report baseSnapshot faults faults 1, [faults]) := by
  funext fuel
  cases answered : oracle faults with
  | error e => simp [shrinkFaults, logging, nonempty, answered]
  | ok answer =>
    cases answer with
    | false => simp [shrinkFaults, logging, nonempty, answered]
    | true => exact absurd answered rejected

end

/-- Without cancellation a shrink returns a part of the fault list. If the oracle accepts the whole
list it accepts the part, and no list with one event less; if not, the list is returned. The rounds
reported are as many as the calls in the oracle's log. -/
theorem shrinkFaults_minimizes (baseSnapshot : ID) (faults : List α)
    (oracle : List α → Except ε Bool) :
    ∃ shrunk calls,
      Yields (shrinkFaults (fun _ => false) baseSnapshot faults (logging oracle) [])
        (shrunk, calls) ∧
      shrunk.faults.Sublist faults ∧
      (oracle faults = .ok true → oracle shrunk.faults = .ok true ∧
        (2 ≤ shrunk.faults.length → ∀ i < shrunk.faults.length,
          oracle (shrunk.faults.eraseIdx i) ≠ .ok true)) ∧
      (oracle faults ≠ .ok true → shrunk.faults = faults) ∧
      shrunk.result.rounds = calls.length := by
  by_cases empty : faults = []
  · subst empty
    refine ⟨report baseSnapshot [] [] 0, [], ⟨0, fun _ _ => rfl⟩, Sublist.refl _, ?_,
      fun _ => rfl, rfl⟩
    intro accepted
    exact ⟨accepted, fun long => absurd long (Nat.not_succ_le_zero 1)⟩
  by_cases accepted : oracle faults = .ok true
  · have start : Shrinking oracle faults (faults, 1, [faults]) :=
      ⟨Sublist.refl _, empty, accepts_eq_true_iff.mpr accepted, rfl⟩
    rcases exists_yields_ddmin start with ⟨result, returned, shrinking, minimal⟩
    refine ⟨report baseSnapshot faults result.1 result.2.1, result.2.2, ?_, shrinking.sublist, ?_,
      fun rejected => absurd accepted rejected, shrinking.counted⟩
    · rw [shrinkFaults_of_accepted baseSnapshot empty accepted]
      exact returned.map _
    · intro _
      refine ⟨accepts_eq_true_iff.mp shrinking.accepted, ?_⟩
      intro long i inside removable
      exact minimal long i inside (accepts_eq_true_iff.mpr removable)
  · refine ⟨report baseSnapshot faults faults 1, [faults], ?_, Sublist.refl _,
      fun yes => absurd yes accepted, fun _ => rfl, rfl⟩
    rw [shrinkFaults_of_rejected baseSnapshot empty accepted]
    exact ⟨0, fun _ _ => rfl⟩

structure PathResult where
  originalPath : List ID
  minimalSnapshotID : ID
  rounds : Nat := 0

inductive PathError (ε : Type v) where
  | emptyPath
  | oracle (err : ε)

/-- The binary search. An oracle error counts as not reproducible. -/
def bisect (cancelled : Nat → Bool) (oracle : Oracle σ ID ε) (lo hi : Nat) (r : PathResult)
    (world : σ) : PathResult × σ :=
  if lo < hi then
    if cancelled r.rounds then (r, world)
    else
      let mid := (lo + hi) / 2
      let snapID := r.originalPath.getD mid 0
      match oracle snapID world with
      | (answer, world) =>
        let r := { r with rounds := r.rounds + 1 }
        match answer with
        | .ok true => bisect cancelled oracle lo mid { r with minimalSnapshotID := snapID } world
        | _ => bisect cancelled oracle (mid + 1) hi r world
  else (r, world)
termination_by hi - lo

/-- Bisects the path for an earlier snapshot that reproduces. -/
def shrinkPath (cancelled : Nat → Bool) (path : List ID) (oracle : Oracle σ ID ε) (world : σ) :
    (Option PathResult × Option (PathError ε)) × σ :=
  match path.getLast? with
  | none => ((none, some .emptyPath), world)
  | some last =>
    let r : PathResult := { originalPath := path, minimalSnapshotID := last }
    if path.length = 1 then ((some r, none), world)
    else
      match oracle last world with
      | (answer, world) =>
        let r := { r with rounds := r.rounds + 1 }
        match answer with
        | .error err => ((some r, some (.oracle err)), world)
        | .ok false => ((some r, none), world)
        | .ok true =>
          match bisect cancelled oracle 0 (path.length - 1) r world with
          | (r, world) => ((some r, none), world)

/-- The minimal snapshot so far is accepted and ends the interval; the one before the interval
is not accepted. The counter agrees with the oracle's log. -/
structure Bisecting (oracle : ID → Except ε Bool) (path : List ID) (lo hi : Nat)
    (r : PathResult) (calls : List ID) : Prop where
  original : r.originalPath = path
  le : lo ≤ hi
  minimal : path[hi]? = some r.minimalSnapshotID
  accepted : oracle r.minimalSnapshotID = .ok true
  below : ∀ i s, i + 1 = lo → path[i]? = some s → oracle s ≠ .ok true
  counted : r.rounds = calls.length

variable {oracle : ID → Except ε Bool} {path calls : List ID} {lo hi : Nat} {r : PathResult}

section

variable (h : Bisecting oracle path lo hi r calls)

include h

theorem Bisecting.midpoint (less : lo < hi) :
    path[(lo + hi) / 2]? = some (r.originalPath.getD ((lo + hi) / 2) 0) := by
  have inside : (lo + hi) / 2 < path.length := by
    have := (List.getElem?_eq_some_iff.mp h.minimal).1
    omega
  simp [h.original, List.getElem?_eq_getElem inside]

theorem Bisecting.once (snapID : ID) : r.rounds + 1 = (calls ++ [snapID]).length := by
  rw [length_append, length_singleton, h.counted]

theorem Bisecting.bisect :
    ∃ i, Bisecting oracle path i i (bisect (fun _ => false) (logging oracle) lo hi r calls).1
      (Debugger.bisect (fun _ => false) (logging oracle) lo hi r calls).2 := by
  fun_induction Debugger.bisect (fun _ => false) (logging oracle) lo hi r calls with
  | case1 lo hi r calls less stopped => contradiction
  | case2 lo hi r calls less going mid snapID after counted called ih =>
    obtain ⟨accepted, rfl⟩ := Prod.mk.inj called
    exact ih ⟨h.original, by omega, h.midpoint less, accepted, h.below, h.once snapID⟩
  | case3 lo hi r calls less going mid snapID answer after called counted rejected ih =>
    obtain ⟨rfl, rfl⟩ := Prod.mk.inj called
    refine ih ⟨h.original, by omega, h.minimal, h.accepted, ?_, h.once snapID⟩
    intro i s next at_i
    obtain rfl : i = mid := by omega
    cases (h.midpoint less).symm.trans at_i
    exact rejected
  | case4 lo hi r calls done =>
    obtain rfl : lo = hi := le_antisymm h.le (not_lt.mp done)
    exact ⟨lo, h⟩

end

theorem Bisecting.eq_head {i : Nat} {before after : List ID} {head : ID}
    (h : Bisecting oracle path i i r calls) (whole : path = before ++ head :: after)
    (distinct : path.Nodup) (suffix : ∀ s ∈ path, oracle s = .ok true ↔ s ∈ head :: after) :
    r.minimalSnapshotID = head := by
  subst whole
  have late := (suffix _ (mem_of_getElem? h.minimal)).mp h.accepted
  have minimal := h.minimal
  rcases lt_trichotomy i before.length with less | rfl | more
  · rw [List.getElem?_append_left less] at minimal
    exact absurd late ((disjoint_of_nodup_append distinct) (mem_of_getElem? minimal))
  · simpa using minimal.symm
  -- the snapshot before it would be in the suffix as well
  · obtain ⟨j, rfl⟩ : ∃ j, i = j + 1 := ⟨i - 1, by omega⟩
    obtain ⟨s, at_j⟩ : ∃ s, (before ++ head :: after)[j]? = some s := by
      have inside := (List.getElem?_eq_some_iff.mp minimal).1
      exact ⟨_, List.getElem?_eq_getElem (by omega)⟩
    have accepted := (suffix s (mem_of_getElem? at_j)).mpr (by
      rw [List.getElem?_append_right (by omega)] at at_j
      exact mem_of_getElem? at_j)
    exact absurd accepted (h.below j s rfl at_j)

/-- If the last snapshot is not accepted it is returned, with an error if the oracle had one. If it
is, the result is accepted and the snapshot before it is not; it is the first of the accepted ones
if they are a suffix. The rounds reported are as many as the calls in the oracle's log. -/
theorem shrinkPath_earliest (oracle : ID → Except ε Bool) (first second : ID) (rest : List ID) :
    let path := first :: second :: rest
    ∃ r err calls last,
      shrinkPath (fun _ => false) path (logging oracle) [] = ((some r, err), calls) ∧
      path.getLast? = some last ∧ r.rounds = calls.length ∧
      (oracle last ≠ .ok true → r.minimalSnapshotID = last) ∧
      (oracle last = .ok true → err = none ∧ oracle r.minimalSnapshotID = .ok true ∧
        ∃ i, path[i]? = some r.minimalSnapshotID ∧
          ∀ j s, j + 1 = i → path[j]? = some s → oracle s ≠ .ok true) ∧
      ∀ before head after, path = before ++ head :: after → path.Nodup →
        (∀ s ∈ path, oracle s = .ok true ↔ s ∈ head :: after) → r.minimalSnapshotID = head := by
  intro path
  obtain ⟨last, isLast⟩ : ∃ last, path.getLast? = some last := ⟨_, getLast?_cons⟩
  have long : path.length ≠ 1 := by simp [path]
  let r : PathResult := { originalPath := path, minimalSnapshotID := last, rounds := 1 }
  have none_accepted (rejected : oracle last ≠ .ok true) : ∀ before head after,
      path = before ++ head :: after → path.Nodup →
        (∀ s ∈ path, oracle s = .ok true ↔ s ∈ head :: after) → last = head := by
    intro before head after whole _ suffix
    have late : last ∈ head :: after := by
      apply mem_of_getLast?
      rwa [whole, getLast?_append_of_ne_nil _ (cons_ne_nil _ _)] at isLast
    exact absurd ((suffix last (whole ▸ mem_append_right _ late)).mpr late) rejected
  cases answered : oracle last with
  | error err =>
    have result : shrinkPath (fun _ => false) path (logging oracle) [] =
        ((some r, some (.oracle err)), [last]) := by
      simp [shrinkPath, logging, isLast, long, answered, r]
    exact ⟨r, _, _, last, result, isLast, rfl, fun _ => rfl, by simp [answered],
      none_accepted (by simp [answered])⟩
  | ok answer =>
    cases answer with
    | false =>
      have result : shrinkPath (fun _ => false) path (logging oracle) [] =
          ((some r, none), [last]) := by
        simp [shrinkPath, logging, isLast, long, answered, r]
      exact ⟨r, _, _, last, result, isLast, rfl, fun _ => rfl, by simp [answered],
        none_accepted (by simp [answered])⟩
    | true =>
      have start : Bisecting oracle path 0 (path.length - 1) r [last] :=
        ⟨rfl, Nat.zero_le _, by rw [← getLast?_eq_getElem?, isLast], answered,
          by simp, rfl⟩
      obtain ⟨i, found⟩ := start.bisect
      have result : shrinkPath (fun _ => false) path (logging oracle) [] =
          ((some (bisect (fun _ => false) (logging oracle) 0 (path.length - 1) r [last]).1, none),
            (bisect (fun _ => false) (logging oracle) 0 (path.length - 1) r [last]).2) := by
        simp [shrinkPath, logging, isLast, long, answered, r]
      refine ⟨_, _, _, last, result, isLast, found.counted, by simp [answered],
        fun _ => ⟨rfl, found.accepted, i, found.minimal, found.below⟩, ?_⟩
      intro before head after whole distinct suffix
      exact found.eq_head whole distinct suffix

end OpenThesis.Debugger
