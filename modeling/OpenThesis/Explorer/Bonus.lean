import OpenThesis.Explorer.Session

/-!
# The bonus for a first satisfaction

The first push after an assertion was first satisfied should give its entry a bonus
(`RecordAssertionEval`, `PushFrontier`).
-/

namespace OpenThesis.Explorer.ExplorerState

open SnapshotTree List

universe u

variable {n : Nat} {S : Type u}

def Creates (e : ExplorerState n S) : ExplorerOp S → Prop
  | .pushFrontier id _ => id ∈ e.tree.snapshots
  | _ => False

/-- The operation evaluates a message that must hold at least once, and it holds. -/
def Satisfies (message : String) : ExplorerOp S → Prop
  | .recordAssertionEval eval =>
    eval.assertType = "sometimes" ∧ eval.message = message ∧ eval.condition = true
  | _ => False

def bonusCount (e : ExplorerState n S) (message : String) : Nat :=
  e.grants.1.count (message, 5000)

variable [BEq S] [LT S] [DecidableLT S]

/-- The operations are split at the first that satisfies the message. -/
structure SatisfiedAt (message : String) (ops earlier : List (ExplorerOp S)) (op : ExplorerOp S)
    (since : List (ExplorerOp S)) : Prop where
  split : ops = earlier ++ op :: since
  satisfies : Satisfies message op
  first : ∀ other ∈ earlier, ¬ Satisfies message other

/-- The message was satisfied, and nothing was pushed since. -/
def Due (e : ExplorerState n S) (ops : List (ExplorerOp S)) (message : String) : Prop :=
  ∃ earlier op since, SatisfiedAt message ops earlier op since ∧
    ∀ between push later, since = between ++ push :: later →
      ¬ (e.run (earlier ++ op :: between)).Creates push

/-- The message was satisfied, and something was pushed since. -/
def Past (e : ExplorerState n S) (ops : List (ExplorerOp S)) (message : String) : Prop :=
  ∃ earlier op since, SatisfiedAt message ops earlier op since ∧
    ∃ between push later, since = between ++ push :: later ∧
      (e.run (earlier ++ op :: between)).Creates push

/-- Every first push after a first satisfaction gives the bonus once, and no later push
gives it again. -/
def GrantsOnce (e : ExplorerState n S) (ops : List (ExplorerOp S)) : Prop :=
  ∀ before push after, ops = before ++ push :: after → (e.run before).Creates push →
    ∀ message, (e.Due before message → (e.run before).bonusCount message = 1) ∧
      (e.Past before message → (e.run before).bonusCount message = 0)

omit [BEq S] [LT S] [DecidableLT S]

def Known (e : ExplorerState n S) : Prop :=
  ∀ message, e.stepSometimesEvals[message]? = some true → message ∈ e.sometimesSatisfied

variable {e : ExplorerState n S}

theorem known_evalSometimes (known : e.Known) (message : String) (condition : Bool) :
    (e.evalSometimes message condition).Known := by
  intro other holds
  unfold evalSometimes at holds ⊢
  cases condition with
  | true =>
    simp only [if_true] at holds ⊢
    rw [Std.ExtTreeSet.mem_insert]
    rw [Keyed.lookup_insert] at holds
    by_cases same : other = message
    · exact Or.inl (by rw [same]; exact Std.ReflCmp.compare_self)
    · rw [if_neg same] at holds
      exact Or.inr (known other holds)
  | false =>
    simp only [Bool.false_eq_true, if_false] at holds ⊢
    split_ifs at holds ⊢ with already
    · exact known other holds
    · dsimp only at holds ⊢
      rw [Keyed.lookup_insert] at holds
      by_cases same : other = message
      · simp [same] at holds
      · rw [if_neg same] at holds
        exact known other holds

theorem known_evalByType (known : e.Known) (eval : AssertionEval) : (e.evalByType eval).Known := by
  unfold evalByType
  split
  case h_1 | h_2 => exact known_evalSometimes known _ _
  case h_3 =>
    unfold evalReachable
    split_ifs <;> exact known
  case h_4 => exact known

theorem known_recordAssertionEval (known : e.Known) (eval : AssertionEval) :
    (e.recordAssertionEval eval).Known := by
  have next := known_evalByType
    (e := { e with
      propertyCounts := e.propertyCounts.insert (eval.assertType ++ "\x00" ++ eval.message)
        (e.countProperty eval) })
    known eval
  unfold recordAssertionEval
  dsimp only
  split_ifs <;> exact next

theorem known_newExplorer (coverageMapSize : Int64) (deterministicCoverage : Bool) :
    (newExplorer S coverageMapSize deterministicCoverage).Known := by
  intro message holds
  simp [newExplorer] at holds

theorem grantSometimes_of_known {granted : List (String × Nat) × Std.ExtTreeSet String}
    {entry : String × Bool} (known : entry.2 = true → entry.1 ∈ granted.2) (message : String) :
    (grantSometimes granted entry).2 = granted.2 ∧
      (grantSometimes granted entry).1.count (message, 5000) = granted.1.count (message, 5000) := by
  unfold grantSometimes
  split_ifs with holds fails
  · exact absurd (known holds.1) holds.2
  · rw [count_append, count_singleton]
    simp
  · exact ⟨rfl, rfl⟩

theorem count_foldl_grantSometimes {evals : List (String × Bool)}
    {granted : List (String × Nat) × Std.ExtTreeSet String}
    (known : ∀ eval ∈ evals, eval.2 = true → eval.1 ∈ granted.2) (message : String) :
    (evals.foldl grantSometimes granted).1.count (message, 5000) =
      granted.1.count (message, 5000) := by
  induction evals generalizing granted with
  | nil => rfl
  | cons eval evals ih =>
    obtain ⟨satisfied, same⟩ :=
      grantSometimes_of_known (known eval mem_cons_self) message
    rw [foldl_cons, ih, same]
    intro other mem
    rw [satisfied]
    exact known other (mem_cons_of_mem _ mem)

theorem bonusCount_eq_zero (known : e.Known) (message : String) : e.bonusCount message = 0 := by
  unfold bonusCount grants
  rw [count_foldl_grantSometimes]
  · rfl
  · rintro ⟨name, condition⟩ mem rfl
    exact known name (Std.ExtTreeMap.mem_toList_iff_getElem?_eq_some.mp mem)

theorem exists_satisfiedAt {ops : List (ExplorerOp S)} {op : ExplorerOp S} (mem : op ∈ ops)
    {message : String} (satisfies : Satisfies message op) :
    ∃ earlier first since, SatisfiedAt message ops earlier first since := by
  classical
  have found : (ops.find? fun op => decide (Satisfies message op)).isSome := by
    rw [find?_isSome]
    exact ⟨op, mem, decide_eq_true satisfies⟩
  obtain ⟨first, found⟩ := Option.isSome_iff_exists.mp found
  obtain ⟨holds, earlier, since, split, before⟩ := find?_eq_some_iff_append.mp found
  refine ⟨earlier, first, since, split, of_decide_eq_true holds, ?_⟩
  intro other mem
  have refused := before other mem
  simpa using refused

variable [BEq S] [LT S] [DecidableLT S]

theorem known_apply (known : e.Known) (op : ExplorerOp S) : (e.apply op).Known := by
  cases op with
  | recordAssertionEval eval => exact known_recordAssertionEval known eval
  | pushFrontier id rating =>
    cases found : e.tree.get id with
    | error err =>
      rw [apply, pushFrontier_of_error found]
      exact known
    | ok snap =>
      intro message holds
      rw [apply, pushFrontier, found] at holds
      simp at holds
  | clearStepAssertionEvals =>
    intro message holds
    simp [apply, clearStepAssertionEvals] at holds
  | _ => exact known

theorem known_run (known : e.Known) (ops : List (ExplorerOp S)) : (e.run ops).Known :=
  foldlRecOn (motive := Known) ops apply known fun _ known op _ => known_apply known op

theorem exists_due (e : ExplorerState n S) {message : String} (before : List (ExplorerOp S))
    {push op : ExplorerOp S} (creates : (e.run before).Creates push) (mem : op ∈ before)
    (satisfies : Satisfies message op) :
    ∃ earlier first, earlier ++ [first] <+: before ++ [push] ∧
      (e.run earlier).Creates first ∧ e.Due earlier message := by
  -- The induction is on the length: an earlier push leaves a shorter run before it.
  induction length : before.length using Nat.strong_induction_on
    generalizing before push op with
  | _ size ih =>
    obtain ⟨earlier, first, since, satisfied⟩ := exists_satisfiedAt mem satisfies
    by_cases pushed : ∃ between push later, since = between ++ push :: later ∧
        (e.run (earlier ++ first :: between)).Creates push
    · obtain ⟨between, sooner, later, rfl, creates'⟩ := pushed
      have shorter : (earlier ++ first :: between).length < size := by
        rw [← length, satisfied.split]
        simp
      have inside : (earlier ++ first :: between) ++ [sooner] <+: before ++ [push] := by
        rw [satisfied.split]
        exact ⟨later ++ [push], by simp⟩
      obtain ⟨start, due, within, now⟩ := ih _ shorter _ creates'
        (mem_append_right _ mem_cons_self) satisfied.satisfies rfl
      exact ⟨start, due, within.trans inside, now⟩
    · refine ⟨before, push, prefix_rfl, creates, earlier, first, since, satisfied, ?_⟩
      intro between sooner later split creates'
      exact pushed ⟨between, sooner, later, split, creates'⟩

/-- The bonus is granted as asked for exactly if nothing is pushed after a message was
satisfied: no push ever grants it. -/
theorem grantsOnce_iff (coverageMapSize : Int64) (ops : List (ExplorerOp S)) :
    (newExplorer S coverageMapSize false).GrantsOnce ops ↔
      ∀ before push after, ops = before ++ push :: after →
        ((newExplorer S coverageMapSize false).run before).Creates push →
        ∀ op ∈ before, ∀ message, ¬ Satisfies message op := by
  have never : ∀ before message,
      ((newExplorer S coverageMapSize false).run before).bonusCount message = 0 :=
    fun before message => bonusCount_eq_zero (known_run (known_newExplorer _ _) before) message
  constructor
  · intro once before push after split creates op mem message satisfies
    obtain ⟨earlier, first, ⟨rest, within⟩, now, due⟩ := exists_due _ before creates mem satisfies
    have position : ops = earlier ++ first :: (rest ++ after) := by
      have whole := congrArg (· ++ after) within
      simpa [split] using whole.symm
    have granted := (once earlier first _ position now message).1 due
    rw [never] at granted
    contradiction
  · intro nothing before push after split creates message
    refine ⟨fun due => ?_, fun _ => never before message⟩
    obtain ⟨earlier, op, since, satisfied, _⟩ := due
    have mem : op ∈ before := by
      rw [satisfied.split]
      exact mem_append_right _ mem_cons_self
    exact absurd satisfied.satisfies (nothing before push after split creates op mem message)

/-- An evaluation that holds, then a push: the bonus is due, and the entry has none. -/
theorem grantsOnce_fails :
    let eval : ExplorerOp Nat :=
      .recordAssertionEval
        { message := "leader elected", assertType := "sometimes", condition := true }
    let push : ExplorerOp Nat := .pushFrontier rootID { score := 0, energy := 1 }
    (newExplorer Nat 4 false).Due [eval] "leader elected" ∧
      ((newExplorer Nat 4 false).run [eval, push]).frontier.toList.map (·.score.sometimesBoost) =
        [0] ∧
      ¬ (newExplorer Nat 4 false).GrantsOnce [eval, push] := by
  intro eval push
  have due : (newExplorer Nat 4 false).Due [eval] "leader elected" := by
    refine ⟨[], eval, [], ⟨rfl, ⟨rfl, rfl, rfl⟩, by simp⟩, ?_⟩
    intro between sooner later split
    simp at split
  have creates : ((newExplorer Nat 4 false).run [eval]).Creates push := by
    change rootID ∈ newTree.snapshots
    decide
  refine ⟨due, by decide +kernel, fun once => ?_⟩
  have granted := (once [eval] push [] rfl creates "leader elected").1 due
  have none : ((newExplorer Nat 4 false).run [eval]).bonusCount "leader elected" = 0 := by
    decide +kernel
  rw [none] at granted
  contradiction

end OpenThesis.Explorer.ExplorerState
