import Mathlib.Data.List.Basic
import OpenThesis.Text.Digits

/-!
# Choices of the guest

The SDK (`sdk/go/random/random.go`) and the agent that writes choice overrides
(`cmd/openthesis-init/agent.go`). The mark of a choice drawn from the generator is not in the
program.
-/

namespace OpenThesis.Sdk

open Text List

universe u

def marshal (overrides : List Int) : List Char :=
  '[' :: ([','].intercalate (overrides.map formatInt) ++ [']'])

def unmarshal (text : List Char) : Option (List Int) :=
  if text.head? = some '[' ∧ text.getLast? = some ']' then
    let body := text.tail.dropLast
    if body = [] then some [] else (body.splitOn ',').mapM parseInt
  else none

theorem comma_notMem_formatInt (n : Int) : ',' ∉ formatInt n := by
  have notDigit : ∀ m : Nat, ',' ∉ Nat.toDigits 10 m :=
    fun m mem => absurd (isDigit_of_mem_toDigits mem) (by decide)
  cases n with
  | ofNat n => exact notDigit n
  | negSucc n =>
    unfold formatInt
    rw [mem_cons]
    exact fun mem => mem.elim (by decide) (notDigit _)

theorem mapM_parseInt (overrides : List Int) :
    (overrides.map formatInt).mapM parseInt = some overrides := by
  induction overrides with
  | nil => rfl
  | cons n overrides ih =>
    rw [map_cons, mapM_cons, parseInt_formatInt, ih]
    rfl

theorem unmarshal_marshal {overrides : List Int} (nonempty : overrides ≠ []) :
    unmarshal (marshal overrides) = some overrides := by
  have free : ∀ digits ∈ overrides.map formatInt, ',' ∉ digits := by
    intro digits mem
    obtain ⟨n, _, rfl⟩ := mem_map.mp mem
    exact comma_notMem_formatInt n
  have split := splitOn_intercalate ',' free (by simpa using nonempty)
  have body : (marshal overrides).tail.dropLast = [','].intercalate (overrides.map formatInt) := by
    unfold marshal
    rw [tail_cons, dropLast_concat]
  have decoded := mapM_parseInt overrides
  rw [← split] at decoded
  unfold unmarshal
  rw [if_pos ⟨rfl, by rw [marshal, ← cons_append, getLast?_concat]⟩, body]
  dsimp only
  split
  case isTrue empty =>
    -- No integer has an empty text.
    rw [empty] at decoded
    cases decoded
  case isFalse => exact decoded

def splitMix64 (state : UInt64) : UInt64 × UInt64 :=
  let state := state + 0x9e3779b97f4a7c15
  let z := (state ^^^ (state >>> 30)) * 0xbf58476d1ce4e5b9
  let z := (z ^^^ (z >>> 27)) * 0x94d049bb133111eb
  (z ^^^ (z >>> 31), state)

/-- The generator and the overrides. -/
structure Guest (G : Type u) where
  prng : G
  overridesFile : Option (List Char) := none
  choiceOverrides : List Int := []
  choicePos : Nat := 0
  choiceGen : Nat := 0
  deriving DecidableEq, Repr

structure Choice where
  options : Nat
  index : Nat
  drawn : Bool
  deriving DecidableEq, Repr

inductive Call where
  | choose (options : Nat)
  | uint64
  deriving DecidableEq, Repr

inductive GuestAction where
  | setChoiceOverrides (overrides : List Int)
  | call (c : Call)
  deriving DecidableEq, Repr

namespace Guest

variable {G : Type u}

def setChoiceOverrides (g : Guest G) (overrides : List Int) : Guest G :=
  { g with overridesFile := if overrides.isEmpty then none else some (marshal overrides) }

/-- The overrides in the file and its generation, the number of bytes of a first read of at most 64,
unless it was read before; the second read gets at most 4096 bytes. -/
def readOverrides (g : Guest G) : Option (List Int × Nat) :=
  match g.overridesFile with
  | none => none
  | some text =>
    let gen := (text.take 64).length
    if gen = g.choiceGen ∧ 0 < g.choiceOverrides.length then none
    else
      let buf := text.take 4096
      if buf.length = 0 then none else (unmarshal buf).map (·, gen)

def refreshChoiceOverrides (g : Guest G) : Guest G :=
  match g.readOverrides with
  | none => g
  | some (overrides, gen) =>
    { g with choiceOverrides := overrides, choiceGen := gen, choicePos := 0 }

def loaded (g : Guest G) : Guest G :=
  if g.choicePos = 0 then g.refreshChoiceOverrides else g

def overrideAt (g : Guest G) (pos : Nat) : Option Int :=
  (g.choiceOverrides[pos]?).filter (0 ≤ ·)

variable (next : G → UInt64 × G)

def uint64 (g : Guest G) : UInt64 × Guest G :=
  ((next g.prng).1, { g with prng := (next g.prng).2 })

def chooseIndex (g : Guest G) (options : Nat) : Choice × Guest G :=
  let counted := { g with choicePos := g.choicePos + 1 }
  match g.overrideAt g.choicePos with
  | some override => ({ options, index := override.toNat % options, drawn := false }, counted)
  | none =>
    ({ options,
       index := ((counted.uint64 next).1 % UInt64.ofNat options).toNat
       drawn := true },
      (counted.uint64 next).2)

def call (g : Guest G) : Call → List Choice × Guest G
  | .choose options =>
    if options ≤ 1 then ([], g)
    else ([(g.loaded.chooseIndex next options).1], (g.loaded.chooseIndex next options).2)
  | .uint64 => ([], (g.uint64 next).2)

def chosen (g : Guest G) : List Call → List Choice
  | [] => []
  | c :: calls => (g.call next c).1 ++ (g.call next c).2.chosen calls

def act (g : Guest G) : GuestAction → Guest G
  | .setChoiceOverrides overrides => g.setChoiceOverrides overrides
  | .call c => (g.call next c).2

def run (g : Guest G) (actions : List GuestAction) : Guest G :=
  actions.foldl (act next) g

/-- Overrides that are written now are obeyed, and when they are removed now every
choice is drawn. -/
def Obeys (g : Guest G) : Prop :=
  (∀ overrides : List Int, (marshal overrides).length ≤ 4096 → ∀ (calls : List Call) (i : Nat)
    (choice : Choice), ((g.setChoiceOverrides overrides).chosen next calls)[i]? = some choice →
      ∀ k, overrides[i]? = some k → 0 ≤ k → choice.index = k.toNat % choice.options) ∧
  ∀ calls, ∀ choice ∈ (g.setChoiceOverrides []).chosen next calls, choice.drawn = true

variable {next} {g : Guest G}

variable {options : Nat}

theorem options_chooseIndex (options : Nat) : (g.chooseIndex next options).1.options = options := by
  unfold chooseIndex
  cases g.overrideAt g.choicePos <;> rfl

theorem chooseIndex_snd (options : Nat) :
    (g.chooseIndex next options).2.choiceOverrides = g.choiceOverrides ∧
      (g.chooseIndex next options).2.choicePos = g.choicePos + 1 := by
  unfold chooseIndex
  cases g.overrideAt g.choicePos <;> exact ⟨rfl, rfl⟩

theorem loaded_of_pos (counted : 0 < g.choicePos) : g.loaded = g :=
  if_neg (Nat.ne_of_gt counted)

theorem readOverrides_of_fits (unread : g.choiceOverrides = []) {overrides : List Int}
    (nonempty : overrides ≠ []) (fits : (marshal overrides).length ≤ 4096) :
    ((g.setChoiceOverrides overrides).readOverrides).map Prod.fst = some overrides := by
  unfold readOverrides setChoiceOverrides
  rw [if_neg (by simpa using nonempty)]
  dsimp only
  rw [unread, if_neg (by simp), take_of_length_le fits, if_neg (by simp [marshal]),
    unmarshal_marshal nonempty]
  rfl

/-- The overrides the process works with, and how many of them it has used. -/
structure Follows (g : Guest G) (overrides : List Int) (used : Nat) : Prop where
  overrides_eq : g.loaded.choiceOverrides = overrides
  used_eq : g.loaded.choicePos = used

theorem follows_setChoiceOverrides (first : g.choicePos = 0) (unread : g.choiceOverrides = [])
    {overrides : List Int} (fits : (marshal overrides).length ≤ 4096) :
    (g.setChoiceOverrides overrides).Follows overrides 0 := by
  have first' : (g.setChoiceOverrides overrides).choicePos = 0 := first
  have now : (g.setChoiceOverrides overrides).loaded =
      (g.setChoiceOverrides overrides).refreshChoiceOverrides := if_pos first'
  unfold refreshChoiceOverrides at now
  by_cases empty : overrides = []
  · subst empty
    constructor
    · rw [now]
      exact unread
    · rw [now]
      exact first
  · obtain ⟨⟨read, gen⟩, found, rfl⟩ :=
      Option.map_eq_some_iff.mp (readOverrides_of_fits unread empty fits)
    rw [found] at now
    constructor <;> rw [now]

variable {overrides : List Int} {used : Nat}

theorem loaded_uint64 : (g.uint64 next).2.loaded = { g.loaded with prng := (next g.prng).2 } := by
  have read : (g.uint64 next).2.readOverrides = g.readOverrides := rfl
  by_cases first : g.choicePos = 0
  · have first' : (g.uint64 next).2.choicePos = 0 := first
    unfold loaded refreshChoiceOverrides
    rw [if_pos first, if_pos first', read]
    cases g.readOverrides <;> rfl
  · have counted : (g.uint64 next).2.choicePos ≠ 0 := first
    unfold loaded
    rw [if_neg first, if_neg counted]
    rfl

theorem Follows.uint64 (follows : g.Follows overrides used) :
    (g.uint64 next).2.Follows overrides used := by
  constructor
  · rw [loaded_uint64]
    exact follows.overrides_eq
  · rw [loaded_uint64]
    exact follows.used_eq

theorem Follows.chooseIndex (follows : g.Follows overrides used) (options : Nat) :
    (g.loaded.chooseIndex next options).2.Follows overrides (used + 1) := by
  obtain ⟨same, counted⟩ : (g.loaded.chooseIndex next options).2.choiceOverrides =
        g.loaded.choiceOverrides ∧
      (g.loaded.chooseIndex next options).2.choicePos = g.loaded.choicePos + 1 :=
    chooseIndex_snd options
  have kept : (g.loaded.chooseIndex next options).2.loaded =
      (g.loaded.chooseIndex next options).2 := loaded_of_pos (counted ▸ Nat.succ_pos _)
  constructor
  · rw [kept, same]
    exact follows.overrides_eq
  · rw [kept, counted, follows.used_eq]

theorem chosen_single (single : options ≤ 1) (calls : List Call) :
    g.chosen next (.choose options :: calls) = g.chosen next calls := by
  rw [chosen, call, if_pos single]
  rfl

theorem chosen_choose (several : ¬ options ≤ 1) (calls : List Call) :
    g.chosen next (.choose options :: calls) = (g.loaded.chooseIndex next options).1 ::
        (g.loaded.chooseIndex next options).2.chosen next calls := by
  rw [chosen, call, if_neg several]
  rfl

theorem Follows.chosen (follows : g.Follows overrides used) {calls : List Call} {i : Nat}
    {choice : Choice} (made : (g.chosen next calls)[i]? = some choice) :
    ∃ (now : Guest G) (options : Nat), now.choiceOverrides = overrides ∧
      now.choicePos = used + i ∧ choice = (now.chooseIndex next options).1 := by
  induction calls generalizing g used i with
  | nil => cases made
  | cons c calls ih =>
    cases c with
    | uint64 => exact ih follows.uint64 made
    | choose options =>
      by_cases single : options ≤ 1
      · rw [chosen_single single] at made
        exact ih follows made
      · rw [chosen_choose single] at made
        cases i with
        | zero =>
          exact ⟨g.loaded, options, follows.overrides_eq, follows.used_eq,
            (Option.some.inj made).symm⟩
        | succ i =>
          obtain ⟨now, options, same, counted, here⟩ := ih (follows.chooseIndex _) made
          refine ⟨now, options, same, ?_, here⟩
          rw [counted, Nat.add_assoc, Nat.add_comm 1]

theorem obeys_of_first (first : g.choicePos = 0) (unread : g.choiceOverrides = []) :
    g.Obeys next := by
  constructor
  · intro overrides fits calls i choice made k proposed nonneg
    obtain ⟨now, options, same, counted, rfl⟩ :=
      (follows_setChoiceOverrides first unread fits).chosen made
    have found : now.overrideAt now.choicePos = some k := by
      simp [overrideAt, same, counted, proposed, nonneg]
    rw [chooseIndex, found]
  · intro calls choice mem
    obtain ⟨i, made⟩ := mem_iff_getElem?.mp mem
    have removed : (g.setChoiceOverrides []).Follows [] 0 :=
      follows_setChoiceOverrides first unread (by decide)
    obtain ⟨now, _, same, _, rfl⟩ := removed.chosen made
    simp [chooseIndex, overrideAt, same]

theorem chosen_of_pos (counted : 0 < g.choicePos) (overrides : List Int) :
    (g.setChoiceOverrides overrides).chosen next [.choose 2] = [(g.chooseIndex next 2).1] := by
  have counted' : 0 < (g.setChoiceOverrides overrides).choicePos := counted
  rw [chosen_choose (by decide), loaded_of_pos counted']
  have same : (g.setChoiceOverrides overrides).overrideAt
      (g.setChoiceOverrides overrides).choicePos = g.overrideAt g.choicePos := rfl
  unfold chooseIndex
  rw [same]
  cases g.overrideAt g.choicePos <;> rfl

theorem not_obeys_of_pos (counted : 0 < g.choicePos) : ¬ g.Obeys next := by
  rintro ⟨obeyed, _⟩
  -- The next choice would have to obey two different proposals.
  have proposed : ∀ k : Nat, (marshal [(k : Int)]).length ≤ 4096 →
      (g.chooseIndex next 2).1.index = k % 2 := by
    intro k fits
    have made : ((g.setChoiceOverrides [(k : Int)]).chosen next [.choose 2])[0]? =
        some (g.chooseIndex next 2).1 := by
      rw [chosen_of_pos counted]
      rfl
    have index := obeyed [(k : Int)] fits [.choose 2] 0 _ made k rfl (Int.natCast_nonneg k)
    rwa [options_chooseIndex, Int.toNat_natCast] at index
  have zero := proposed 0 (by decide)
  have one := proposed 1 (by decide)
  rw [zero] at one
  exact absurd one (by decide)

def Unread (g : Guest G) : Prop :=
  g.choicePos = 0 → g.choiceOverrides = []

theorem unread_act (unread : g.Unread) (action : GuestAction) : (g.act next action).Unread := by
  cases action with
  | setChoiceOverrides overrides => exact unread
  | call c =>
    cases c with
    | uint64 => exact unread
    | choose options =>
      unfold act call
      dsimp only
      split
      case isTrue => exact unread
      case isFalse =>
        intro first
        rw [(chooseIndex_snd options).2] at first
        cases first

theorem unread_run (seed : G) (history : List GuestAction) :
    (run next { prng := seed } history).Unread :=
  foldlRecOn (motive := Unread) history _ (fun _ => rfl)
    fun _ unread action _ => unread_act unread action

theorem choicePos_act (action : GuestAction) : (g.act next action).choicePos = 0 ↔
      g.choicePos = 0 ∧ ∀ options, action = .call (.choose options) → options ≤ 1 := by
  cases action with
  | setChoiceOverrides overrides =>
    exact ⟨fun first => ⟨first, fun _ same => by cases same⟩, And.left⟩
  | call c =>
    cases c with
    | uint64 => exact ⟨fun first => ⟨first, fun _ same => by cases same⟩, And.left⟩
    | choose options =>
      unfold act call
      dsimp only
      split
      case isTrue single =>
        refine ⟨fun first => ⟨first, fun _ same => ?_⟩, And.left⟩
        cases same
        exact single
      case isFalse several =>
        rw [(chooseIndex_snd options).2]
        exact ⟨fun first => absurd first (Nat.succ_ne_zero _),
          fun first => absurd (first.2 options rfl) several⟩

theorem choicePos_run (history : List GuestAction) : (run next g history).choicePos = 0 ↔
      g.choicePos = 0 ∧ ∀ options, .call (.choose options) ∈ history → options ≤ 1 := by
  induction history generalizing g with
  | nil => simp [run]
  | cons action history ih =>
    change (run next (g.act next action) history).choicePos = 0 ↔ _
    rw [ih, choicePos_act, and_assoc, ← forall_and]
    refine and_congr_right fun _ => forall_congr' fun options => ?_
    rw [mem_cons, or_imp, eq_comm]

/-- Overrides are obeyed, and their removal is noticed, exactly in a process that
has not yet chosen between several options. -/
theorem obeys_iff (next : G → UInt64 × G) (seed : G) (history : List GuestAction) :
    (run next { prng := seed } history).Obeys next ↔
      ∀ options, GuestAction.call (.choose options) ∈ history → options ≤ 1 := by
  have counted : (run next { prng := seed } history).choicePos = 0 ↔
      0 = 0 ∧ ∀ options, GuestAction.call (.choose options) ∈ history → options ≤ 1 :=
    choicePos_run history
  rw [and_iff_right rfl] at counted
  rw [← counted]
  constructor
  · intro obeys
    by_contra chose
    exact not_obeys_of_pos (Nat.pos_of_ne_zero chose) obeys
  · intro first
    exact obeys_of_first first (unread_run seed history first)

/-- After a choice with the overrides `0, 0, 0` a process follows them instead of the new override
`1`, and also if they were removed. -/
theorem stale_overrides :
    ((run splitMix64 { prng := 42 }
          [.setChoiceOverrides [0, 0, 0], .call (.choose 2)]).setChoiceOverrides [1]).chosen
        splitMix64 [.choose 2] = [{ options := 2, index := 0, drawn := false }] ∧
      ((run splitMix64 { prng := 42 }
          [.setChoiceOverrides [0, 0, 0], .call (.choose 2)]).setChoiceOverrides []).chosen
        splitMix64 [.choose 2] = [{ options := 2, index := 0, drawn := false }] := by
  decide +kernel

end Guest

end OpenThesis.Sdk
