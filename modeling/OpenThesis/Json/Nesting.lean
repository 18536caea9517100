import OpenThesis.Json.Text

/-!
# Objects inside objects

What begins with an object is not completed by the text of another object.
-/

namespace OpenThesis.Json.Text

open OpenThesis.Text List Option

def brace : UInt8 := byte '{'

/-- Something is open, unless the value is complete; literal names contain no brace. -/
def Phase.Inner (stack : List Frame) : Phase → Prop
  | .done _ => True
  | .word rest _ => brace ∉ rest ∧ stack ≠ []
  | _ => stack ≠ []

def Scanner.Inner (s : Scanner) : Prop :=
  s.phase.Inner s.stack

section

variable {stack : List Frame} {s s' : Scanner} {b : UInt8} {maxDepth : Nat}

theorem complete_inner {value : Value} (completed : Scanner.complete stack value = some s) :
    s.Inner := by
  cases stack with
  | nil =>
    cases completed
    trivial
  | cons frame outer =>
    cases frame with
    | array items =>
      cases completed
      exact cons_ne_nil _ _
    | object members => cases completed
    | member members key =>
      cases completed
      exact cons_ne_nil _ _

theorem next_inner (stepped : Scanner.next stack b = some s) : s.Inner := by
  cases stack with
  | nil => cases stepped
  | cons frame outer =>
    cases frame with
    | array items | object members =>
      simp only [Scanner.next] at stepped
      split_ifs at stepped
      · cases stepped
        exact cons_ne_nil _ _
      · exact complete_inner stepped
    | member members key => cases stepped

theorem follow_inner (inner : s.Inner) (stepped : s.follow b = some s') : s'.Inner := by
  unfold Scanner.follow at stepped
  split_ifs at stepped
  · cases stepped
    exact inner
  · split at stepped
    · exact next_inner stepped
    · cases stepped

theorem scalar_inner {phase : Phase} (notEmpty : stack ≠ [])
    (begins : Scanner.scalar b = some phase) : phase.Inner stack := by
  unfold Scanner.scalar at begins
  split_ifs at begins
  all_goals cases begins
  · exact notEmpty
  · exact notEmpty
  · exact notEmpty
  · exact notEmpty
  all_goals exact ⟨by decide, notEmpty⟩

theorem beginValue_inner (notEmpty : stack ≠ [])
    (stepped : Scanner.beginValue maxDepth stack b = some s) : s.Inner := by
  unfold Scanner.beginValue at stepped
  split_ifs at stepped
  · cases stepped
    exact cons_ne_nil _ _
  · cases stepped
    exact cons_ne_nil _ _
  · rw [map_eq_some_iff] at stepped
    obtain ⟨phase, begins, rfl⟩ := stepped
    exact scalar_inner notEmpty begins

theorem endString_inner {isKey : Bool} {raw : Bytes}
    (stepped : Scanner.endString isKey stack raw = some s) : s.Inner := by
  unfold Scanner.endString at stepped
  split_ifs at stepped
  · split at stepped
    · cases stepped
      exact cons_ne_nil _ _
    · cases stepped
  · exact complete_inner stepped

theorem step_inner (inner : s.Inner) (stepped : s.step maxDepth b = some s') : s'.Inner := by
  cases Scanner.moves_of_step stepped with
  | follow _ followed => exact follow_inner inner followed
  | next stepped => exact next_inner stepped
  | begins begun => exact beginValue_inner inner begun
  | key | colon | string => exact inner
  | endString _ ended => exact endString_inner ended
  | number => exact inner
  | endNumber completed followed => exact follow_inner (complete_inner completed) followed
  | word => exact ⟨fun mem => inner.1 (mem_cons_of_mem _ mem), inner.2⟩
  | endWord completed => exact complete_inner completed

theorem foldlM_inner {text : Bytes} (inner : s.Inner)
    (scanned : text.foldlM (Scanner.step maxDepth) s = some s') : s'.Inner :=
  foldlM_invariant (motive := fun _ s => s.Inner)
    (fun _ _ _ _ inner stepped => step_inner inner stepped) [] inner scanned

end

/-- The scanner with more open around it. A value that was all becomes a part of that. -/
def Scanner.under (base : List Frame) (s : Scanner) : Option Scanner :=
  match s.phase with
  | .done value => Scanner.complete base value
  | phase => some ⟨phase, s.stack ++ base⟩

section

variable {base stack : List Frame} {s s' t t' : Scanner} {b : UInt8} {maxDepth : Nat}

theorem complete_append (stack : List Frame) (value : Value) :
    Scanner.complete (stack ++ base) value =
      (Scanner.complete stack value).bind (Scanner.under base) := by
  cases stack with
  | nil => rfl
  | cons frame outer =>
    cases frame with
    | array | object | member => rfl

theorem next_append (notEmpty : stack ≠ []) :
    Scanner.next (stack ++ base) b = (Scanner.next stack b).bind (Scanner.under base) := by
  obtain ⟨frame, outer, rfl⟩ := exists_cons_of_ne_nil notEmpty
  cases frame with
  | array items | object members =>
    simp only [Scanner.next, cons_append]
    split_ifs
    · rfl
    · exact complete_append outer _
    · rfl
  | member members key => rfl

theorem endString_append (notEmpty : stack ≠ []) (isKey : Bool) (raw : Bytes) :
    Scanner.endString isKey (stack ++ base) raw =
      (Scanner.endString isKey stack raw).bind (Scanner.under base) := by
  cases isKey with
  | false => exact complete_append stack _
  | true =>
    obtain ⟨frame, outer, rfl⟩ := exists_cons_of_ne_nil notEmpty
    cases frame with
    | array | object | member => rfl

theorem follow_append (notEmpty : stack ≠ []) :
    Scanner.follow ⟨.after, stack ++ base⟩ b =
      (Scanner.follow ⟨.after, stack⟩ b).bind (Scanner.under base) := by
  simp only [Scanner.follow]
  split_ifs
  · rfl
  · exact next_append notEmpty

theorem scalar_open {phase : Phase} (begins : Scanner.scalar b = some phase) (value : Value) :
    phase ≠ .done value := by
  unfold Scanner.scalar at begins
  split_ifs at begins
  all_goals
    cases begins
    simp

theorem beginValue_append (begun : Scanner.beginValue maxDepth (stack ++ base) b = some t) :
    (Scanner.beginValue maxDepth stack b).bind (Scanner.under base) = some t := by
  have shallow : (stack ++ base).length < maxDepth → stack.length < maxDepth := by
    rw [length_append]
    omega
  unfold Scanner.beginValue at begun ⊢
  split_ifs at begun with isBrace deep isBracket deep
  · rw [if_pos isBrace, if_pos (shallow deep)]
    exact begun
  · rw [if_neg isBrace, if_pos isBracket, if_pos (shallow deep)]
    exact begun
  · rw [if_neg isBrace, if_neg isBracket]
    obtain ⟨phase, begins, rfl⟩ := map_eq_some_iff.mp begun
    rw [begins]
    cases phase with
    | done value => exact absurd rfl (scalar_open begins value)
    | _ => rfl

theorem step_append {phase : Phase} (isOpen : ∀ value, phase ≠ .done value) (notEmpty : stack ≠ [])
    (stepped : Scanner.step maxDepth ⟨phase, stack ++ base⟩ b = some t) :
    (Scanner.step maxDepth ⟨phase, stack⟩ b).bind (Scanner.under base) = some t := by
  rw [← stepped]
  cases phase with
  | value close =>
    simp only [Scanner.step] at stepped ⊢
    split_ifs at stepped ⊢
    · rfl
    · exact (next_append notEmpty).symm
    · rw [stepped]
      exact beginValue_append stepped
  | key close =>
    simp only [Scanner.step]
    split_ifs
    · rfl
    · rfl
    · exact (next_append notEmpty).symm
    · rfl
  | colon =>
    simp only [Scanner.step]
    split_ifs <;> rfl
  | after => exact (follow_append notEmpty).symm
  | done value => exact absurd rfl (isOpen value)
  | string isKey raw escape =>
    simp only [Scanner.step]
    split_ifs
    · exact (endString_append notEmpty isKey raw).symm
    · cases escape.step b <;> rfl
  | number literal phase =>
    simp only [Scanner.step]
    cases phase.step b with
    | some phase => rfl
    | none =>
      simp only
      split_ifs
      · obtain ⟨frame, outer, rfl⟩ := exists_cons_of_ne_nil notEmpty
        cases frame with
        | array | member => exact (follow_append (cons_ne_nil _ _)).symm
        | object => rfl
      · rfl
  | word rest value =>
    simp only [Scanner.step]
    split
    · rfl
    · split_ifs
      · exact (complete_append stack value).symm
      · rfl
    · split_ifs <;> rfl

theorem complete_after {value : Value} (notEmpty : stack ≠ [])
    (completed : Scanner.complete stack value = some s) : s.phase = .after := by
  obtain ⟨frame, outer, rfl⟩ := exists_cons_of_ne_nil notEmpty
  cases frame with
  | array | member => exact Option.some.inj completed ▸ rfl
  | object => cases completed

theorem step_under (notEmpty : base ≠ []) (inner : s.Inner) (under : s.under base = some t)
    (first : s.step maxDepth b = some s') (second : t.step maxDepth b = some t') :
    s'.under base = some t' := by
  obtain ⟨phase, stack⟩ := s
  by_cases isOpen : ∀ value, phase ≠ .done value
  · have open' : stack ≠ [] ∧ t = ⟨phase, stack ++ base⟩ := by
      cases phase with
      | done value => exact absurd rfl (isOpen value)
      | word => exact ⟨inner.2, (Option.some.inj under).symm⟩
      | _ => exact ⟨inner, (Option.some.inj under).symm⟩
    have both := step_append isOpen open'.1 (open'.2 ▸ second)
    rwa [first] at both
  · simp only [not_forall, not_not] at isOpen
    obtain ⟨value, rfl⟩ := isOpen
    -- after a value there is only white space, which the second scanner skips as well
    have after := complete_after notEmpty under
    simp only [Scanner.step, Scanner.follow, after] at first second
    split_ifs at first second
    cases first
    cases second
    exact under

theorem foldlM_under (notEmpty : base ≠ []) {text : Bytes} (inner : s.Inner)
    (under : s.under base = some t) (first : text.foldlM (Scanner.step maxDepth) s = some s')
    (second : text.foldlM (Scanner.step maxDepth) t = some t') : s'.under base = some t' := by
  induction text generalizing s t with
  | nil =>
    cases first
    cases second
    exact under
  | cons b text ih =>
    rw [foldlM_cons, bind_eq_bind, bind_eq_some_iff] at first second
    obtain ⟨between, stepped, first⟩ := first
    obtain ⟨between', stepped', second⟩ := second
    exact ih (step_inner inner stepped) (step_under notEmpty inner under stepped stepped') first
      second

end

/-- A byte that can stand in a key and does not continue after one. -/
structure Ordinary (c : UInt8) : Prop where
  notSpace : isSpace c = false
  notColon : c ≠ byte ':'
  notComma : c ≠ byte ','
  notBracket : c ≠ byte ']'
  notBrace : c ≠ byte '}'

section

variable {s : Scanner} {c : UInt8} {maxDepth : Nat}

theorem next_none {stack : List Frame} (notComma : c ≠ byte ',') (notBracket : c ≠ byte ']')
    (notBrace : c ≠ byte '}') : Scanner.next stack c = none := by
  cases stack with
  | nil => rfl
  | cons frame outer =>
    cases frame with
    | array items => simp [Scanner.next, notComma, notBracket]
    | object members => simp [Scanner.next, notComma, notBrace]
    | member members key => rfl

theorem follow_none (ordinary : Ordinary c) : s.follow c = none := by
  unfold Scanner.follow
  rw [ordinary.notSpace, if_neg Bool.false_ne_true]
  split
  · exact next_none ordinary.notComma ordinary.notBracket ordinary.notBrace
  · rfl

theorem ordinary_brace : Ordinary brace := by
  constructor
  all_goals decide

theorem step_endString_none (ordinary : Ordinary c) {isKey : Bool} {stack : List Frame}
    {raw : Bytes} (ended : Scanner.endString isKey stack raw = some s) :
    s.step maxDepth c = none := by
  unfold Scanner.endString at ended
  split_ifs at ended
  · split at ended
    · cases ended
      simp [Scanner.step, ordinary.notSpace, ordinary.notColon]
    · cases ended
  · cases stack with
    | nil =>
      cases ended
      exact follow_none ordinary
    | cons frame outer =>
      cases frame with
      | array items =>
        cases ended
        exact follow_none ordinary
      | object members => cases ended
      | member members key =>
        cases ended
        exact follow_none ordinary

theorem step_brace (inner : s.Inner) : s.step maxDepth brace = none ∨
      s.stack ≠ [] ∧ s.step maxDepth brace = some ⟨.key true, .object [] :: s.stack⟩ ∨
      ∃ isKey raw, s.step maxDepth brace = some ⟨.string isKey raw .plain, s.stack⟩ := by
  obtain ⟨phase, stack⟩ := s
  cases phase with
  | value close =>
    have begins : Scanner.step maxDepth ⟨.value close, stack⟩ brace =
        if stack.length < maxDepth then some ⟨.key true, .object [] :: stack⟩ else none := by
      cases close with
      | true | false => rfl
    rw [begins]
    split_ifs
    · exact .inr (.inl ⟨inner, rfl⟩)
    · exact .inl rfl
  | key close =>
    cases close with
    | true | false => exact .inl rfl
  | colon => exact .inl rfl
  | after | done result => exact .inl (follow_none ordinary_brace)
  | string isKey raw escape =>
    cases escape with
    | plain => exact .inr (.inr ⟨isKey, raw ++ [brace], rfl⟩)
    | escaped | hex left => exact .inl rfl
  | number literal phase =>
    left
    have stops : phase.step brace = none := by
      cases phase with
      | minus | zero | digits | point | fraction | exponent | exponentSign | exponentDigits => rfl
    simp only [Scanner.step, stops]
    split_ifs
    · cases Scanner.complete stack (.number literal) with
      | none => rfl
      | some between => exact follow_none ordinary_brace
    · rfl
  | word rest value =>
    left
    have noBrace := inner.1
    simp only [Scanner.step]
    split
    · rfl
    · rename_i last
      rw [if_neg (by simpa using noBrace)]
    · rename_i expected rest _
      rw [if_neg (fun same => noBrace (by simp [same]))]

theorem step_start_brace : Scanner.start.step maxDepth brace =
    if 0 < maxDepth then some ⟨.key true, [.object []]⟩ else none :=
  rfl

theorem opened_inner : Scanner.Inner ⟨.key true, [.object []]⟩ :=
  cons_ne_nil _ _

theorem foldlM_nested {base : List Frame} (notEmpty : base ≠ []) {text : Bytes} {value : Value}
    (object : scan maxDepth (brace :: text) = some value) :
    (text.foldlM (Scanner.step maxDepth) ⟨.key true, .object [] :: base⟩).bind Scanner.result =
      none := by
  rw [scan, foldlM_cons, step_start_brace, bind_eq_bind] at object
  split_ifs at object
  · rw [bind_some, bind_eq_some_iff] at object
    obtain ⟨alone, scanned, result⟩ := object
    cases nested : text.foldlM (Scanner.step maxDepth) ⟨.key true, .object [] :: base⟩ with
    | none => rfl
    | some inside =>
      have inner := foldlM_inner opened_inner scanned
      have under := foldlM_under notEmpty opened_inner rfl scanned nested
      obtain ⟨phase, stack⟩ := alone
      cases phase with
      | done value =>
        simp only [bind_some, Scanner.result, complete_after notEmpty under]
      | number literal phase =>
        simp only [Scanner.result] at result
        split_ifs at result with ended
        exact absurd (isEmpty_iff.mp ended.2) inner
      | value | key | colon | after | string | word => cases result
  · cases object

theorem inner_refuses {rest : Bytes} {value : Value} (ordinary : Ordinary c)
    (object : scan maxDepth (brace :: quote :: c :: rest) = some value) (inner : s.Inner) :
    ((brace :: quote :: c :: rest).foldlM (Scanner.step maxDepth) s).bind
      Scanner.result = none := by
  rw [foldlM_cons, bind_eq_bind]
  rcases step_brace inner with refused | ⟨notEmpty, begins⟩ | ⟨isKey, raw, continues⟩
  · rw [refused]
    rfl
  · rw [begins]
    exact foldlM_nested notEmpty object
  · rw [continues, bind_some, foldlM_cons, bind_eq_bind]
    have ends : Scanner.step maxDepth ⟨.string isKey raw .plain, s.stack⟩ quote =
        Scanner.endString isKey s.stack raw := rfl
    rw [ends]
    cases ended : Scanner.endString isKey s.stack raw with
    | none => rfl
    | some between =>
      rw [bind_some, foldlM_cons, bind_eq_bind, step_endString_none ordinary ended]
      rfl

theorem scan_append_object {text rest : Bytes} {value : Value} (ordinary : Ordinary c)
    (object : scan maxDepth (brace :: quote :: c :: rest) = some value) :
    scan maxDepth (brace :: text ++ brace :: quote :: c :: rest) = none := by
  rw [scan, foldlM_append, bind_eq_bind, bind_assoc]
  cases scanned : (brace :: text).foldlM (Scanner.step maxDepth) .start with
  | none => rfl
  | some s =>
    rw [bind_some]
    apply inner_refuses ordinary object
    rw [foldlM_cons, step_start_brace, bind_eq_bind] at scanned
    split_ifs at scanned
    · exact foldlM_inner opened_inner scanned
    · cases scanned

end

end OpenThesis.Json.Text
