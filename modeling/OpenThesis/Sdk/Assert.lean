import OpenThesis.Json.Core
import OpenThesis.Keyed.Core

/-!
# Assertions of the Go SDK

A call writes a declaration at first and an event for one in 500 passing evaluations of its site and
all failing ones (`sdk/go/assert/assert.go`). The hash of a site is arbitrary.
-/

namespace OpenThesis.Sdk

open List Std

open Json (Json)

def defaultPassedSampleRate : UInt64 := 500

inductive AssertType where
  | always
  | alwaysOrUnreachable
  | sometimes
  | reachable
  | unreachable
  | sometimesAll
  | everSince
  deriving DecidableEq, Repr

def AssertType.name : AssertType → String
  | always => "always"
  | alwaysOrUnreachable => "always_or_unreachable"
  | sometimes => "sometimes"
  | reachable => "reachable"
  | unreachable => "unreachable"
  | sometimesAll => "sometimes_all"
  | everSince => "ever_since"

structure Location where
  file : String
  line : Nat
  deriving DecidableEq, Repr

abbrev Details := ExtTreeMap String (Option Json)

def marshals (details : Details) : Bool :=
  details.toList.all fun detail => detail.2.isSome

structure AssertionBody where
  hit : Bool
  condition : Bool
  message : String
  assertType : AssertType
  mustHit : Bool
  id : String
  details : Details := ∅
  location : Location

inductive AssertCall where
  | always (condition : Bool) (message : String) (details : Details)
  | alwaysOrUnreachable (condition : Bool) (message : String) (details : Details)
  | sometimes (condition : Bool) (message : String) (details : Details)
  | reachable (message : String) (details : Details)
  | unreachable (message : String) (details : Details)
  | sometimesAll (message : String) (namedBools : ExtTreeMap String Bool) (details : Details)
  | alwaysGreaterThan (left right : Int64) (message : String) (details : Details)
  | sometimesGreaterThan (left right : Int64) (message : String) (details : Details)
  | alwaysEqual (left right : Int64) (message : String) (details : Details)
  | sometimesEqual (left right : Int64) (message : String) (details : Details)
  | sometimesEach (label key : String) (details : Details)
  | everSince (condition : Bool) (message : String) (details : Details)

structure AssertSite where
  location : Location
  call : AssertCall

/-- A call of an assertion. -/
structure Evaluation where
  condition : Bool
  message : String
  assertType : AssertType
  mustHit : Bool
  details : Details
  location : Location

def withOperands (left right : Int64) (details : Details) : Details :=
  (details.insert "left_value" (some (.num left.toInt))).insert "right_value"
    (some (.num right.toInt))

def withSubGoals (namedBools : ExtTreeMap String Bool) (details : Details) : Details :=
  let goals := namedBools.toList
  ((details.insert "sub_goals"
      (some (.obj (goals.map fun goal => (goal.1, .bool goal.2))))).insert "satisfied_count"
      (some (.num (goals.countP fun goal => goal.2)))).insert "total_count"
    (some (.num goals.length))

def everSinceKey (message : String) : String :=
  "ever_since:" ++ message

namespace AssertSite

def arm (armed : ExtTreeSet String) (site : AssertSite) : ExtTreeSet String :=
  match site.call with
  | .everSince true message _ => armed.insert (everSinceKey message)
  | _ => armed

def evaluation (armed : ExtTreeSet String) (site : AssertSite) : Evaluation :=
  match site.call with
  | .always condition message details =>
    { condition, message, assertType := .always, mustHit := true, details
      location := site.location }
  | .alwaysOrUnreachable condition message details =>
    { condition, message, assertType := .alwaysOrUnreachable, mustHit := false, details
      location := site.location }
  | .sometimes condition message details =>
    { condition, message, assertType := .sometimes, mustHit := true, details
      location := site.location }
  | .reachable message details =>
    { condition := true, message, assertType := .reachable, mustHit := true, details
      location := site.location }
  | .unreachable message details =>
    { condition := false, message, assertType := .unreachable, mustHit := false, details
      location := site.location }
  | .sometimesAll message namedBools details =>
    let satisfiedCount := namedBools.toList.countP fun goal => goal.2
    let totalCount := namedBools.toList.length
    { condition := satisfiedCount = totalCount ∧ 0 < totalCount, message
      assertType := .sometimesAll, mustHit := true
      details := withSubGoals namedBools details, location := site.location }
  | .alwaysGreaterThan left right message details =>
    { condition := right < left, message, assertType := .always, mustHit := true
      details := withOperands left right details, location := site.location }
  | .sometimesGreaterThan left right message details =>
    { condition := right < left, message, assertType := .sometimes, mustHit := true
      details := withOperands left right details, location := site.location }
  | .alwaysEqual left right message details =>
    { condition := left = right, message, assertType := .always, mustHit := true
      details := withOperands left right details, location := site.location }
  | .sometimesEqual left right message details =>
    { condition := left = right, message, assertType := .sometimes, mustHit := true
      details := withOperands left right details, location := site.location }
  | .sometimesEach label key details =>
    { condition := true, message := label ++ ":" ++ key, assertType := .sometimes
      mustHit := true, details, location := site.location }
  | .everSince condition message details =>
    { condition := condition || !(armed.contains (everSinceKey message)), message
      assertType := .everSince, mustHit := true, details, location := site.location }

end AssertSite

def evaluations (armed : ExtTreeSet String) : List AssertSite → List Evaluation
  | [] => []
  | site :: sites =>
    site.evaluation (site.arm armed) :: evaluations (site.arm armed) sites

/-- The output file and the counters. -/
structure AssertLog where
  output : Option (List AssertionBody)
  declared : ExtTreeSet String
  evalPassCount : ExtTreeMap String UInt64

def writeEnvelope (written : List AssertionBody) (body : AssertionBody) : List AssertionBody :=
  if marshals body.details then written ++ [body] else written

section

variable (callsiteID : Location → String)

namespace Evaluation

variable (e : Evaluation)

def declaration : AssertionBody :=
  { hit := false, condition := false, message := e.message, assertType := e.assertType
    mustHit := e.mustHit, id := callsiteID e.location, location := e.location }

def body : AssertionBody :=
  { hit := true, condition := e.condition, message := e.message, assertType := e.assertType
    mustHit := e.mustHit, id := callsiteID e.location, details := e.details
    location := e.location }

def declKey : String :=
  e.assertType.name ++ ":" ++ e.message

end Evaluation

namespace AssertLog

def start (writable : Bool) : AssertLog where
  output := if writable then some [] else none
  declared := ∅
  evalPassCount := ∅

def written (log : AssertLog) : List AssertionBody :=
  log.output.getD []

def passCount (log : AssertLog) (id : String) : UInt64 :=
  (log.evalPassCount[id]?).getD 0

def emit (log : AssertLog) (e : Evaluation) : AssertLog :=
  match log.output with
  | none => log
  | some written =>
    let id := callsiteID e.location
    let written :=
      if log.declared.contains e.declKey then written
      else writeEnvelope written (e.declaration callsiteID)
    let declared := log.declared.insert e.declKey
    if e.condition then
      let cnt := log.passCount id
      let evalPassCount := log.evalPassCount.insert id (cnt + 1)
      if 0 < cnt ∧ cnt % defaultPassedSampleRate ≠ 0 then
        { output := some written, declared, evalPassCount }
      else
        { output := some (writeEnvelope written (e.body callsiteID)), declared, evalPassCount }
    else
      { output := some (writeEnvelope written (e.body callsiteID)), declared
        evalPassCount := log.evalPassCount }

def emitAll (log : AssertLog) (es : List Evaluation) : AssertLog :=
  es.foldl (emit callsiteID) log

end AssertLog

structure AssertState where
  everSinceOnce : ExtTreeSet String
  log : AssertLog

namespace AssertState

def start (writable : Bool) : AssertState where
  everSinceOnce := ∅
  log := AssertLog.start writable

def perform (s : AssertState) (site : AssertSite) : AssertState :=
  let armed := site.arm s.everSinceOnce
  { everSinceOnce := armed, log := s.log.emit callsiteID (site.evaluation armed) }

theorem log_foldl_perform (s : AssertState) (sites : List AssertSite) :
    (sites.foldl (perform callsiteID) s).log =
      s.log.emitAll callsiteID (evaluations s.everSinceOnce sites) := by
  induction sites generalizing s with
  | nil => rfl
  | cons site sites ih => exact ih (s.perform callsiteID site)

end AssertState

namespace AssertLog

variable {callsiteID} {log : AssertLog} {written : List AssertionBody}

/-- Whether the event of an evaluation is written, given how many passed before at its call site. -/
def Emits (cnt : UInt64) (e : Evaluation) : Prop :=
  marshals e.details = true ∧ (e.condition = true → cnt % defaultPassedSampleRate = 0)

instance (cnt : UInt64) (e : Evaluation) : Decidable (Emits cnt e) :=
  inferInstanceAs (Decidable (_ ∧ _))

theorem emit_of_closed (closed : log.output = none) (e : Evaluation) :
    log.emit callsiteID e = log := by
  rw [emit, closed]

theorem writeEnvelope_eq (written : List AssertionBody) (e : Evaluation) :
    writeEnvelope written (e.body callsiteID) =
      written ++ if marshals e.details then [e.body callsiteID] else [] := by
  unfold writeEnvelope Evaluation.body
  split <;> simp

theorem sampled_iff (cnt : UInt64) :
    (0 < cnt ∧ cnt % defaultPassedSampleRate ≠ 0) ↔ cnt % defaultPassedSampleRate ≠ 0 := by
  refine and_iff_right_of_imp fun odd => ?_
  rw [UInt64.pos_iff_ne_zero]
  rintro rfl
  exact odd rfl

variable (callsiteID) in
theorem emit_of_open (isOpen : log.output = some written) (e : Evaluation) :
    ∃ declarations : List AssertionBody, (∀ body ∈ declarations, body.hit = false) ∧
      (log.emit callsiteID e).output = some (written ++ declarations ++
        if Emits (log.passCount (callsiteID e.location)) e then [e.body callsiteID] else []) := by
  have declares : ∃ declarations : List AssertionBody,
      (∀ body ∈ declarations, body.hit = false) ∧
      (if log.declared.contains e.declKey then written
        else writeEnvelope written (e.declaration callsiteID)) = written ++ declarations := by
    split
    · exact ⟨[], forall_mem_nil _, (append_nil _).symm⟩
    · exact ⟨[e.declaration callsiteID], forall_mem_singleton.mpr rfl, rfl⟩
  obtain ⟨declarations, plain, same⟩ := declares
  refine ⟨declarations, plain, ?_⟩
  simp only [emit, isOpen, same, writeEnvelope_eq, sampled_iff]
  cases passes : e.condition with
  | false =>
    simp [Emits, passes]
  | true =>
    by_cases skipped : log.passCount (callsiteID e.location) % defaultPassedSampleRate = 0
    · simp [Emits, passes, skipped]
    · simp [Emits, passes, skipped]

theorem passCount_emit (isOpen : log.output = some written) (e : Evaluation) (id : String) :
    (log.emit callsiteID e).passCount id =
      log.passCount id + if e.condition = true ∧ callsiteID e.location = id then 1 else 0 := by
  have counted : (log.emit callsiteID e).evalPassCount =
      if e.condition then
        log.evalPassCount.insert (callsiteID e.location)
          (log.passCount (callsiteID e.location) + 1)
      else log.evalPassCount := by
    simp only [emit, isOpen]
    split
    · split <;> rfl
    · rfl
  rw [passCount, counted]
  cases passes : e.condition with
  | false => simp [passCount]
  | true =>
    rw [if_pos rfl, Keyed.lookup_insert]
    by_cases same : id = callsiteID e.location
    · simp [same]
    · have apart : ¬ callsiteID e.location = id := fun equal => same equal.symm
      simp [same, apart, passCount]

def answer (callsiteID : Location → String) (log : AssertLog) (e : Evaluation) :
    List AssertionBody :=
  (log.emit callsiteID e).written.drop log.written.length

variable (callsiteID) in
theorem hit_mem_answer_iff (isOpen : log.output = some written) (e : Evaluation)
    (body : AssertionBody) : body ∈ answer callsiteID log e ∧ body.hit = true ↔
      Emits (log.passCount (callsiteID e.location)) e ∧ body = e.body callsiteID := by
  obtain ⟨declarations, plain, output⟩ := emit_of_open callsiteID isOpen e
  have added : answer callsiteID log e = declarations ++
      if Emits (log.passCount (callsiteID e.location)) e then [e.body callsiteID] else [] := by
    rw [answer, AssertLog.written, AssertLog.written, output, isOpen, Option.getD_some,
      Option.getD_some, append_assoc, drop_left]
  rw [added, mem_append]
  constructor
  · rintro ⟨declared | event, hit⟩
    · rw [plain body declared] at hit
      cases hit
    · split at event
      · next emits => exact ⟨emits, mem_singleton.mp event⟩
      · exact absurd event not_mem_nil
  · rintro ⟨emits, rfl⟩
    refine ⟨.inr ?_, rfl⟩
    rw [if_pos emits]
    exact mem_singleton_self _

variable (callsiteID) in
theorem emitAll_start (es : List Evaluation) :
    ∃ written, ((start true).emitAll callsiteID es).output = some written ∧
      ∀ id, ((start true).emitAll callsiteID es).passCount id =
        UInt64.ofNat (es.countP fun e => e.condition ∧ callsiteID e.location = id) := by
  induction es using reverseRecOn with
  | nil => exact ⟨[], rfl, fun id => rfl⟩
  | append_singleton es e ih =>
    obtain ⟨written, isOpen, counts⟩ := ih
    obtain ⟨_, -, output⟩ := emit_of_open callsiteID isOpen e
    rw [emitAll, foldl_concat, ← emitAll]
    refine ⟨_, output, fun id => ?_⟩
    rw [passCount_emit isOpen, counts, countP_append, countP_singleton, UInt64.ofNat_add]
    simp only [decide_eq_true_eq]
    split <;> rfl

theorem emitAll_of_closed (closed : log.output = none) (es : List Evaluation) :
    log.emitAll callsiteID es = log := by
  induction es with
  | nil => rfl
  | cons e es ih => rw [emitAll, foldl_cons, emit_of_closed closed, ← emitAll, ih]

end AssertLog

def NoCollisions (es : List Evaluation) : Prop :=
  ∀ e ∈ es, ∀ other ∈ es, callsiteID e.location = callsiteID other.location →
    e.location = other.location

def passesAt (es : List Evaluation) (location : Location) : Nat :=
  es.countP fun e => e.condition ∧ e.location = location

def Reported (before : List Evaluation) (e : Evaluation) : Prop :=
  AssertLog.Emits (UInt64.ofNat (passesAt before e.location)) e

instance (before : List Evaluation) (e : Evaluation) : Decidable (Reported before e) :=
  inferInstanceAs (Decidable (AssertLog.Emits _ e))

variable {callsiteID}

variable {es : List Evaluation}

section

variable {before : List Evaluation} {e : Evaluation} (apart : NoCollisions callsiteID es)
  (inside : before ++ [e] <+: es)

include apart inside

theorem NoCollisions.passCount_eq :
    ((AssertLog.start true).emitAll callsiteID before).passCount (callsiteID e.location) =
      UInt64.ofNat (passesAt before e.location) := by
  obtain ⟨-, -, counts⟩ := AssertLog.emitAll_start callsiteID before
  rw [counts, passesAt]
  congr 1
  apply countP_congr
  intro other member
  have first : other ∈ es := inside.subset (mem_append_left _ member)
  have second : e ∈ es := inside.subset (mem_append_right _ (mem_singleton_self e))
  simp only [decide_eq_true_eq]
  exact and_congr_right fun _ => ⟨apart other first e second, congrArg callsiteID⟩

theorem NoCollisions.hit_mem_answer_iff (body : AssertionBody) :
    body ∈ ((AssertLog.start true).emitAll callsiteID before).answer callsiteID e ∧
        body.hit = true ↔ Reported before e ∧ body = e.body callsiteID := by
  obtain ⟨written, isOpen, -⟩ := AssertLog.emitAll_start callsiteID before
  rw [AssertLog.hit_mem_answer_iff callsiteID isOpen, apart.passCount_eq inside, Reported]

end

theorem NoCollisions.hit_mem_written_iff (apart : NoCollisions callsiteID es)
    (body : AssertionBody) :
    body ∈ ((AssertLog.start true).emitAll callsiteID es).written ∧ body.hit = true ↔
      ∃ before e, before ++ [e] <+: es ∧ Reported before e ∧ body = e.body callsiteID := by
  induction es using reverseRecOn with
  | nil => simp [AssertLog.emitAll, AssertLog.start, AssertLog.written]
  | append_singleton es e ih =>
    have earlier : NoCollisions callsiteID es := fun first inside second inside' =>
      apart first (mem_append_left _ inside) second (mem_append_left _ inside')
    obtain ⟨written, isOpen, -⟩ := AssertLog.emitAll_start callsiteID es
    obtain ⟨declarations, -, output⟩ :=
      AssertLog.emit_of_open callsiteID isOpen e
    have grows : ((AssertLog.start true).emitAll callsiteID (es ++ [e])).written =
        ((AssertLog.start true).emitAll callsiteID es).written ++
          AssertLog.answer callsiteID ((AssertLog.start true).emitAll callsiteID es) e := by
      rw [AssertLog.emitAll, foldl_concat, ← AssertLog.emitAll, AssertLog.answer,
        AssertLog.written, AssertLog.written, output, isOpen, Option.getD_some,
        Option.getD_some, append_assoc, drop_left]
    rw [grows, mem_append, or_and_right, ih earlier, apart.hit_mem_answer_iff (prefix_refl _)]
    constructor
    · rintro (⟨before, other, inside, reported, same⟩ | ⟨reported, same⟩)
      · exact ⟨before, other, inside.trans (prefix_append _ _), reported, same⟩
      · exact ⟨es, e, prefix_refl _, reported, same⟩
    · rintro ⟨before, other, inside, reported, same⟩
      rcases prefix_concat_iff.mp inside with whole | inside
      · obtain ⟨rfl, last⟩ := append_inj' whole rfl
        obtain rfl : other = e := singleton_inj.mp last
        exact .inr ⟨reported, same⟩
      · exact .inl ⟨before, other, inside, reported, same⟩

variable (callsiteID) in
/-- There is a passing event of a type and a message exactly if a call with them passes, and an
event for each failing call. -/
structure OutcomesVisible (writable : Bool) (sites : List AssertSite) : Prop where
  passing : ∀ assertType message,
    (∃ body ∈ (sites.foldl (AssertState.perform callsiteID) (.start writable)).log.written,
      body.hit = true ∧ body.condition = true ∧ body.assertType = assertType ∧
        body.message = message) ↔
    ∃ e ∈ evaluations ∅ sites, e.condition = true ∧ e.assertType = assertType ∧
      e.message = message
  failing : ∀ before e, before ++ [e] <+: evaluations ∅ sites → e.condition = false →
    ∃ body ∈ ((AssertLog.start writable).emitAll callsiteID before).answer callsiteID e,
      body.hit = true ∧ body.condition = false ∧ body.assertType = e.assertType ∧
        body.message = e.message

/-- There is an output file, the details of failing calls can be encoded, and of the passing calls
with a type and a message one can be and comes after a multiple of 500 at its site. -/
structure Unhidden (writable : Bool) (es : List Evaluation) : Prop where
  failing : ∀ e ∈ es, e.condition = false → writable = true ∧ marshals e.details = true
  passing : ∀ e ∈ es, e.condition = true → writable = true ∧
    ∃ before other, before ++ [other] <+: es ∧ other.condition = true ∧
      other.assertType = e.assertType ∧ other.message = e.message ∧ Reported before other

theorem exists_prefix_of_mem {α : Type} {a : α} {list : List α} (inside : a ∈ list) :
    ∃ before, before ++ [a] <+: list := by
  obtain ⟨before, after, rfl⟩ := append_of_mem inside
  exact ⟨before, after, by simp⟩

variable (callsiteID) in
theorem outcomesVisible_closed_iff (sites : List AssertSite) :
    OutcomesVisible callsiteID false sites ↔ Unhidden false (evaluations ∅ sites) := by
  have closed : (AssertLog.start false).output = none := rfl
  have nothing :
      (sites.foldl (AssertState.perform callsiteID) (.start false)).log.written = [] := by
    rw [AssertState.log_foldl_perform]
    exact congrArg AssertLog.written (AssertLog.emitAll_of_closed closed _)
  constructor
  · rintro ⟨passing, failing⟩
    constructor
    · intro e inside fails
      obtain ⟨before, inside⟩ := exists_prefix_of_mem inside
      obtain ⟨body, member, -⟩ := failing before e inside fails
      rw [AssertLog.emitAll_of_closed closed, AssertLog.answer,
        AssertLog.emit_of_closed closed, drop_length] at member
      exact absurd member not_mem_nil
    · intro e inside passes
      obtain ⟨body, member, -⟩ := (passing _ _).mpr ⟨e, inside, passes, rfl, rfl⟩
      rw [nothing] at member
      exact absurd member not_mem_nil
  · rintro ⟨failing, passing⟩
    constructor
    · intro assertType message
      constructor
      · rintro ⟨body, member, -⟩
        rw [nothing] at member
        exact absurd member not_mem_nil
      · rintro ⟨e, inside, passes, -⟩
        exact absurd (passing e inside passes).1 Bool.false_ne_true
    · intro before e inside fails
      have member := inside.subset (mem_append_right _ (mem_singleton_self e))
      exact absurd (failing e member fails).1 Bool.false_ne_true

theorem outcomesVisible_open_iff (sites : List AssertSite)
    (apart : NoCollisions callsiteID (evaluations ∅ sites)) :
    OutcomesVisible callsiteID true sites ↔ Unhidden true (evaluations ∅ sites) := by
  have events := apart.hit_mem_written_iff
  have log : (sites.foldl (AssertState.perform callsiteID) (.start true)).log =
      (AssertLog.start true).emitAll callsiteID (evaluations ∅ sites) :=
    AssertState.log_foldl_perform callsiteID (.start true) sites
  constructor
  · rintro ⟨passing, failing⟩
    constructor
    · intro e inside fails
      obtain ⟨before, inside⟩ := exists_prefix_of_mem inside
      obtain ⟨body, member, hit, -⟩ := failing before e inside fails
      exact ⟨rfl, ((apart.hit_mem_answer_iff inside body).mp ⟨member, hit⟩).1.1⟩
    · intro e inside passes
      obtain ⟨body, member, hit, condition, sameType, sameMessage⟩ :=
        (passing _ _).mpr ⟨e, inside, passes, rfl, rfl⟩
      rw [log] at member
      obtain ⟨before, other, inside, reported, rfl⟩ := (events body).mp ⟨member, hit⟩
      exact ⟨rfl, before, other, inside, condition, sameType, sameMessage, reported⟩
  · rintro ⟨failing, passing⟩
    constructor
    · intro assertType message
      rw [log]
      constructor
      · rintro ⟨body, member, hit, condition, sameType, sameMessage⟩
        obtain ⟨before, e, inside, -, rfl⟩ := (events body).mp ⟨member, hit⟩
        have member := inside.subset (mem_append_right _ (mem_singleton_self e))
        exact ⟨e, member, condition, sameType, sameMessage⟩
      · rintro ⟨e, inside, passes, rfl, rfl⟩
        obtain ⟨-, before, other, inside, condition, sameType, sameMessage, reported⟩ :=
          passing e inside passes
        obtain ⟨member, hit⟩ := (events _).mpr ⟨before, other, inside, reported, rfl⟩
        exact ⟨_, member, hit, condition, sameType, sameMessage⟩
    · intro before e inside fails
      have member := inside.subset (mem_append_right _ (mem_singleton_self e))
      have reported : Reported before e :=
        ⟨(failing e member fails).2, fun passes => by rw [passes] at fails; cases fails⟩
      obtain ⟨member, hit⟩ := (apart.hit_mem_answer_iff inside _).mpr ⟨reported, rfl⟩
      exact ⟨_, member, hit, fails, rfl, rfl⟩

/-- The output shows the outcome of every property exactly if sampling, encoding and the
output file hide none. -/
theorem outcomes_visible_iff (callsiteID : Location → String) (writable : Bool)
    (sites : List AssertSite) (apart : NoCollisions callsiteID (evaluations ∅ sites)) :
    OutcomesVisible callsiteID writable sites ↔ Unhidden writable (evaluations ∅ sites) := by
  cases writable with
  | false => exact outcomesVisible_closed_iff callsiteID sites
  | true => exact outcomesVisible_open_iff sites apart

end

def lineID (location : Location) : String :=
  location.file ++ ":" ++ toString location.line

def twoKeys (line other : Nat) : List AssertSite :=
  [{ location := { file := "main.go", line }, call := .sometimesEach "role" "leader" ∅ },
    { location := { file := "main.go", line := other }
      call := .sometimesEach "role" "follower" ∅ }]

theorem outcomes_visible_iff_two_lines :
    NoCollisions lineID (evaluations ∅ (twoKeys 1 2)) ∧
      OutcomesVisible lineID true (twoKeys 1 2) := by
  have apart : NoCollisions lineID (evaluations ∅ (twoKeys 1 2)) := by
    unfold NoCollisions
    decide +kernel
  refine ⟨apart, (outcomes_visible_iff lineID true (twoKeys 1 2) apart).mpr ?_⟩
  have member : ∀ e ∈ evaluations ∅ (twoKeys 1 2), e.condition = true := by decide +kernel
  constructor
  · intro e inside fails
    rw [member e inside] at fails
    cases fails
  · intro e inside passes
    refine ⟨rfl, ?_⟩
    rcases mem_pair.mp inside with rfl | rfl
    · exact ⟨[], _, ⟨[_], rfl⟩, passes, rfl, rfl, by decide +kernel⟩
    · exact ⟨[_], _, prefix_refl _, passes, rfl, rfl, by decide +kernel⟩

/-- A second key seen from the line of the first is not in the output. -/
theorem second_key_hidden :
    NoCollisions lineID (evaluations ∅ (twoKeys 1 1)) ∧
      ¬ OutcomesVisible lineID true (twoKeys 1 1) := by
  refine ⟨by unfold NoCollisions; decide +kernel, fun visible => ?_⟩
  have passes : ∃ e ∈ evaluations ∅ (twoKeys 1 1), e.condition = true ∧
      e.assertType = .sometimes ∧ e.message = "role:follower" := by
    decide +kernel
  obtain ⟨body, member, hit, -, -, message⟩ := (visible.passing _ _).mpr passes
  have absent : ∀ body ∈ ((twoKeys 1 1).foldl (AssertState.perform lineID)
      (.start true)).log.written, body.hit = true → body.message ≠ "role:follower" := by
    decide +kernel
  exact absent body member hit message

end OpenThesis.Sdk
