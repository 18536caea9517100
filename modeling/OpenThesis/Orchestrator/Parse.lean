import OpenThesis.Json.Decode
import OpenThesis.Lines.Core
import OpenThesis.Orchestrator.SdkOutput

/-!
# The output filter of the listener

The parsers of the guest's lines (`internal/orchestrator/parse.go`) and the filter before them
(`looksLikeSDKOutput` in `internal/agent/listener.go`). Details are left out. Which numbers fit a
`float64` is a parameter.
-/

namespace OpenThesis.Orchestrator.Parse

open Text Json.Text Explorer List

universe u

def newline : UInt8 := byte '\n'

def maxNestingDepth : Nat := 10000

def lineMembers (line : Bytes) : Option (List (Bytes × Value)) :=
  if line = [] then none else (scan maxNestingDepth line).bind Value.members?

def readLine {α : Type u} (name : String) (decode : Value → Option α) (line : Bytes) :
    Option (Bytes × α) :=
  ((lineMembers line).bind (lastMember name)).bind fun member =>
    (decode member.2).map fun event => (member.1, event)

def parseOutput {α : Type u} (name : String) (decode : Value → Option α) (data : Bytes) : List α :=
  (data.splitOn newline).filterMap fun line => (readLine name decode line).map Prod.snd

abbrev Details := Std.ExtTreeMap String Value

structure LifecycleEvent where
  eventType : String
  details : Option Details

structure StatusBody where
  status : String := ""
  details : Option Details := none

structure SendEventBody where
  eventName : String := ""
  details : Option Details := none

structure StopFaultsBody where
  durationSeconds : Bytes := bytes "0"
  status : String := ""

section

variable (fits : Bytes → Bool)

def statusFields : List (RecordField StatusBody) :=
  [.of "status" Value.string? fun body status => { body with status },
    .ofMap "details" (Value.any? fits) (·.details) fun body details => { body with details }]

def decodeStatusDetails (eventType : String) (payload : Value) : Option LifecycleEvent :=
  (decodeRecord (statusFields fits) {} payload).map fun body => ⟨eventType, body.details⟩

def sendEventFields : List (RecordField SendEventBody) :=
  [.of "event_name" Value.string? fun body eventName => { body with eventName },
    .ofMap "details" (Value.any? fits) (·.details) fun body details => { body with details }]

def decodeSendEvent (payload : Value) : Option LifecycleEvent :=
  (decodeRecord (sendEventFields fits) {} payload).map fun body => ⟨body.eventName, body.details⟩

def float? : Value → Option Bytes
  | .number literal => if fits literal then some literal else none
  | _ => none

def stopFaultsFields : List (RecordField StopFaultsBody) :=
  [.of "duration_seconds" (float? fits) fun body durationSeconds => { body with durationSeconds },
    .of "status" Value.string? fun body status => { body with status }]

def decodeStopFaults (payload : Value) : Option LifecycleEvent :=
  (decodeRecord (stopFaultsFields fits) {} payload).map fun body =>
    ⟨"openthesis_stop_faults",
      some ((∅ : Details).insert "duration_seconds" (.number body.durationSeconds))⟩

def lifecycleReaders : List (String × (Value → Option LifecycleEvent)) :=
  [("openthesis_setup_complete", decodeStatusDetails fits "setup_complete"),
    ("openthesis_send_event", decodeSendEvent fits),
    ("openthesis_teardown", decodeStatusDetails fits "teardown"),
    ("openthesis_prefork", decodeStatusDetails fits "openthesis_prefork"),
    ("openthesis_burst_done", decodeStatusDetails fits "openthesis_burst_done"),
    ("openthesis_stop_faults", decodeStopFaults fits)]

def parseLifecycleOutput (data : Bytes) : List LifecycleEvent :=
  (data.splitOn newline).flatMap fun line =>
    (lifecycleReaders fits).filterMap fun reader =>
      (readLine reader.1 reader.2 line).map Prod.snd

end

structure AssertBody where
  hit : Bool := false
  condition : Bool := false
  message : String := ""
  assertType : String := ""
  details : Option Value := none

def assertFields : List (RecordField AssertBody) :=
  [.of "hit" Value.bool? fun body hit => { body with hit },
    .of "condition" Value.bool? fun body condition => { body with condition },
    .of "message" Value.string? fun body message => { body with message },
    .of "assert_type" Value.string? fun body assertType => { body with assertType },
    -- A raw message keeps null as well.
    ⟨"details", fun details body => some { body with details := some details }⟩]

structure SubGoalBody where
  subGoals : Option SubGoals := none
  satisfiedCount : Int64 := 0
  totalCount : Int64 := 0

def subGoal? : Value → Option Bool
  | .null => some false
  | value => value.bool?

def subGoalFields : List (RecordField SubGoalBody) :=
  [.ofMap "sub_goals" subGoal? (·.subGoals) fun body subGoals => { body with subGoals },
    .of "satisfied_count" Value.int64? fun body satisfiedCount => { body with satisfiedCount },
    .of "total_count" Value.int64? fun body totalCount => { body with totalCount }]

def AssertBody.subGoals (a : AssertBody) : SubGoalBody :=
  if a.assertType = "sometimes_all" then
    (a.details.bind (decodeRecord subGoalFields {})).getD {}
  else {}

def decodeAssertion (payload : Value) : Option ParsedAssertion :=
  (decodeRecord assertFields {} payload).bind fun a =>
    if a.message = "" then none
    else if !a.hit then none
    else
      some
        { assertType := a.assertType
          condition := a.condition
          message := a.message
          subGoals := a.subGoals.subGoals
          satisfiedCount := a.subGoals.satisfiedCount.toInt
          totalCount := a.subGoals.totalCount.toInt }

def parseAssertionOutput (data : Bytes) : List ParsedAssertion × List String :=
  let assertions := parseOutput "openthesis_assert" decodeAssertion data
  (assertions, (assertions.filter (·.isViolation)).map (·.message))

structure GuidanceBody where
  guidanceType : String := ""
  name : String := ""
  value : Int64 := 0

def guidanceFields : List (RecordField GuidanceBody) :=
  [.of "guidance_type" Value.string? fun body guidanceType => { body with guidanceType },
    .of "name" Value.string? fun body name => { body with name },
    .of "value" Value.int64? fun body value => { body with value }]

def decodeGuidance (payload : Value) : Option ParsedGuidance :=
  (decodeRecord guidanceFields {} payload).bind fun g =>
    if g.name = "" then none else some ⟨g.guidanceType, g.name, g.value⟩

def parseGuidanceOutput (data : Bytes) : List ParsedGuidance :=
  parseOutput "openthesis_guidance" decodeGuidance data

structure RandomChoiceBody where
  chosenIndex : Int64 := 0
  totalChoices : Int64 := 0
  valueType : String := ""

def randomChoiceFields : List (RecordField RandomChoiceBody) :=
  [.of "chosen_index" Value.int64? fun body chosenIndex => { body with chosenIndex },
    .of "total_choices" Value.int64? fun body totalChoices => { body with totalChoices },
    .of "value_type" Value.string? fun body valueType => { body with valueType }]

def decodeRandomChoice (payload : Value) : Option ParsedRandomChoice :=
  (decodeRecord randomChoiceFields {} payload).bind fun rc =>
    if rc.totalChoices = 0 then none else some ⟨rc.chosenIndex, rc.totalChoices, rc.valueType⟩

def parseRandomChoiceOutput (data : Bytes) : List ParsedRandomChoice :=
  parseOutput "openthesis_random_choice" decodeRandomChoice data

def sdkMarkers : List Bytes :=
  [bytes "\"openthesis_assert\"", bytes "\"openthesis_guidance\"", bytes "\"openthesis_log\"",
    bytes "\"openthesis_setup\""]

def looksLikeSDKOutput (data : Bytes) : Bool :=
  sdkMarkers.any fun marker => marker <:+: data

structure ParsesNothing (fits : Bytes → Bool) (data : Bytes) : Prop where
  assertions : parseAssertionOutput data = ([], [])
  guidance : parseGuidanceOutput data = []
  randomChoices : parseRandomChoiceOutput data = []
  lifecycle : parseLifecycleOutput fits data = []

def acceptedKeys (fits : Bytes → Bool) (line : Bytes) : List Bytes :=
  ((readLine "openthesis_assert" decodeAssertion line).map Prod.fst).toList ++
    ((readLine "openthesis_guidance" decodeGuidance line).map Prod.fst).toList ++
    ((readLine "openthesis_random_choice" decodeRandomChoice line).map Prod.fst).toList ++
    (lifecycleReaders fits).filterMap fun reader => (readLine reader.1 reader.2 line).map Prod.fst

theorem parseOutput_eq_nil_iff {α : Type u} (name : String) (decode : Value → Option α)
    (data : Bytes) : parseOutput name decode data = [] ↔
      ∀ line ∈ data.splitOn newline, readLine name decode line = none := by
  simp [parseOutput, filterMap_eq_nil_iff]

theorem parseAssertionOutput_eq_nil_iff (data : Bytes) : parseAssertionOutput data = ([], []) ↔
      parseOutput "openthesis_assert" decodeAssertion data = [] := by
  rw [parseAssertionOutput, Prod.mk.injEq]
  constructor
  · exact And.left
  · intro none
    exact ⟨none, by rw [none]; rfl⟩

variable (fits : Bytes → Bool)

theorem parseLifecycleOutput_eq_nil_iff (data : Bytes) : parseLifecycleOutput fits data = [] ↔
      ∀ line ∈ data.splitOn newline, ∀ reader ∈ lifecycleReaders fits,
        readLine reader.1 reader.2 line = none := by
  simp [parseLifecycleOutput, filterMap_eq_nil_iff]

theorem acceptedKeys_eq_nil_iff (line : Bytes) : acceptedKeys fits line = [] ↔
      readLine "openthesis_assert" decodeAssertion line = none ∧
        readLine "openthesis_guidance" decodeGuidance line = none ∧
        readLine "openthesis_random_choice" decodeRandomChoice line = none ∧
        ∀ reader ∈ lifecycleReaders fits, readLine reader.1 reader.2 line = none := by
  simp [acceptedKeys, filterMap_eq_nil_iff]

theorem parsesNothing_iff (data : Bytes) :
    ParsesNothing fits data ↔ ∀ line ∈ data.splitOn newline, acceptedKeys fits line = [] := by
  simp only [acceptedKeys_eq_nil_iff]
  constructor
  · rintro ⟨assertions, guidance, choices, lifecycle⟩ line mem
    rw [parseAssertionOutput_eq_nil_iff, parseOutput_eq_nil_iff] at assertions
    rw [parseGuidanceOutput, parseOutput_eq_nil_iff] at guidance
    rw [parseRandomChoiceOutput, parseOutput_eq_nil_iff] at choices
    rw [parseLifecycleOutput_eq_nil_iff] at lifecycle
    exact ⟨assertions line mem, guidance line mem, choices line mem, lifecycle line mem⟩
  · intro nothing
    constructor
    · rw [parseAssertionOutput_eq_nil_iff, parseOutput_eq_nil_iff]
      exact fun line mem => (nothing line mem).1
    · rw [parseGuidanceOutput, parseOutput_eq_nil_iff]
      exact fun line mem => (nothing line mem).2.1
    · rw [parseRandomChoiceOutput, parseOutput_eq_nil_iff]
      exact fun line mem => (nothing line mem).2.2.1
    · rw [parseLifecycleOutput_eq_nil_iff]
      exact fun line mem => (nothing line mem).2.2.2

theorem readLine_quoted {α : Type u} {name : String} {decode : Value → Option α}
    {line key : Bytes} {event : α} (found : readLine name decode line = some (key, event)) :
    Quoted key line := by
  rw [readLine, Option.bind_eq_some_iff] at found
  obtain ⟨member, found, decoded⟩ := found
  rw [Option.map_eq_some_iff] at decoded
  obtain ⟨_, _, same⟩ := decoded
  cases same
  rw [Option.bind_eq_some_iff] at found
  obtain ⟨members, parsed, last⟩ := found
  have mem : member ∈ members := by
    have inside := mem_of_find?_eq_some last
    exact mem_reverse.mp inside
  rw [lineMembers] at parsed
  split_ifs at parsed
  rw [Option.bind_eq_some_iff] at parsed
  obtain ⟨value, scanned, isMembers⟩ := parsed
  cases value with
  | object =>
    cases isMembers
    exact scan_quoted scanned mem
  | null =>
    cases isMembers
    cases mem
  | bool | number | string | array => cases isMembers

theorem acceptedKeys_quoted {fits : Bytes → Bool} {line key : Bytes}
    (mem : key ∈ acceptedKeys fits line) : Quoted key line := by
  simp only [acceptedKeys, mem_append, Option.mem_toList, Option.map_eq_some_iff,
    mem_filterMap] at mem
  rcases mem with ((⟨found, read, rfl⟩ | ⟨found, read, rfl⟩) | ⟨found, read, rfl⟩) |
    ⟨_, _, found, read, rfl⟩
  all_goals exact readLine_quoted read

theorem line_isInfix {data line : Bytes} (mem : line ∈ data.splitOn newline) : line <:+: data := by
  obtain ⟨lines, rest, framed⟩ := Lines.exists_framed newline data
  rw [framed.splitOn_eq, mem_append, mem_singleton] at mem
  rw [framed.stream_eq]
  rcases mem with mem | rfl
  · obtain ⟨before, after, rfl⟩ := append_of_mem mem
    exact ⟨before.flatMap (· ++ [newline]), [newline] ++ after.flatMap (· ++ [newline]) ++ rest,
      by simp⟩
  · exact (suffix_append _ _).isInfix

/-- The filter loses nothing exactly if there is a marker in the data anyway, or every event is an
assertion or guidance whose envelope key is written letter by letter. -/
theorem filter_loses_nothing_iff (fits : Bytes → Bool) (data : Bytes) :
    (looksLikeSDKOutput data = false → ParsesNothing fits data) ↔
      ∀ line ∈ data.splitOn newline, ∀ key ∈ acceptedKeys fits line,
        looksLikeSDKOutput data = true ∨ key = bytes "openthesis_assert" ∨
          key = bytes "openthesis_guidance" := by
  rw [parsesNothing_iff]
  constructor
  · intro losesNothing line mem key accepted
    cases looks : looksLikeSDKOutput data with
    | true => exact .inl rfl
    | false =>
      rw [losesNothing looks line mem] at accepted
      cases accepted
  · intro marked looks line mem
    rw [eq_nil_iff_forall_not_mem]
    intro key accepted
    have stands : Quoted key data := (acceptedKeys_quoted accepted).trans (line_isInfix mem)
    have noMarker := any_eq_false.mp looks
    rcases marked line mem key accepted with found | rfl | rfl
    · rw [looks] at found
      cases found
    · exact noMarker (bytes "\"openthesis_assert\"") (by simp [sdkMarkers])
        (decide_eq_true stands)
    · exact noMarker (bytes "\"openthesis_guidance\"") (by simp [sdkMarkers])
        (decide_eq_true stands)

/-- The filter drops a random choice, the end of the setup and an assertion with an escape in its
envelope key. -/
theorem filter_drops_events :
    let choice :=
      bytes "\x7b\"openthesis_random_choice\":" ++
        bytes "\x7b\"chosen_index\":0,\"total_choices\":2\x7d\x7d"
    let complete := bytes "\x7b\"openthesis_setup_complete\":\x7b\x7d\x7d"
    let assertion :=
      bytes "\x7b\"openthesis\\u005fassert\":\x7b\"hit\":true,\"message\":\"m\"\x7d\x7d"
    looksLikeSDKOutput choice = false ∧ parseRandomChoiceOutput choice = [⟨0, 2, ""⟩] ∧
      looksLikeSDKOutput complete = false ∧
      (∀ fits, (parseLifecycleOutput fits complete).map (·.eventType) = ["setup_complete"]) ∧
      looksLikeSDKOutput assertion = false ∧
      (parseAssertionOutput assertion).1.map (·.message) = ["m"] := by
  refine ⟨by decide +kernel, ?_, by decide +kernel, ?_, by decide +kernel, ?_⟩
  · rfl
  · intro fits
    rfl
  · rfl

end OpenThesis.Orchestrator.Parse
