import OpenThesis.Json.Strings
import OpenThesis.Orchestrator.Agent

/-!
# Commands of the host, as both guest agents read them

The host sends one JSON object a line. The Go agent reads lines with a `bufio.Scanner` and decodes
by the rules of `encoding/json`, the Rust agent decodes with serde.
-/

namespace OpenThesis.Guest

open Json Orchestrator List
open OpenThesis.Text
open OpenThesis.Json.Text (marshalString)

/-- What the host has to say to the agent. -/
inductive HostMessage where
  | runCommand (name path : String)
  | injectFault (fault : AgentFault)
  | flushCoverage
  | resetCoverage
  | setChoiceOverrides (overrides : Option (List Int))
  | exec (cmd : String) (timeoutSeconds : Int)
  deriving DecidableEq, Repr

def stringField (name value : String) : String × Bool × Json :=
  (name, value.isEmpty, .str value)

def intField (name : String) (value : Int) : String × Bool × Json :=
  (name, value == 0, .num value)

def faultFields (fault : AgentFault) : List (String × Bool × Json) :=
  [ ("kind", false, .str fault.kind),
    stringField "port" fault.port,
    intField "delay_ms" fault.delayMS,
    stringField "src_port" fault.srcPort,
    stringField "dst_port" fault.dstPort,
    stringField "direction" fault.direction,
    intField "rate_kbps" fault.rateKbps,
    stringField "node" fault.nodeName,
    intField "duration_ms" fault.durationMS,
    intField "duration_ns" fault.durationNS,
    intField "correlation" fault.correlation,
    intField "cpu_pct" fault.cpuPct,
    intField "bps" fault.bps,
    intField "target_free_bytes" fault.targetFreeBytes,
    stringField "data_dir" fault.dataDir,
    stringField "script_path" fault.scriptPath,
    ("script_args", fault.scriptArgs.isEmpty, .arr (fault.scriptArgs.map .str)),
    intField "script_timeout_seconds" fault.scriptTimeout,
    intField "disk_flakey_interval_secs" fault.diskFlakeyInterval,
    intField "disk_flakey_duration_secs" fault.diskFlakeyDuration ]

def encodeInts : Option (List Int) → Json
  | none => .null
  | some values => .arr (values.map .num)

def withPayload (type : String) (payload : List (String × Json)) : Json :=
  .obj [("type", .str type), ("payload", .obj payload)]

def HostMessage.encode : HostMessage → Json
  | runCommand name path => withPayload "run_command" [("name", .str name), ("path", .str path)]
  | injectFault fault => withPayload "inject_fault" (omitEmptyMembers (faultFields fault))
  | flushCoverage => .obj [("type", .str "flush_coverage")]
  | resetCoverage => .obj [("type", .str "reset_coverage")]
  | setChoiceOverrides overrides =>
    withPayload "set_choice_overrides" [("overrides", encodeInts overrides)]
  | exec cmd timeoutSeconds =>
    withPayload "exec" [("cmd", .str cmd), ("timeout_seconds", .num timeoutSeconds)]

mutual

/-- The text that `json.Marshal` writes for a document. -/
def marshal : Json → Bytes
  | .null => bytes "null"
  | .bool value => bytes (toString value)
  | .num value => bytes (toString value)
  | .str value => marshalString (bytes value)
  | .arr items => byte '[' :: marshalItems items ++ [byte ']']
  | .obj members => byte '{' :: marshalMembers members ++ [byte '}']

def marshalItems : List Json → Bytes
  | [] => []
  | item :: items =>
    marshal item ++ if items.isEmpty then [] else byte ',' :: marshalItems items

def marshalMembers : List (String × Json) → Bytes
  | [] => []
  | (name, value) :: members =>
    marshalString (bytes name) ++ byte ':' :: marshal value ++
      if members.isEmpty then [] else byte ',' :: marshalMembers members

end

/-- The handler that an agent reaches, and the fields it gets. -/
inductive Command where
  | runCommand (name path : String)
  | injectFault (fault : AgentFault)
  | flushCoverage
  | resetCoverage
  | setChoiceOverrides (overrides : List Int)
  | exec (cmd : String) (timeoutSeconds : Int)
  deriving DecidableEq, Repr

def signed (bits : Nat) (value : Int) : Option Int :=
  if -2 ^ (bits - 1) ≤ value ∧ value < 2 ^ (bits - 1) then some value else none

structure Readers where
  string : Json → Option String
  long : Json → Option Int
  int : Json → Option Int
  strings : Json → Option (List String)

def readFault (readers : Readers) (readKind : List (String × Json) → Option String)
    (members : List (String × Json)) : Option AgentFault := do
  let kind ← readKind members
  let port ← member members "port" readers.string ""
  let delayMS ← member members "delay_ms" readers.long 0
  let srcPort ← member members "src_port" readers.string ""
  let dstPort ← member members "dst_port" readers.string ""
  let direction ← member members "direction" readers.string ""
  let rateKbps ← member members "rate_kbps" readers.int 0
  let nodeName ← member members "node" readers.string ""
  let durationMS ← member members "duration_ms" readers.long 0
  let durationNS ← member members "duration_ns" readers.long 0
  let correlation ← member members "correlation" readers.int 0
  let cpuPct ← member members "cpu_pct" readers.int 0
  let bps ← member members "bps" readers.long 0
  let targetFreeBytes ← member members "target_free_bytes" readers.long 0
  let dataDir ← member members "data_dir" readers.string ""
  let scriptPath ← member members "script_path" readers.string ""
  let scriptArgs ← member members "script_args" readers.strings []
  let scriptTimeout ← member members "script_timeout_seconds" readers.int 0
  let diskFlakeyInterval ← member members "disk_flakey_interval_secs" readers.int 0
  let diskFlakeyDuration ← member members "disk_flakey_duration_secs" readers.int 0
  return { kind, port, delayMS, srcPort, dstPort, direction, rateKbps, nodeName, durationMS,
           durationNS, correlation, cpuPct, bps, targetFreeBytes, dataDir, scriptPath, scriptArgs,
           scriptTimeout, diskFlakeyInterval, diskFlakeyDuration }

def goString : Json → Option String
  | .null => some ""
  | .str value => some value
  | _ => none

def goInt : Json → Option Int
  | .null => some 0
  | .num value => signed 64 value
  | _ => none

def goSlice {α : Type} (read : Json → Option α) : Json → Option (List α)
  | .null => some []
  | .arr items => items.mapM read
  | _ => none

def goStruct : Json → Option (List (String × Json))
  | .null => some []
  | .obj members => some members
  | _ => none

def goReaders : Readers where
  string := goString
  long := goInt
  int := goInt
  strings := goSlice goString

/-- The size of the buffer of the scanner, which has to hold a line with its newline. -/
def scannerBuffer : Nat := 64 * 1024

/-- A line that does not fit the buffer is not read: the scanner stops, and the loop ends. -/
def commandListenerConn (line : Json) : Option Command := do
  guard ((marshal line).length + 1 ≤ scannerBuffer)
  let header ← goStruct line
  let type ← member header "type" goString ""
  let payload := (header.lookup "payload").bind goStruct
  match type with
  | "run_command" =>
    let p ← payload
    return .runCommand (← member p "name" goString "") (← member p "path" goString "")
  | "inject_fault" =>
    let p ← payload
    return .injectFault (← readFault goReaders (member · "kind" goString "") p)
  | "flush_coverage" => return .flushCoverage
  | "reset_coverage" => return .resetCoverage
  | "set_choice_overrides" =>
    let p ← payload
    return .setChoiceOverrides (← member p "overrides" (goSlice goInt) [])
  | "exec" =>
    let p ← payload
    return .exec (← member p "cmd" goString "") (← member p "timeout_seconds" goInt 0)
  | _ => none

def serdeInt (bits : Nat) : Json → Option Int
  | .num value => signed bits value
  | _ => none

def serdeVec {α : Type} (read : Json → Option α) (value : Json) : Option (List α) :=
  value.arr?.bind (·.mapM read)

def serdeReaders : Readers where
  string := Json.str?
  long := serdeInt 64
  int := serdeInt 32
  strings := serdeVec Json.str?

/-- A line of up to four megabytes, the limit of the Rust agent, comes here whole. -/
def dispatchCommand (line : Json) : Option Command := do
  let msg ← line.obj?
  let kind ← required msg "type" Json.str?
  let payload ← required msg "payload" some
  match kind with
  | "run_command" =>
    let p ← payload.obj?
    return .runCommand (← required p "name" Json.str?) (← required p "path" Json.str?)
  | "inject_fault" =>
    let p ← payload.obj?
    return .injectFault (← readFault serdeReaders (required · "kind" Json.str?) p)
  | "flush_coverage" => return .flushCoverage
  | "reset_coverage" => return .resetCoverage
  | "set_choice_overrides" =>
    let p ← payload.obj?
    return .setChoiceOverrides (← required p "overrides" (serdeVec (serdeInt 32)))
  | "exec" =>
    let p ← payload.obj?
    return .exec (← required p "cmd" Json.str?) (← member p "timeout_seconds" (serdeInt 32) 0)
  | _ => none

def InI32 (value : Int) : Prop :=
  -2 ^ 31 ≤ value ∧ value < 2 ^ 31

instance (value : Int) : Decidable (InI32 value) :=
  inferInstanceAs (Decidable (_ ∧ _))

def faultInts (fault : AgentFault) : List Int :=
  [fault.delayMS, fault.rateKbps, fault.durationMS, fault.durationNS, fault.correlation,
    fault.cpuPct, fault.bps, fault.targetFreeBytes, fault.scriptTimeout,
    fault.diskFlakeyInterval, fault.diskFlakeyDuration]

/-- Readers that read back every value of the types in range. -/
structure Readers.Exact (readers : Readers) : Prop where
  string (value : String) : readers.string (.str value) = some value
  long {value : Int} (range : InI32 value) : readers.long (.num value) = some value
  int {value : Int} (range : InI32 value) : readers.int (.num value) = some value
  strings (values : List String) : readers.strings (.arr (values.map .str)) = some values

theorem signed_of_inI32 {bits : Nat} (wide : 32 ≤ bits) {value : Int} (range : InI32 value) :
    signed bits value = some value := by
  have grows : (2 : Int) ^ 31 ≤ 2 ^ (bits - 1) := by
    exact_mod_cast Nat.pow_le_pow_right (by decide) (by omega)
  obtain ⟨low, high⟩ := range
  exact if_pos ⟨by omega, by omega⟩

theorem mapM_map_of_forall {α : Type} {read : Json → Option α} {write : α → Json}
    {values : List α} (readsBack : ∀ value ∈ values, read (write value) = some value) :
    (values.map write).mapM read = some values := by
  induction values with
  | nil => rfl
  | cons value values ih =>
    rw [map_cons, mapM_cons, readsBack value mem_cons_self,
      ih fun later inside => readsBack later (mem_cons_of_mem _ inside)]
    rfl

theorem goReaders_exact : goReaders.Exact where
  string _ := rfl
  long range := signed_of_inI32 (by decide) range
  int range := signed_of_inI32 (by decide) range
  strings _ := mapM_map_of_forall fun _ _ => rfl

theorem serdeReaders_exact : serdeReaders.Exact where
  string _ := rfl
  long range := signed_of_inI32 (by decide) range
  int range := signed_of_inI32 (by decide) range
  strings _ := mapM_map_of_forall fun _ _ => rfl

section

variable {readers : Readers} (readsBack : readers.Exact) (fault : AgentFault)

variable {name : String}

theorem lookup_faultFields {empty : Bool} {value : Json}
    (inside : (name, empty, value) ∈ faultFields fault) :
    (omitEmptyMembers (faultFields fault)).lookup name = if empty then none else some value :=
  have distinct : ((faultFields fault).map Prod.fst).Nodup := by
    simp [faultFields, stringField, intField]
  lookup_omitEmptyMembers distinct inside

include readsBack

theorem member_stringField {value : String} (inside : stringField name value ∈ faultFields fault) :
    member (omitEmptyMembers (faultFields fault)) name readers.string "" = some value :=
  member_of_omitted (lookup_faultFields fault inside) (readsBack.string value)
    fun empty => String.isEmpty_iff.mp empty

theorem member_longField {value : Int} (inside : intField name value ∈ faultFields fault)
    (range : InI32 value) :
    member (omitEmptyMembers (faultFields fault)) name readers.long 0 = some value :=
  member_of_omitted (lookup_faultFields fault inside) (readsBack.long range)
    fun empty => beq_iff_eq.mp empty

theorem member_intField {value : Int} (inside : intField name value ∈ faultFields fault)
    (range : InI32 value) :
    member (omitEmptyMembers (faultFields fault)) name readers.int 0 = some value :=
  member_of_omitted (lookup_faultFields fault inside) (readsBack.int range)
    fun empty => beq_iff_eq.mp empty

theorem member_script_args :
    member (omitEmptyMembers (faultFields fault)) "script_args" readers.strings [] =
      some fault.scriptArgs :=
  member_of_omitted (lookup_faultFields fault (by simp [faultFields, stringField, intField]))
    (readsBack.strings _) fun empty => isEmpty_iff.mp empty

theorem readFault_faultFields (readKind : List (String × Json) → Option String)
    (readsKind : readKind (omitEmptyMembers (faultFields fault)) = some fault.kind)
    (range : ∀ value ∈ faultInts fault, InI32 value) :
    readFault readers readKind (omitEmptyMembers (faultFields fault)) = some fault := by
  have string (name value : String) (inside : stringField name value ∈ faultFields fault) :=
    member_stringField readsBack fault inside
  have long (name : String) (value : Int) (inside : intField name value ∈ faultFields fault)
      (listed : value ∈ faultInts fault) :=
    member_longField readsBack fault inside (range value listed)
  have int (name : String) (value : Int) (inside : intField name value ∈ faultFields fault)
      (listed : value ∈ faultInts fault) :=
    member_intField readsBack fault inside (range value listed)
  simp only [readFault, readsKind, member_script_args readsBack fault,
    string "port" fault.port (by simp [faultFields]),
    string "src_port" fault.srcPort (by simp [faultFields]),
    string "dst_port" fault.dstPort (by simp [faultFields]),
    string "direction" fault.direction (by simp [faultFields]),
    string "node" fault.nodeName (by simp [faultFields]),
    string "data_dir" fault.dataDir (by simp [faultFields]),
    string "script_path" fault.scriptPath (by simp [faultFields]),
    long "delay_ms" fault.delayMS (by simp [faultFields]) (by simp [faultInts]),
    long "duration_ms" fault.durationMS (by simp [faultFields]) (by simp [faultInts]),
    long "duration_ns" fault.durationNS (by simp [faultFields]) (by simp [faultInts]),
    long "bps" fault.bps (by simp [faultFields]) (by simp [faultInts]),
    long "target_free_bytes" fault.targetFreeBytes (by simp [faultFields]) (by simp [faultInts]),
    int "rate_kbps" fault.rateKbps (by simp [faultFields]) (by simp [faultInts]),
    int "correlation" fault.correlation (by simp [faultFields]) (by simp [faultInts]),
    int "cpu_pct" fault.cpuPct (by simp [faultFields]) (by simp [faultInts]),
    int "script_timeout_seconds" fault.scriptTimeout (by simp [faultFields]) (by simp [faultInts]),
    int "disk_flakey_interval_secs" fault.diskFlakeyInterval (by simp [faultFields])
      (by simp [faultInts]),
    int "disk_flakey_duration_secs" fault.diskFlakeyDuration (by simp [faultFields])
      (by simp [faultInts]),
    Option.bind_eq_bind, Option.bind_some, Option.pure_def]

end

def HostMessage.ints : HostMessage → List Int
  | injectFault fault => faultInts fault
  | setChoiceOverrides overrides => overrides.getD []
  | exec _ timeoutSeconds => [timeoutSeconds]
  | _ => []

def HostMessage.command : HostMessage → Command
  | runCommand name path => .runCommand name path
  | injectFault fault => .injectFault fault
  | flushCoverage => .flushCoverage
  | resetCoverage => .resetCoverage
  | setChoiceOverrides overrides => .setChoiceOverrides (overrides.getD [])
  | exec cmd timeoutSeconds => .exec cmd timeoutSeconds

def HostMessage.Complete : HostMessage → Prop
  | flushCoverage | resetCoverage => False
  | setChoiceOverrides overrides => overrides.isSome
  | _ => True

/-- The line and its newline fit the buffer of the Go agent. -/
def HostMessage.Short (message : HostMessage) : Prop :=
  (marshal message.encode).length + 1 ≤ scannerBuffer

instance (message : HostMessage) : Decidable message.Short :=
  inferInstanceAs (Decidable (_ ≤ _))

/-- Both agents reach the same handler, with the same fields. -/
def DropIn (message : HostMessage) : Prop :=
  ∃ command, commandListenerConn message.encode = some command ∧
    dispatchCommand message.encode = some command

theorem lookup_kind (fault : AgentFault) :
    (omitEmptyMembers (faultFields fault)).lookup "kind" = some (.str fault.kind) :=
  lookup_faultFields fault mem_cons_self

variable {message : HostMessage}

theorem commandListenerConn_of_short (short : message.Short)
    (range : ∀ value ∈ message.ints, InI32 value) :
    commandListenerConn message.encode = some message.command := by
  have read : (guard ((marshal message.encode).length + 1 ≤ scannerBuffer) : Option Unit) =
      some () := if_pos short
  rw [commandListenerConn, read]
  cases message with
  | runCommand name path => rfl
  | injectFault fault =>
    have read := readFault_faultFields goReaders_exact fault (member · "kind" goString "")
      (member_of_lookup (lookup_kind fault) goString "") range
    exact congrArg (· >>= fun fault => pure (Command.injectFault fault)) read
  | flushCoverage | resetCoverage => rfl
  | setChoiceOverrides overrides =>
    cases overrides with
    | none => rfl
    | some values =>
      have read : goSlice goInt (encodeInts (some values)) = some values :=
        mapM_map_of_forall fun value inside =>
          signed_of_inI32 (by decide) (range value inside)
      exact congrArg (· >>= fun values => pure (Command.setChoiceOverrides values)) read
  | exec cmd timeoutSeconds =>
    have read : goInt (.num timeoutSeconds) = some timeoutSeconds :=
      signed_of_inI32 (by decide) (range timeoutSeconds mem_cons_self)
    exact congrArg (· >>= fun seconds => pure (Command.exec cmd seconds)) read

theorem commandListenerConn_of_not_short (long : ¬ message.Short) :
    commandListenerConn message.encode = none := by
  have stopped : (guard ((marshal message.encode).length + 1 ≤ scannerBuffer) : Option Unit) =
      none := if_neg long
  rw [commandListenerConn, stopped]
  rfl

theorem dispatchCommand_encode (complete : message.Complete)
    (range : ∀ value ∈ message.ints, InI32 value) :
    dispatchCommand message.encode = some message.command := by
  cases message with
  | runCommand name path => rfl
  | injectFault fault =>
    have readsKind :
        required (omitEmptyMembers (faultFields fault)) "kind" Json.str? = some fault.kind := by
      rw [required, lookup_kind, Option.bind_some, Json.str?_str]
    have read := readFault_faultFields serdeReaders_exact fault
      (required · "kind" Json.str?) readsKind range
    exact congrArg (· >>= fun fault => pure (Command.injectFault fault)) read
  | flushCoverage | resetCoverage => cases complete
  | setChoiceOverrides overrides =>
    cases overrides with
    | none => cases complete
    | some values =>
      have read : serdeVec (serdeInt 32) (encodeInts (some values)) = some values :=
        mapM_map_of_forall fun value inside =>
          signed_of_inI32 (by decide) (range value inside)
      exact congrArg (· >>= fun values => pure (Command.setChoiceOverrides values)) read
  | exec cmd timeoutSeconds =>
    have read : serdeInt 32 (.num timeoutSeconds) = some timeoutSeconds :=
      signed_of_inI32 (by decide) (range timeoutSeconds mem_cons_self)
    exact congrArg (· >>= fun seconds => pure (Command.exec cmd seconds)) read

theorem dispatchCommand_encode_of_not_complete (incomplete : ¬ message.Complete) :
    dispatchCommand message.encode = none := by
  cases message with
  | runCommand name path | injectFault fault => exact absurd trivial incomplete
  | flushCoverage | resetCoverage => rfl
  | setChoiceOverrides overrides =>
    cases overrides with
    | none => rfl
    | some values => exact absurd rfl incomplete
  | exec cmd timeoutSeconds => exact absurd trivial incomplete

/-- On a message whose integers fit 32 bits the Rust agent is a drop-in exactly if the message has a
payload and no nil list, and its line is one that the Go agent reads. The Rust agent never flushes
or resets coverage. -/
theorem drop_in_iff_complete (message : HostMessage)
    (range : ∀ value ∈ message.ints, InI32 value) :
    DropIn message ↔ message.Complete ∧ message.Short := by
  constructor
  · rintro ⟨command, go, rust⟩
    constructor
    · by_contra incomplete
      rw [dispatchCommand_encode_of_not_complete incomplete] at rust
      cases rust
    · by_contra long
      rw [commandListenerConn_of_not_short long] at go
      cases go
  · rintro ⟨complete, short⟩
    exact ⟨message.command, commandListenerConn_of_short short range,
      dispatchCommand_encode complete range⟩

theorem drop_in_iff_complete_pause :
    DropIn (.injectFault { kind := "pause_node", nodeName := "n1", durationMS := 250 }) :=
  (drop_in_iff_complete _ (by decide)).mpr ⟨trivial, by decide +kernel⟩

/-- The message that ends a burst reaches a handler of the Go agent only, and so
does a nil list of overrides. -/
theorem flush_coverage_not_dispatched :
    commandListenerConn HostMessage.flushCoverage.encode = some .flushCoverage ∧
      dispatchCommand HostMessage.flushCoverage.encode = none ∧
      commandListenerConn (HostMessage.setChoiceOverrides none).encode =
        some (.setChoiceOverrides []) ∧
      dispatchCommand (HostMessage.setChoiceOverrides none).encode = none := by
  decide +kernel

end OpenThesis.Guest
