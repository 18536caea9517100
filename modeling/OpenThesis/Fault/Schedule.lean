import Mathlib.Data.List.Basic
import OpenThesis.Fault.Kind
import OpenThesis.Float.Rounding
import OpenThesis.Json.Core

/-!
# Fault schedules

Recorded fault events (`internal/fault/schedule.go`), their JSON file, and replay with a cursor.
Loaded numbers are floating-point numbers, loaded lists untyped. A file is read as `Save` writes it:
a file written by hand may have members in other letters, nulls, fractions and unknown kinds.
-/

namespace OpenThesis.Fault

open Json List

/-- A parameter of dynamic type, or a value of a JSON document. -/
inductive Value where
  | int (value : Int)
  | int64 (value : Int)
  | bool (value : Bool)
  | string (value : String)
  | strings (items : List String)
  | stringLists (lists : List (List String))
  | decoded (json : Json)

def Value.toJson : Value → Json
  | int value => .num value
  | int64 value => .num value
  | bool value => .bool value
  | string value => .str value
  | strings items => .arr (items.map .str)
  | stringLists lists => .arr (lists.map fun items => .arr (items.map .str))
  | decoded json => json

/-- What a value of a document becomes under the type `any`. A parameter has no numbers inside
lists. -/
def Value.load : Json → Value
  | .num value => .decoded (.num (Float.float64 value))
  | json => .decoded json

abbrev Params := List (String × Value)

namespace Params

def int (params : Params) (key : String) : Int :=
  match params.lookup key with
  | some (.int value) => value
  | _ => 0

def int64 (params : Params) (key : String) : Int :=
  match params.lookup key with
  | some (.int64 value) => value
  | _ => 0

def string (params : Params) (key : String) : String :=
  match params.lookup key with
  | some (.string value) => value
  | some (.decoded (.str value)) => value
  | _ => ""

def stringLists (params : Params) (key : String) : List (List String) :=
  match params.lookup key with
  | some (.stringLists lists) => lists
  | _ => []

def untypedStrings (params : Params) (key : String) : List String :=
  match params.lookup key with
  | some (.decoded (.arr items)) => items.filterMap Json.str?
  | _ => []

def reload (params : Params) : Params :=
  params.map fun (key, value) => (key, .load value.toJson)

/-! Loading forgets types: numbers and nested lists are not found under theirs. -/

theorem exists_load (json : Json) : ∃ loaded, Value.load json = .decoded loaded := by
  cases json <;> exact ⟨_, rfl⟩

theorem load_toJson_load (json : Json) : Value.load (Value.load json).toJson = .load json := by
  cases json with
  | num value => simp only [Value.load, Value.toJson, Float.float64_float64]
  | _ => rfl

section

variable (params : Params) (key : String)

theorem lookup_reload :
    params.reload.lookup key = (params.lookup key).map fun value => .load value.toJson := by
  induction params with
  | nil => rfl
  | cons param params ih =>
    rcases param with ⟨name, value⟩
    simp only [reload, map_cons, lookup_cons]
    cases key == name with
    | true => rfl
    | false => exact ih

@[simp]
theorem int_reload : params.reload.int key = 0 := by
  rw [int, lookup_reload]
  cases params.lookup key with
  | none => rfl
  | some value =>
    obtain ⟨loaded, isLoaded⟩ := exists_load value.toJson
    rw [Option.map_some, isLoaded]

@[simp]
theorem int64_reload : params.reload.int64 key = 0 := by
  rw [int64, lookup_reload]
  cases params.lookup key with
  | none => rfl
  | some value =>
    obtain ⟨loaded, isLoaded⟩ := exists_load value.toJson
    rw [Option.map_some, isLoaded]

@[simp]
theorem stringLists_reload : params.reload.stringLists key = [] := by
  rw [stringLists, lookup_reload]
  cases params.lookup key with
  | none => rfl
  | some value =>
    obtain ⟨loaded, isLoaded⟩ := exists_load value.toJson
    rw [Option.map_some, isLoaded]

theorem reload_reload : params.reload.reload = params.reload := by
  simp only [reload, map_map, Function.comp_def, load_toJson_load]

variable {params key}

theorem string_reload {value : String} (stored : params.lookup key = some (.string value)) :
    params.reload.string key = value := by
  rw [string, lookup_reload, stored]
  rfl

theorem untypedStrings_reload {items : List String}
    (stored : params.lookup key = some (.strings items)) :
    params.reload.untypedStrings key = items := by
  have strings : (items.map Json.str).filterMap Json.str? = items := by
    rw [filterMap_map]
    exact filterMap_some
  rw [untypedStrings, lookup_reload, stored]
  exact strings

end

end Params

/-- A recorded fault. -/
structure ScheduleEntry where
  step : Nat
  faultKind : Kind
  target : String := ""
  targetB : String := ""
  durationNS : UInt64 := 0
  params : Params := []
  snapshotPathHash : UInt64 := 0
  virtualTimeNS : UInt64 := 0

def ScheduleEntry.reload (entry : ScheduleEntry) : ScheduleEntry :=
  { entry with params := entry.params.reload }

/-- The recorded faults, and the cursor of a replay. -/
structure Schedule where
  entries : List ScheduleEntry := []
  replay : Bool := false
  cursor : Nat := 0

def newSchedule : Schedule :=
  {}

def Schedule.record (s : Schedule) (entry : ScheduleEntry) : Schedule :=
  if s.replay then s else { s with entries := s.entries ++ [entry] }

theorem Schedule.record_of_recording {s : Schedule} (recording : s.replay = false)
    (entry : ScheduleEntry) : s.record entry = { s with entries := s.entries ++ [entry] } := by
  simp only [record, recording, Bool.false_eq_true, if_false]

theorem Schedule.foldl_record {s : Schedule} (recording : s.replay = false)
    (entries : List ScheduleEntry) :
    entries.foldl record s = { s with entries := s.entries ++ entries } := by
  induction entries generalizing s with
  | nil => rw [foldl_nil, append_nil]
  | cons entry entries ih =>
    have rest := @ih { s with entries := s.entries ++ [entry] } recording
    rw [foldl_cons, record_of_recording recording, rest, append_assoc, singleton_append]

def dueFrom (step : Nat) : List ScheduleEntry → List ScheduleEntry × Nat
  | [] => ([], 0)
  | e :: rest =>
    if e.step > step then ([], 0)
    else
      let (result, passed) := dueFrom step rest
      (if e.step = step then e :: result else result, passed + 1)

def Schedule.faultsAt (s : Schedule) (step : Nat) : List ScheduleEntry × Schedule :=
  if s.replay then
    let (result, passed) := dueFrom step (s.entries.drop s.cursor)
    (result, { s with cursor := s.cursor + passed })
  else ([], s)

/-- The members, and whether each is left out because it has the tag `omitempty` and is empty. -/
def ScheduleEntry.fields (entry : ScheduleEntry) : List (String × Bool × Json) :=
  [("step", false, .num entry.step), ("fault_kind", false, .str entry.faultKind.name),
    ("target", false, .str entry.target), ("target_b", entry.targetB.isEmpty, .str entry.targetB),
    ("duration_ns", entry.durationNS == 0, .num entry.durationNS.toNat),
    ("params", entry.params.isEmpty,
      .obj (entry.params.map fun (key, value) => (key, value.toJson))),
    ("snapshot_path_hash", entry.snapshotPathHash == 0, .num entry.snapshotPathHash.toNat),
    ("virtual_time_ns", entry.virtualTimeNS == 0, .num entry.virtualTimeNS.toNat)]

def ScheduleEntry.members (entry : ScheduleEntry) : List (String × Json) :=
  omitEmptyMembers entry.fields

def ScheduleEntry.toJson (entry : ScheduleEntry) : Json :=
  .obj entry.members

/-- Reads the members that `toJson` writes. -/
def ScheduleEntry.ofJson (json : Json) : Option ScheduleEntry := do
  let members ← json.obj?
  let step ← member members "step" Json.nat? 0
  let faultKind ← (member members "fault_kind" Json.str? "").bind Kind.ofName
  let target ← member members "target" Json.str? ""
  let targetB ← member members "target_b" Json.str? ""
  let durationNS ← member members "duration_ns" Json.uint64? 0
  let params ← member members "params" Json.obj? []
  let snapshotPathHash ← member members "snapshot_path_hash" Json.uint64? 0
  let virtualTimeNS ← member members "virtual_time_ns" Json.uint64? 0
  pure
    { step, faultKind, target, targetB, durationNS
      params := params.map fun (key, json) => (key, .load json)
      snapshotPathHash, virtualTimeNS }

def Schedule.save (s : Schedule) : Json :=
  .obj [("entries", if s.entries.isEmpty then .null else .arr (s.entries.map (·.toJson)))]

def entriesOfJson : Json → Option (List ScheduleEntry)
  | .null => some []
  | json => json.arr?.bind fun items => items.mapM ScheduleEntry.ofJson

def newReplaySchedule (document : Json) : Except String Schedule :=
  match document.obj?.bind fun members => member members "entries" entriesOfJson [] with
  | none => .error "fault schedule parse"
  | some entries => .ok { entries, replay := true }

theorem ScheduleEntry.member_members {entry : ScheduleEntry} {i : Nat} {name : String}
    {empty : Bool} {value : Json} (written : entry.fields[i]? = some (name, empty, value))
    {α : Type} {read : Json → Option α} {original default : α}
    (reads : read value = some original) (isDefault : empty = true → original = default) :
    member entry.members name read default = some original :=
  have distinct : (entry.fields.map Prod.fst).Nodup := by simp [fields]
  member_of_omitted (lookup_omitEmptyMembers distinct (mem_of_getElem? written)) reads isDefault

theorem ScheduleEntry.ofJson_toJson (entry : ScheduleEntry) :
    ofJson entry.toJson = some entry.reload := by
  have step : member entry.members "step" Json.nat? 0 = some entry.step :=
    member_members (i := 0) rfl (Json.nat?_num _) (by simp)
  have kind : member entry.members "fault_kind" Json.str? "" = some entry.faultKind.name :=
    member_members (i := 1) rfl rfl (by simp)
  have target : member entry.members "target" Json.str? "" = some entry.target :=
    member_members (i := 2) rfl rfl (by simp)
  have targetB : member entry.members "target_b" Json.str? "" = some entry.targetB :=
    member_members (i := 3) rfl rfl String.isEmpty_iff.mp
  have duration : member entry.members "duration_ns" Json.uint64? 0 = some entry.durationNS :=
    member_members (i := 4) rfl (Json.uint64?_num _) eq_of_beq
  have params : member entry.members "params" Json.obj? [] =
      some (entry.params.map fun (key, value) => (key, value.toJson)) := by
    apply member_members (i := 5) rfl (Json.obj?_obj _)
    intro empty
    rw [isEmpty_iff.mp empty, map_nil]
  have pathHash : member entry.members "snapshot_path_hash" Json.uint64? 0 =
      some entry.snapshotPathHash :=
    member_members (i := 6) rfl (Json.uint64?_num _) eq_of_beq
  have virtualTime : member entry.members "virtual_time_ns" Json.uint64? 0 =
      some entry.virtualTimeNS :=
    member_members (i := 7) rfl (Json.uint64?_num _) eq_of_beq
  simp only [ofJson, toJson, Json.obj?_obj, Option.bind_eq_bind, Option.bind_some, step, kind,
    Kind.ofName_name, target, targetB, duration, params, pathHash, virtualTime, map_map]
  rfl

theorem mapM_ofJson (entries : List ScheduleEntry) :
    (entries.map (·.toJson)).mapM ScheduleEntry.ofJson = some (entries.map (·.reload)) := by
  induction entries with
  | nil => rfl
  | cons entry entries ih =>
    simp [mapM_cons, ScheduleEntry.ofJson_toJson, ih]

theorem newReplaySchedule_save (s : Schedule) :
    newReplaySchedule s.save =
      .ok { entries := s.entries.map (·.reload), replay := true } := by
  cases entries : s.entries with
  | nil => simp [newReplaySchedule, Schedule.save, member, entries, entriesOfJson]
  | cons entry rest =>
    have decoded := mapM_ofJson (entry :: rest)
    simp only [newReplaySchedule, Schedule.save, entries, member, Json.obj?_obj,
      Option.bind_some, lookup_cons, beq_self_eq_true, isEmpty_cons, Bool.false_eq_true,
      if_false, entriesOfJson, Json.arr?_arr, decoded]

/-- What the file of a recorded schedule loses it loses when it is first loaded: entries of the
loaded schedule come back as they are when they are saved and loaded again. -/
theorem loaded_round_trip (recorded : Schedule) :
    ∃ s, newReplaySchedule recorded.save = .ok s ∧ s.entries.length = recorded.entries.length ∧
      ∀ entries ⊆ s.entries,
        newReplaySchedule { entries : Schedule }.save = .ok { entries, replay := true } := by
  refine ⟨_, newReplaySchedule_save recorded, length_map _, fun entries part => ?_⟩
  have kept : ∀ entry ∈ entries, entry.reload = entry := by
    intro entry mem
    obtain ⟨original, -, rfl⟩ := mem_map.mp (part mem)
    simp only [ScheduleEntry.reload, Params.reload_reload]
  rw [newReplaySchedule_save, map_congr_left kept, map_id']

end OpenThesis.Fault
