import OpenThesis.Api.Findings
import OpenThesis.Text.Digits

/-!
# Replay tokens

A token has the identifier and the seed of the run that first reported its finding
(`internal/api/replays.go`).
-/

namespace OpenThesis.Api

open List

def cutLast (sep : List Char) : List Char → Option (List Char × List Char)
  | [] => (sep.isPrefixOf? []).map fun rest => ([], rest)
  | c :: text =>
    match cutLast sep text with
    | some (before, behind) => some (c :: before, behind)
    | none => (sep.isPrefixOf? (c :: text)).map fun rest => ([], rest)

inductive ReplayError
  | emptyToken
  | malformedToken (token : String)
  | tokenSeed
  | findingNotFound (fid : String)
  | noFindingOrToken
  | noFindingMatches (runID : String)
  deriving DecidableEq

def decodeReplayToken (token : String) : Except ReplayError (String × UInt64) :=
  if token = "" then
    .error .emptyToken
  else
    match cutLast ".seed_".toList token.toList with
    | none => .error (.malformedToken token)
    | some (runID, digits) =>
      match Text.parseNat digits with
      | none => .error .tokenSeed
      | some seed =>
        if seed < 2 ^ 64 then .ok (String.ofList runID, UInt64.ofNat seed)
        else .error .tokenSeed

theorem cutLast_of_not_mem {first : Char} {sep text : List Char} (absent : first ∉ text) :
    cutLast (first :: sep) text = none := by
  induction text with
  | nil => rfl
  | cons c text ih =>
    rw [mem_cons, not_or] at absent
    rw [cutLast, ih absent.2]
    simp [List.isPrefixOf?, absent.1]

theorem cutLast_append {first : Char} {sep behind : List Char} (absent : first ∉ sep ++ behind)
    (before : List Char) :
    cutLast (first :: sep) (before ++ first :: (sep ++ behind)) = some (before, behind) := by
  induction before with
  | nil =>
    rw [nil_append, cutLast, cutLast_of_not_mem absent]
    simp
  | cons c before ih => rw [cons_append, cutLast, ih]

theorem decodeReplayToken_encodeReplayToken (seed : UInt64) (runID : String) :
    decodeReplayToken (encodeReplayToken seed runID) = .ok (runID, seed) := by
  have text : (encodeReplayToken seed runID).toList =
      runID.toList ++ '.' :: ("seed_".toList ++ Nat.toDigits 10 seed.toNat) := by
    rw [encodeReplayToken, String.toList_append, String.toList_append, append_assoc]
    simp [Nat.toString_eq_repr, Nat.repr]
  have digits : '.' ∉ "seed_".toList ++ Nat.toDigits 10 seed.toNat := by
    rw [mem_append, not_or]
    exact ⟨by decide, fun inside => absurd (Text.isDigit_of_mem_toDigits inside) (by decide)⟩
  have nonempty : encodeReplayToken seed runID ≠ "" := by
    intro empty
    rw [empty] at text
    simp at text
  have sep : ".seed_".toList = '.' :: "seed_".toList := rfl
  rw [decodeReplayToken, if_neg nonempty, text, sep, cutLast_append digits]
  dsimp only
  rw [Text.parseNat_toDigits]
  dsimp only
  rw [if_pos seed.toNat_lt, String.ofList_toList, UInt64.ofNat_toNat]

/-- What a replay was created with; an empty text stands for nothing. -/
structure Replay where
  findingID : String
  replayToken : String

def resolveFindingForReplay (sorter : Sorter) (tests : List TestStore) (replay : Replay) :
    Except ReplayError Finding :=
  if replay.findingID ≠ "" then
    match tests.findSome? fun store => store.findings[replay.findingID]? with
    | some finding => .ok finding
    | none => .error (.findingNotFound replay.findingID)
  else if replay.replayToken = "" then
    .error .noFindingOrToken
  else
    match decodeReplayToken replay.replayToken with
    | .error error => .error error
    | .ok (runID, _) =>
      match tests.findSome? fun store =>
          (store.listFindings sorter).find? (·.runID = runID) with
      | some finding => .ok finding
      | none => .error (.noFindingMatches runID)

theorem resolveFindingForReplay_token (sorter : Sorter) (tests : List TestStore) (seed : UInt64)
    (runID : String) :
    resolveFindingForReplay sorter tests ⟨"", encodeReplayToken seed runID⟩ =
      match tests.findSome? fun store => (store.listFindings sorter).find? (·.runID = runID) with
      | some finding => .ok finding
      | none => .error (.noFindingMatches runID) := by
  have nonempty : encodeReplayToken seed runID ≠ "" := by
    intro empty
    have decoded := decodeReplayToken_encodeReplayToken seed runID
    rw [empty] at decoded
    cases decoded
  rw [resolveFindingForReplay, if_neg (by simp), if_neg nonempty,
    decodeReplayToken_encodeReplayToken]

structure ProjectRun where
  test : Nat
  seed : UInt64
  sequence : Nat
  result : RunResult
  faultsEnabled : Bool
  clock : Nat → Nat

section

variable (ids : Ids) (digest : String → String)

def ProjectRun.record (run : ProjectRun) (position : Nat) : RunRecord :=
  ⟨ids.generateID "run" position, run.seed, run.sequence⟩

def history (runs : List ProjectRun) (test : Nat) : List TestEvent :=
  (runs.zipIdx.filter fun entry => entry.1.test = test).map fun entry =>
    .result (entry.1.record ids entry.2) entry.1.result entry.1.faultsEnabled entry.1.clock

def projectStores (tests : List Nat) (runs : List ProjectRun) : List TestStore :=
  tests.map fun test => .after ids digest (history ids runs test)

/-- The token of a finding leads to a finding of its run with the same property and message. -/
def Identifies (sorter : Sorter) (tests : List Nat) (runs : List ProjectRun) (finding : Finding) :
    Prop :=
  ∃ (position : Nat) (run : ProjectRun) (resolved : Finding), runs[position]? = some run ∧
    finding.runID = (run.record ids position).id ∧
    resolveFindingForReplay sorter (projectStores ids digest tests runs)
      ⟨"", finding.replayToken⟩ = .ok resolved ∧
    resolved.property = finding.property ∧ resolved.message = finding.message ∧
    resolved.runID = finding.runID ∧
    decodeReplayToken resolved.replayToken = .ok (finding.runID, run.seed)

def Stored (tests : List Nat) (runs : List ProjectRun) (finding : Finding) : Prop :=
  ∃ store ∈ projectStores ids digest tests runs, finding ∈ store.findingFiles

variable {ids digest} {tests : List Nat} {runs : List ProjectRun}

theorem eq_report_of_mem_reports {run : RunRecord} {pc : PropertyCount} {update : Update}
    (inside : update ∈ pc.reports run) :
    ∃ kind, update = .report run kind pc.message pc.message := by
  rw [PropertyCount.reports] at inside
  split_ifs at inside <;> simp only [mem_singleton, not_mem_nil] at inside
  · exact ⟨.sometimes, inside⟩
  · exact ⟨.reachable, inside⟩

theorem run_eq_of_report_mem {run run' : RunRecord} {result : RunResult} {faultsEnabled : Bool}
    {kind : AssertionKind} {property message : String}
    (reported : .report run' kind property message ∈ applyResult run result faultsEnabled) :
    run' = run := by
  simp only [applyResult, updateSystemProperties, systemUpdate, mem_append, mem_map,
    mem_flatMap, mem_cons, not_mem_nil, reduceCtorEq, or_false] at reported
  rcases reported with ⟨violation, -, same⟩ | ⟨pc, -, inside⟩
  · cases same
    rfl
  · obtain ⟨kind, same⟩ := eq_report_of_mem_reports inside
    cases same
    rfl

theorem exists_run {finding : Finding} (stored : Stored ids digest tests runs finding) :
    ∃ (position : Nat) (run : ProjectRun), runs[position]? = some run ∧
      finding.runID = (run.record ids position).id ∧
      finding.replayToken = encodeReplayToken run.seed (run.record ids position).id := by
  obtain ⟨store, inside, stored⟩ := stored
  obtain ⟨test, -, rfl⟩ := mem_map.mp inside
  have stable : Stable fun finding =>
      ∃ (position : Nat) (run : ProjectRun), runs[position]? = some run ∧
        finding.runID = (run.record ids position).id ∧
        finding.replayToken = encodeReplayToken run.seed (run.record ids position).id :=
    ⟨fun _ => id, fun _ _ => id⟩
  refine stable.after ?_ finding stored
  intro record result faultsEnabled clock inside record' kind name message id now reported
  obtain ⟨⟨run, position⟩, there, same⟩ := mem_map.mp inside
  obtain rfl := run_eq_of_report_mem reported
  cases same
  exact ⟨position, run, mem_zipIdx_iff_getElem?.mp (mem_filter.mp there).1, rfl, rfl⟩

theorem exists_resolved (sorter : Sorter) {finding : Finding} (seed : UInt64)
    (stored : Stored ids digest tests runs finding) :
    ∃ resolved, Stored ids digest tests runs resolved ∧ resolved.runID = finding.runID ∧
      resolveFindingForReplay sorter (projectStores ids digest tests runs)
        ⟨"", encodeReplayToken seed finding.runID⟩ = .ok resolved := by
  obtain ⟨store, inside, there⟩ := stored
  have listed {store : TestStore} {other : Finding} :
      other ∈ store.listFindings sorter ↔ other ∈ store.findingFiles :=
    (sorter.perm _).mem_iff
  have found : ((projectStores ids digest tests runs).findSome? fun store =>
      (store.listFindings sorter).find? (·.runID = finding.runID)).isSome := by
    rw [findSome?_isSome_iff]
    exact ⟨store, inside, find?_isSome.mpr ⟨finding, listed.mpr there, by simp⟩⟩
  obtain ⟨resolved, found⟩ := Option.isSome_iff_exists.mp found
  obtain ⟨store', inside', first⟩ := exists_of_findSome?_eq_some found
  refine ⟨resolved, ⟨store', inside', listed.mp (mem_of_find?_eq_some first)⟩, ?_, ?_⟩
  · simpa using find?_some first
  · rw [resolveFindingForReplay_token, found]

/-- All tokens identify their findings exactly if no run is the first to report two findings that
differ in property or message. -/
theorem identifies_iff (ids : Ids) (digest : String → String) (sorter : Sorter) (tests : List Nat)
    (runs : List ProjectRun) :
    (∀ finding, Stored ids digest tests runs finding →
      Identifies ids digest sorter tests runs finding) ↔
    ∀ first second, Stored ids digest tests runs first → Stored ids digest tests runs second →
      first.runID = second.runID →
      first.property = second.property ∧ first.message = second.message := by
  constructor
  · intro identifies first second stored stored' same
    -- the two have one token, and it leads to one finding
    have token : first.replayToken = second.replayToken := by
      obtain ⟨position, run, there, runID, token⟩ := exists_run stored
      obtain ⟨position', run', there', runID', token'⟩ := exists_run stored'
      obtain rfl := ids.generateID_inj.mp (runID.symm.trans (same.trans runID'))
      cases there.symm.trans there'
      rw [token, token']
    obtain ⟨-, -, resolved, -, -, found, property, message, -⟩ := identifies first stored
    obtain ⟨-, -, resolved', -, -, found', property', message', -⟩ := identifies second stored'
    rw [token, found'] at found
    cases found
    exact ⟨property.symm.trans property', message.symm.trans message'⟩
  · intro agree finding stored
    obtain ⟨position, run, there, runID, token⟩ := exists_run stored
    obtain ⟨resolved, stored', same, found⟩ := exists_resolved sorter run.seed stored
    obtain ⟨position', run', there', runID', token'⟩ := exists_run stored'
    obtain rfl := ids.generateID_inj.mp (runID.symm.trans (same.symm.trans runID'))
    cases there.symm.trans there'
    obtain ⟨property, message⟩ := agree resolved finding stored' stored same
    refine ⟨position, run, resolved, there, runID, ?_, property, message, same, ?_⟩
    · rw [token, ← runID]
      exact found
    · rw [token', decodeReplayToken_encodeReplayToken, runID]

def twoViolations : List ProjectRun :=
  [{ test := 0
     seed := 7
     sequence := 1
     result := { violations := [⟨"balance", "balance is negative"⟩, ⟨"orders", "order is lost"⟩] }
     faultsEnabled := true
     clock := id }]

def lostOrder : Finding :=
  Update.newFinding id ⟨unaryIds.generateID "run" 0, 7, 1⟩ .always "orders" "order is lost"
    (unaryIds.generateID "find" 1) 1

theorem lostOrder_not_identified :
    Stored unaryIds id [0] twoViolations lostOrder ∧
      (resolveFindingForReplay stableSorter (projectStores unaryIds id [0] twoViolations)
        ⟨"", lostOrder.replayToken⟩).map Finding.message = .ok "balance is negative" ∧
      ¬Identifies unaryIds id stableSorter [0] twoViolations lostOrder := by
  have resolves : (resolveFindingForReplay stableSorter
      (projectStores unaryIds id [0] twoViolations) ⟨"", lostOrder.replayToken⟩).map
        Finding.message = .ok "balance is negative" := by
    decide +kernel
  refine ⟨⟨_, mem_singleton_self _, by decide +kernel⟩, resolves, ?_⟩
  rintro ⟨position, run, resolved, -, -, found, -, message, -⟩
  rw [found] at resolves
  have same : lostOrder.message = "balance is negative" :=
    message.symm.trans (Except.ok.inj resolves)
  exact absurd same (by decide)

end

end OpenThesis.Api
