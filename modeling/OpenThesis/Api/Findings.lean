import OpenThesis.Api.Accounts
import OpenThesis.Api.Errors

/-!
# Findings on the dashboard

Runs report findings and users set their status; the dashboard derives verdicts from those that are
not resolved (`internal/api/properties.go`).
-/

namespace OpenThesis.Api

open List

structure UpdateBody where
  status : Option String

def parseStatus : String → Option FindingStatus
  | "new" => some .new
  | "ongoing" => some .ongoing
  | "resolved" => some .resolved
  | "rare" => some .rare
  | _ => none

def handleUpdateFinding (store : TestStore) (fid : String) (body : Option UpdateBody)
    (saved : Bool) : Except APIError TestStore :=
  match store.findings[fid]? with
  | none => .error ⟨.findingNotFound, "finding not found", ""⟩
  | some finding =>
    match body with
    | none => .error ⟨.validationError, "invalid request body", ""⟩
    | some body =>
      match body.status.elim (some finding.status) parseStatus with
      | none =>
        .error ⟨.invalidField, "invalid status",
          "status must be one of: new, ongoing, resolved, rare"⟩
      | some status =>
        if saved then
          .ok { store with
            findings := store.findings.insert finding.id { finding with status } }
        else
          .error ⟨.internalError, "failed to save finding", ""⟩

/-- An order of the findings by the time at which they were first seen; the order of ties is left
open. -/
structure Sorter where
  sort : List Finding → List Finding
  perm : ∀ findings, (sort findings).Perm findings
  sorted : ∀ findings, (sort findings).Pairwise fun first second =>
    first.firstSeenAt ≤ second.firstSeenAt

def TestStore.listFindings (store : TestStore) (sorter : Sorter) : List Finding :=
  sorter.sort store.findingFiles

def TestStore.listAssertions (store : TestStore) : List Assertion :=
  store.assertions.toList.map Prod.snd

def hasPrefix (text start : String) : Bool :=
  start.toList.isPrefixOf text.toList

def isPlatformProperty (message : String) : Bool :=
  hasPrefix message "process " || hasPrefix message "peak memory"

inductive PropertyStatus
  | pending
  | pass
  | fail
  deriving DecidableEq, Repr

structure Property where
  name : String
  description : String
  status : PropertyStatus
  passed : Nat := 0
  total : Nat := 0
  deriving DecidableEq, Repr

def propertyTexts : AssertionKind → String × String
  | .always => ("Always assertions", "Properties that must hold on every execution step")
  | .sometimes => ("Sometimes assertions", "Properties that must be satisfied at least once")
  | .reachable => ("Reachable assertions", "Code paths that must be reached at least once")

def buildAssertionProperty (kind : AssertionKind) (assertions : List Assertion)
    (sdkFindings : List Finding) : Property :=
  let counted := assertions.find? (·.kind = kind)
  let passed := counted.elim 0 Assertion.passedEvals
  let total := counted.elim 0 Assertion.totalEvals
  { name := (propertyTexts kind).1
    description := (propertyTexts kind).2
    status :=
      if sdkFindings.any fun finding => finding.kind = kind ∧ finding.status ≠ .resolved then .fail
      else if 0 < total ∧ passed = total ∧ kind = .always then .pass
      else if 0 < total ∧ 0 < passed ∧ (kind = .sometimes ∨ kind = .reachable) then .pass
      -- evaluated without violations
      else if 0 < total then .pass
      else .pending
    passed := passed
    total := total }

/-- The property of a kind in the group of `buildCorrectnessGroup`. -/
def TestStore.assertionProperty (store : TestStore) (sorter : Sorter) (kind : AssertionKind) :
    Property :=
  buildAssertionProperty kind store.listAssertions
    ((store.listFindings sorter).filter fun finding => !isPlatformProperty finding.message)

theorem assertionProperty_fail_iff (store : TestStore) (sorter : Sorter) (kind : AssertionKind) :
    (store.assertionProperty sorter kind).status = .fail ↔
      ∃ finding ∈ store.findingFiles, isPlatformProperty finding.message = false ∧
        finding.kind = kind ∧ finding.status ≠ .resolved := by
  have listed (finding : Finding) :
      finding ∈ store.listFindings sorter ↔ finding ∈ store.findingFiles :=
    (sorter.perm _).mem_iff
  simp only [TestStore.assertionProperty, buildAssertionProperty]
  constructor
  · intro failed
    split_ifs at failed with found
    obtain ⟨finding, inside, isKind⟩ := any_eq_true.mp found
    obtain ⟨inside, sdk⟩ := mem_filter.mp inside
    exact ⟨finding, (listed finding).mp inside, by simpa using sdk, by simpa using isKind⟩
  · rintro ⟨finding, inside, sdk, isKind⟩
    rw [if_pos]
    refine any_eq_true.mpr ⟨finding, mem_filter.mpr ⟨(listed finding).mpr inside, ?_⟩, ?_⟩
    · simp [sdk]
    · simpa using isKind

/-- The files have the generated names, and no two findings have one fingerprint. -/
structure Indexed (ids : Ids) (digest : String → String) (store : TestStore) : Prop where
  named : Named ids store
  unique : ∀ first ∈ store.findingFiles, ∀ second ∈ store.findingFiles,
    first.fingerprint = second.fingerprint → first = second
  fingerprint : ∀ finding ∈ store.findingFiles,
    finding.fingerprint = fingerprintFinding digest finding.kind finding.message

section

variable {ids : Ids} {digest : String → String} {store : TestStore} {finding : Finding}
  {fingerprint : String}

theorem Indexed.find_eq_some_iff (indexed : Indexed ids digest store) :
    store.findFindingByFingerprint fingerprint = some finding ↔
      finding ∈ store.findingFiles ∧ finding.fingerprint = fingerprint := by
  constructor
  · intro found
    exact ⟨mem_of_find?_eq_some found, by simpa using find?_some found⟩
  · rintro ⟨inside, rfl⟩
    cases found : store.findFindingByFingerprint finding.fingerprint with
    | none => exact absurd inside (by simpa using find?_eq_none.mp found finding)
    | some first =>
      have same : first.fingerprint = finding.fingerprint := by
        simpa using find?_some found
      rw [indexed.unique first (mem_of_find?_eq_some found) finding inside same]

theorem Indexed.find_eq_none_iff : store.findFindingByFingerprint fingerprint = none ↔
      ∀ finding ∈ store.findingFiles, finding.fingerprint ≠ fingerprint := by
  simp [TestStore.findFindingByFingerprint]

structure Written (ids : Ids) (digest : String → String) (store store' : TestStore)
    (finding : Finding) : Prop where
  named : Named ids store'
  files : store'.findings = store.findings.insert finding.id finding
  fingerprint : finding.fingerprint = fingerprintFinding digest finding.kind finding.message
  owner : ∀ other ∈ store.findingFiles,
    other.fingerprint = finding.fingerprint ↔ other.id = finding.id

variable {store' : TestStore}

section

variable (written : Written ids digest store store' finding)

include written

theorem Written.mem_iff (named : Named ids store) {other : Finding} : other ∈ store'.findingFiles ↔
      other = finding ∨ other ∈ store.findingFiles ∧ other.id ≠ finding.id := by
  rw [written.named.mem_findingFiles, named.mem_findingFiles, written.files, Keyed.lookup_insert]
  by_cases same : other.id = finding.id
  · rw [if_pos same]
    constructor
    · intro stored
      exact Or.inl (Option.some.inj stored).symm
    · rintro (rfl | ⟨-, ne⟩)
      · rfl
      · exact (ne same).elim
  · rw [if_neg same]
    constructor
    · intro stored
      exact Or.inr ⟨stored, same⟩
    · rintro (rfl | ⟨stored, -⟩)
      · exact (same rfl).elim
      · exact stored

theorem Written.indexed (indexed : Indexed ids digest store) : Indexed ids digest store' where
  named := written.named
  unique := by
    intro first mem second mem' same
    rcases (written.mem_iff indexed.named).mp mem with rfl | ⟨stored, ne⟩
    · rcases (written.mem_iff indexed.named).mp mem' with rfl | ⟨stored', ne'⟩
      · rfl
      · exact (ne' ((written.owner second stored').mp same.symm)).elim
    · rcases (written.mem_iff indexed.named).mp mem' with rfl | ⟨stored', -⟩
      · exact (ne ((written.owner first stored).mp same)).elim
      · exact indexed.unique first stored second stored' same
  fingerprint := by
    intro other mem
    rcases (written.mem_iff indexed.named).mp mem with rfl | ⟨stored, -⟩
    · exact written.fingerprint
    · exact indexed.fingerprint other stored

theorem Written.find (indexed : Indexed ids digest store) (fingerprint : String) :
    store'.findFindingByFingerprint fingerprint =
      if finding.fingerprint = fingerprint then some finding
      else store.findFindingByFingerprint fingerprint := by
  have indexed' := written.indexed indexed
  split_ifs with same
  · rw [indexed'.find_eq_some_iff, written.mem_iff indexed.named]
    exact ⟨Or.inl rfl, same⟩
  · ext other
    rw [indexed'.find_eq_some_iff, indexed.find_eq_some_iff, written.mem_iff indexed.named]
    constructor
    · rintro ⟨rfl | ⟨stored, -⟩, here⟩
      · exact (same here).elim
      · exact ⟨stored, here⟩
    · rintro ⟨stored, here⟩
      refine ⟨Or.inr ⟨stored, fun owned => same ?_⟩, here⟩
      rw [← (written.owner other stored).mpr owned, here]

end

theorem Indexed.owner_iff (indexed : Indexed ids digest store)
    (stored : finding ∈ store.findingFiles) {other : Finding}
    (inside : other ∈ store.findingFiles) :
    other.fingerprint = finding.fingerprint ↔ other.id = finding.id := by
  constructor
  · intro same
    rw [indexed.unique other inside finding stored same]
  · intro same
    have first := indexed.named.mem_findingFiles.mp inside
    rw [same, indexed.named.mem_findingFiles.mp stored] at first
    cases first
    rfl

/-- The finding as a report leaves it: seen again, or new. -/
def reported (ids : Ids) (digest : String → String) (store : TestStore) (run : RunRecord)
    (kind : AssertionKind) (property message : String) (now : Nat) : Finding :=
  match store.findFindingByFingerprint (fingerprintFinding digest kind message) with
  | some existing => existing.again
  | none =>
    Update.newFinding digest run kind property message (ids.generateID "find" store.drawn) now

section

variable (indexed : Indexed ids digest store)

include indexed

theorem Indexed.written_report (run : RunRecord)
    (kind : AssertionKind) (property message : String) (now : Nat) : Written ids digest store
      ((storeUpdates ids digest).perform store (.report run kind property message, now))
      (reported ids digest store run kind property message now) := by
  have named : Named ids
      ((storeUpdates ids digest).perform store (.report run kind property message, now)) :=
    indexed.named.perform _ now
  rw [reported]
  rcases perform_report ids digest store run kind property message now with
    ⟨existing, found, performed⟩ | ⟨absent, performed⟩
  · rw [found]
    obtain ⟨stored, -⟩ := indexed.find_eq_some_iff.mp found
    exact ⟨named, by rw [performed]; rfl, indexed.fingerprint existing stored,
      fun other inside => indexed.owner_iff stored inside⟩
  · rw [absent]
    refine ⟨named, by rw [performed]; rfl, rfl, fun other inside =>
      ⟨fun same => ?_, fun same => ?_⟩⟩
    · exact (Indexed.find_eq_none_iff.mp absent other inside same).elim
    · have fresh := indexed.named.finding_fresh
      have stored := indexed.named.mem_findingFiles.mp inside
      rw [same] at stored
      exact absurd (fresh.symm.trans stored) nofun

theorem Indexed.perform (update : Update) (now : Nat) :
    Indexed ids digest ((storeUpdates ids digest).perform store (update, now)) := by
  cases update with
  | report run kind property message =>
    exact (indexed.written_report run kind property message now).indexed indexed
  | trigger | count | cover =>
    exact ⟨indexed.named.perform _ now, indexed.unique, indexed.fingerprint⟩

theorem Indexed.written_update {fid : String} {body : Option UpdateBody} {saved : Bool}
    (updated : handleUpdateFinding store fid body saved = .ok store') :
    ∃ finding ∈ store.findingFiles, ∃ status,
      Written ids digest store store' { finding with status } := by
  revert updated
  fun_cases handleUpdateFinding store fid body saved <;> intro updated <;> cases updated
  case case4 finding found body status parsed isSaved =>
      obtain ⟨own, earlier⟩ := indexed.named.findings fid finding found
      have stored : finding ∈ store.findingFiles :=
        indexed.named.mem_findingFiles.mpr (own ▸ found)
      refine ⟨finding, stored, status, ⟨indexed.named.runs, fun name other inside => ?_⟩, rfl,
        indexed.fingerprint finding stored, fun other inside => indexed.owner_iff stored inside⟩
      rw [Keyed.lookup_insert] at inside
      split at inside
      next same =>
        cases inside
        exact ⟨same.symm, by rw [same, own]; exact earlier⟩
      · exact indexed.named.findings name other inside

end

end

inductive TestEvent
  | result (run : RunRecord) (result : RunResult) (faultsEnabled : Bool) (clock : Nat → Nat)
  | update (fid : String) (body : Option UpdateBody) (saved : Bool)

namespace TestEvent

def timed (run : RunRecord) (result : RunResult) (faultsEnabled : Bool) (clock : Nat → Nat) :
    List (Update × Nat) :=
  (applyResult run result faultsEnabled).zipIdx.map fun entry => (entry.1, clock entry.2)

def Reports (kind : AssertionKind) (message : String) : TestEvent → Prop
  | .result run outcome faultsEnabled _ =>
    ∃ run' property, .report run' kind property message ∈ applyResult run outcome faultsEnabled
  | .update .. => False

end TestEvent

def CollisionFree (digest : String → String) (events : List TestEvent) : Prop :=
  ∀ first ∈ events, ∀ second ∈ events, ∀ kind message kind' message',
    first.Reports kind message → second.Reports kind' message' →
    fingerprintFinding digest kind message = fingerprintFinding digest kind' message' →
    kind = kind' ∧ message = message'

theorem CollisionFree.of_prefix {digest : String → String} {before events : List TestEvent}
    (free : CollisionFree digest events) (isPre : before <+: events) :
    CollisionFree digest before :=
  fun first mem second mem' => free first (isPre.subset mem) second (isPre.subset mem')

theorem fingerprintFinding_inj {digest : String → String} (injective : Function.Injective digest)
    {kind kind' : AssertionKind} {message message' : String} :
    fingerprintFinding digest kind message = fingerprintFinding digest kind' message' ↔
      kind = kind' ∧ message = message' := by
  constructor
  · intro same
    have text := congrArg String.toList (injective same)
    simp only [String.toList_append] at text
    cases kind <;> cases kind' <;>
      simp [AssertionKind.name, String.toList_inj] at text ⊢ <;> exact text
  · rintro ⟨rfl, rfl⟩
    rfl

theorem collisionFree_of_injective {digest : String → String}
    (injective : Function.Injective digest) (events : List TestEvent) :
    CollisionFree digest events :=
  fun _ _ _ _ _ _ _ _ _ _ same => (fingerprintFinding_inj injective).mp same

section

variable (ids : Ids) (digest : String → String)

/-- A failed request leaves the store as it was. -/
def TestStore.step (store : TestStore) : TestEvent → TestStore
  | .result run result faultsEnabled clock =>
    (TestEvent.timed run result faultsEnabled clock).foldl (storeUpdates ids digest).perform store
  | .update fid body saved =>
    match handleUpdateFinding store fid body saved with
    | .ok store => store
    | .error _ => store

def TestStore.after (events : List TestEvent) : TestStore :=
  events.foldl (TestStore.step ids digest) {}

/-- The finding of a violation is stored and not resolved, and the property of its kind fails. -/
def Shown (sorter : Sorter) (store : TestStore) (message : String) : Prop :=
  (∃ finding, store.findFindingByFingerprint (fingerprintFinding digest .always message) =
      some finding ∧ finding.status ≠ .resolved) ∧
    (store.assertionProperty sorter .always).status = .fail

def Unresolved (store : TestStore) (fingerprint : String) : Prop :=
  ∀ finding, store.findFindingByFingerprint fingerprint = some finding →
    finding.status ≠ .resolved

variable {ids digest} {store : TestStore}

theorem again_resolved_iff (finding : Finding) :
    finding.again.status = .resolved ↔ finding.status = .resolved := by
  rw [Finding.again]
  dsimp only
  split_ifs with isNew
  · rw [isNew]
    decide
  · rfl

variable (run : RunRecord) {events : List TestEvent}

theorem fingerprint_reported (kind : AssertionKind) (property message : String) (now : Nat) :
    (reported ids digest store run kind property message now).fingerprint =
      fingerprintFinding digest kind message := by
  rw [reported]
  cases found : store.findFindingByFingerprint (fingerprintFinding digest kind message) with
  | none => rfl
  | some existing => simpa using find?_some found

section

variable (indexed : Indexed ids digest store)

include indexed

theorem Indexed.find_report (run : RunRecord)
    (kind : AssertionKind) (property message : String) (now : Nat) (fingerprint : String) :
    ((storeUpdates ids digest).perform store (.report run kind property message, now)
      ).findFindingByFingerprint fingerprint =
      if fingerprintFinding digest kind message = fingerprint then
        some (reported ids digest store run kind property message now)
      else store.findFindingByFingerprint fingerprint := by
  rw [(indexed.written_report run kind property message now).find indexed, fingerprint_reported]

theorem unresolved_perform_iff (update : Update) (now : Nat) (fingerprint : String) :
    Unresolved ((storeUpdates ids digest).perform store (update, now)) fingerprint ↔
      Unresolved store fingerprint := by
  cases update with
  | trigger | count | cover => exact Iff.rfl
  | report run kind property message =>
    rw [Unresolved, Unresolved, indexed.find_report]
    split_ifs with here
    · subst here
      rw [reported]
      cases store.findFindingByFingerprint (fingerprintFinding digest kind message) with
      | none => simp [Update.newFinding]
      | some existing => simp [again_resolved_iff]
    · rfl

theorem isSome_perform {update : Update} {fingerprint : String}
    (now : Nat) (there : (store.findFindingByFingerprint fingerprint).isSome ∨
      update.reports digest fingerprint = true) :
    (((storeUpdates ids digest).perform store (update, now)).findFindingByFingerprint
      fingerprint).isSome := by
  cases update with
  | trigger | count | cover => exact there.resolve_right nofun
  | report run kind property message =>
    rw [indexed.find_report]
    split_ifs with here
    · rfl
    · exact there.resolve_right (by simpa [Update.reports] using here)

end

variable {updates : List (Update × Nat)}

section

variable (indexed : Indexed ids digest store)

include indexed

theorem Indexed.foldl :
    Indexed ids digest (updates.foldl (storeUpdates ids digest).perform store) :=
  foldlRecOn (motive := Indexed ids digest) updates _ indexed
    fun _ indexed update _ => indexed.perform update.1 update.2

theorem unresolved_foldl_iff (fingerprint : String) :
    Unresolved (updates.foldl (storeUpdates ids digest).perform store) fingerprint ↔
      Unresolved store fingerprint := by
  induction updates generalizing store with
  | nil => rfl
  | cons update rest ih =>
    rw [foldl_cons, ih (indexed.perform update.1 update.2)]
    exact unresolved_perform_iff indexed update.1 update.2 fingerprint

theorem isSome_foldl {fingerprint : String}
    (there : (store.findFindingByFingerprint fingerprint).isSome ∨
      ∃ entry ∈ updates, entry.1.reports digest fingerprint = true) :
    ((updates.foldl (storeUpdates ids digest).perform store).findFindingByFingerprint
      fingerprint).isSome := by
  induction updates generalizing store with
  | nil => exact there.resolve_right nofun
  | cons update rest ih =>
    refine ih (indexed.perform update.1 update.2) ?_
    rcases there with there | ⟨entry, inside, isReport⟩
    · exact Or.inl (isSome_perform indexed update.2 (Or.inl there))
    · rcases mem_cons.mp inside with rfl | later
      · exact Or.inl (isSome_perform indexed entry.2 (Or.inr isReport))
      · exact Or.inr ⟨entry, later, isReport⟩

theorem Indexed.step (event : TestEvent) : Indexed ids digest (store.step ids digest event) := by
  cases event with
  | result run result faultsEnabled clock => exact indexed.foldl
  | update fid body saved =>
    rw [TestStore.step]
    cases updated : handleUpdateFinding store fid body saved with
    | error error => exact indexed
    | ok store' =>
      obtain ⟨finding, -, status, written⟩ := indexed.written_update updated
      exact written.indexed indexed

end

theorem indexed_after (events : List TestEvent) : Indexed ids digest (.after ids digest events) :=
  foldlRecOn (motive := Indexed ids digest) events _
    ⟨⟨by simp, by simp⟩, by simp [TestStore.findingFiles], by simp [TestStore.findingFiles]⟩
    fun _ indexed event _ => indexed.step event

theorem after_concat (events : List TestEvent) (event : TestEvent) :
    TestStore.after ids digest (events ++ [event]) =
      (TestStore.after ids digest events).step ids digest event :=
  foldl_concat ..

/-- A property of findings that neither another occurrence nor a user changes. -/
structure Stable (property : Finding → Prop) : Prop where
  again : ∀ finding, property finding → property finding.again
  status : ∀ finding status, property finding → property { finding with status }

variable {property : Finding → Prop}

section

variable (stable : Stable property) (indexed : Indexed ids digest store)
  (holds : ∀ finding ∈ store.findingFiles, property finding)

include stable indexed holds

theorem Stable.perform {update : Update} {now : Nat}
    (new : ∀ run kind name message id, update = .report run kind name message →
      property (Update.newFinding digest run kind name message id now)) :
    ∀ finding ∈ ((storeUpdates ids digest).perform store (update, now)).findingFiles,
      property finding := by
  cases update with
  | trigger | count | cover => exact holds
  | report run kind name message =>
    intro finding inside
    rcases ((indexed.written_report run kind name message now).mem_iff
      indexed.named).mp inside with rfl | ⟨earlier, -⟩
    · rw [reported]
      cases found : store.findFindingByFingerprint (fingerprintFinding digest kind message) with
      | none => exact new run kind name message _ rfl
      | some existing =>
        exact stable.again existing (holds existing (mem_of_find?_eq_some found))
    · exact holds finding earlier

theorem Stable.foldl
    (new : ∀ entry ∈ updates, ∀ run kind name message id, entry.1 = .report run kind name message →
      property (Update.newFinding digest run kind name message id entry.2)) :
    ∀ finding ∈ (updates.foldl (storeUpdates ids digest).perform store).findingFiles,
      property finding := by
  induction updates generalizing store with
  | nil => exact holds
  | cons update rest ih =>
    exact ih (indexed.perform update.1 update.2)
      (stable.perform indexed holds (new update mem_cons_self))
      fun entry inside => new entry (mem_cons_of_mem _ inside)

end

theorem TestEvent.timed_map_fst (result : RunResult) (faultsEnabled : Bool) (clock : Nat → Nat) :
    (TestEvent.timed run result faultsEnabled clock).map Prod.fst =
      applyResult run result faultsEnabled := by
  rw [TestEvent.timed, map_map]
  exact zipIdx_map_fst 0 _

theorem Stable.after (stable : Stable property)
    (new : ∀ run result faultsEnabled clock, .result run result faultsEnabled clock ∈ events →
      ∀ run' kind name message id now,
        .report run' kind name message ∈ applyResult run result faultsEnabled →
        property (Update.newFinding digest run' kind name message id now)) :
    ∀ finding ∈ (TestStore.after ids digest events).findingFiles, property finding := by
  induction events using reverseRecOn with
  | nil => simp [TestStore.after, TestStore.findingFiles]
  | append_singleton events event ih =>
    have indexed : Indexed ids digest (.after ids digest events) := indexed_after events
    have holds := ih fun run result faultsEnabled clock inside =>
      new run result faultsEnabled clock (mem_append_left _ inside)
    rw [after_concat]
    cases event with
    | result run result faultsEnabled clock =>
      refine stable.foldl indexed holds fun entry inside run' kind name message id isReport => ?_
      refine new run result faultsEnabled clock
        (mem_append_right _ (mem_singleton_self _)) run' kind name message id _ ?_
      rw [← isReport, ← TestEvent.timed_map_fst run result faultsEnabled clock]
      exact mem_map_of_mem inside
    | update fid body saved =>
      rw [TestStore.step]
      cases updated : handleUpdateFinding (.after ids digest events) fid body saved with
      | error error => exact holds
      | ok store' =>
        obtain ⟨finding, inside, status, written⟩ := indexed.written_update updated
        intro other there
        rcases (written.mem_iff indexed.named).mp there with rfl | ⟨before, -⟩
        · exact stable.status finding status (holds finding inside)
        · exact holds other before

theorem exists_reports : ∀ finding ∈ (TestStore.after ids digest events).findingFiles,
      ∃ event ∈ events, event.Reports finding.kind finding.message := by
  have stable : Stable fun finding =>
      ∃ event ∈ events, TestEvent.Reports finding.kind finding.message event :=
    ⟨fun _ => id, fun _ _ => id⟩
  refine stable.after ?_
  intro run result faultsEnabled clock inside run' kind name message id now reported
  exact ⟨_, inside, run', name, reported⟩

variable {message : String}

theorem shown_iff (sorter : Sorter) (free : CollisionFree digest events)
    (sdk : isPlatformProperty message = false)
    (reports : ∃ event ∈ events, event.Reports .always message) :
    Shown digest sorter (.after ids digest events) message ↔
      ((TestStore.after ids digest events).findFindingByFingerprint
          (fingerprintFinding digest .always message)).isSome ∧
        Unresolved (.after ids digest events) (fingerprintFinding digest .always message) := by
  have indexed : Indexed ids digest (.after ids digest events) := indexed_after events
  constructor
  · rintro ⟨⟨finding, found, unresolved⟩, -⟩
    refine ⟨Option.isSome_iff_exists.mpr ⟨finding, found⟩, fun other same => ?_⟩
    cases found.symm.trans same
    exact unresolved
  · rintro ⟨there, unresolved⟩
    obtain ⟨finding, found⟩ := Option.isSome_iff_exists.mp there
    obtain ⟨stored, same⟩ := indexed.find_eq_some_iff.mp found
    refine ⟨⟨finding, found, unresolved finding found⟩, ?_⟩
    -- no other text has the fingerprint, so that the finding is one of the always assertions
    obtain ⟨event, inside, reported⟩ := reports
    obtain ⟨event', inside', reported'⟩ := exists_reports finding stored
    obtain ⟨isKind, isMessage⟩ := free event' inside' event inside _ _ _ _ reported' reported
      ((indexed.fingerprint finding stored).symm.trans same)
    rw [assertionProperty_fail_iff]
    exact ⟨finding, stored, isMessage ▸ sdk, isKind, unresolved finding found⟩

theorem report_mem_applyResult {result : RunResult} {violation : Violation}
    (occurred : violation ∈ result.violations) (faultsEnabled : Bool) :
    .report run .always violation.property violation.message ∈
      applyResult run result faultsEnabled := by
  simp only [applyResult, append_assoc]
  exact mem_append_left _ (mem_map.mpr ⟨violation, occurred, rfl⟩)

theorem shown_iff_unresolved (ids : Ids) (sorter : Sorter) {before : List TestEvent}
    {run : RunRecord} {result : RunResult} {faultsEnabled : Bool} {clock : Nat → Nat}
    {violation : Violation}
    (free : CollisionFree digest (before ++ [.result run result faultsEnabled clock]))
    (occurred : violation ∈ result.violations)
    (sdk : isPlatformProperty violation.message = false) :
    Shown digest sorter (.after ids digest (before ++ [.result run result faultsEnabled clock]))
        violation.message ↔ Unresolved (.after ids digest before)
        (fingerprintFinding digest .always violation.message) := by
  have indexed : Indexed ids digest (.after ids digest before) := indexed_after before
  have isReport := report_mem_applyResult run occurred faultsEnabled
  rw [shown_iff sorter free sdk ⟨_, mem_append_right _ (mem_singleton_self _),
    run, violation.property, isReport⟩, after_concat, TestStore.step, unresolved_foldl_iff indexed,
    and_iff_right]
  rw [← TestEvent.timed_map_fst run result faultsEnabled clock] at isReport
  obtain ⟨entry, inside, isEntry⟩ := mem_map.mp isReport
  refine isSome_foldl indexed (Or.inr ⟨entry, inside, ?_⟩)
  rw [isEntry]
  simp [Update.reports]

/-- Without collisions of fingerprints, every violation is shown right after its run exactly if no
run meets a finding of it that a user has resolved. -/
theorem recurring_shown_iff (ids : Ids) (digest : String → String) (sorter : Sorter)
    (events : List TestEvent) (free : CollisionFree digest events) :
    (∀ before run result faultsEnabled clock violation,
      before ++ [.result run result faultsEnabled clock] <+: events →
      violation ∈ result.violations → isPlatformProperty violation.message = false →
      Shown digest sorter (.after ids digest (before ++ [.result run result faultsEnabled clock]))
        violation.message) ↔
    ∀ before run result faultsEnabled clock violation,
      before ++ [.result run result faultsEnabled clock] <+: events →
      violation ∈ result.violations → isPlatformProperty violation.message = false →
      Unresolved (.after ids digest before)
        (fingerprintFinding digest .always violation.message) := by
  have agree {before : List TestEvent} {run : RunRecord} {result : RunResult}
      {faultsEnabled : Bool} {clock : Nat → Nat} {violation : Violation}
      (inside : before ++ [.result run result faultsEnabled clock] <+: events)
      (occurred : violation ∈ result.violations)
      (sdk : isPlatformProperty violation.message = false) :=
    shown_iff_unresolved ids sorter (free.of_prefix inside) occurred sdk
  constructor
  · intro shown before run result faultsEnabled clock violation inside occurred sdk
    exact (agree inside occurred sdk).mp (shown _ _ _ _ _ _ inside occurred sdk)
  · intro unresolved before run result faultsEnabled clock violation inside occurred sdk
    exact (agree inside occurred sdk).mpr (unresolved _ _ _ _ _ _ inside occurred sdk)

def stableSorter : Sorter where
  sort := insertionSort fun first second => first.firstSeenAt ≤ second.firstSeenAt
  perm := perm_insertionSort _
  sorted findings := by
    have : Std.Total fun first second : Finding => first.firstSeenAt ≤ second.firstSeenAt :=
      ⟨fun _ _ => Nat.le_total _ _⟩
    have : IsTrans Finding fun first second => first.firstSeenAt ≤ second.firstSeenAt :=
      ⟨fun _ _ _ => Nat.le_trans⟩
    exact pairwise_insertionSort _ findings

def overdrawn : RunResult :=
  { totalStates := 4
    violations := [⟨"balance", "balance is negative"⟩]
    always := { total := 2, passed := 1, failed := 1 } }

def resolvedTooSoon : List TestEvent :=
  [.result ⟨"run_1", 7, 1⟩ overdrawn true id,
    .update (unaryIds.generateID "find" 0) (some ⟨some "resolved"⟩) true,
    .result ⟨"run_2", 8, 2⟩ overdrawn true id]

-- without the user's update, the second run shows the violation again
theorem recurring_violation_shown :
    let events := resolvedTooSoon.eraseIdx 1
    CollisionFree id events ∧
      Shown id stableSorter (.after unaryIds id events) "balance is negative" := by
  intro events
  have free : CollisionFree id events := collisionFree_of_injective Function.injective_id _
  refine ⟨free, (recurring_shown_iff unaryIds id stableSorter _ free).mpr ?_ (events.take 1) _ _ _
    _ ⟨"balance", "balance is negative"⟩ (prefix_refl _) (List.mem_singleton_self _) rfl⟩
  rintro before run result faultsEnabled clock violation ⟨rest, whole⟩ occurred _ finding found
  match before, whole with
  | [], _ => cases found
  | [_], whole =>
    obtain ⟨rfl, tail⟩ := cons.inj whole
    obtain ⟨isSecond, -⟩ := cons.inj tail
    cases isSecond
    cases mem_singleton.mp occurred
    have open' : ((TestStore.after unaryIds id (events.take 1)).findFindingByFingerprint
        (fingerprintFinding id .always "balance is negative")).all
          (·.status ≠ .resolved) = true := by
      decide +kernel
    exact of_decide_eq_true ((Option.all_eq_true _ _).mp open' finding found)
  | _ :: _ :: _, whole =>
    exact absurd (congrArg List.length whole) (by simp [events, resolvedTooSoon])

theorem second_violation_hidden :
    (TestStore.after unaryIds id resolvedTooSoon).findingFiles.map
        (fun finding => (finding.status, finding.occurrences)) = [(.resolved, 2)] ∧
      ((TestStore.after unaryIds id resolvedTooSoon).assertionProperty stableSorter
        .always).status = .pass ∧
      ¬Shown id stableSorter (.after unaryIds id resolvedTooSoon) "balance is negative" := by
  have passes : ((TestStore.after unaryIds id resolvedTooSoon).assertionProperty stableSorter
      .always).status = .pass := by
    decide +kernel
  refine ⟨by decide +kernel, passes, fun shown => ?_⟩
  exact absurd (passes.symm.trans shown.2) nofun

end

end OpenThesis.Api
