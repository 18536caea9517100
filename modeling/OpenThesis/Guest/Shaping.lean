import Mathlib.Data.String.Basic
import OpenThesis.Run.Core
import OpenThesis.Text.Digits

/-!
# Traffic shaping on the loopback device

Delay, throttle and reorder faults run `tc` commands against one tree on `lo`. A handler stops at
the first command that fails.
-/

namespace OpenThesis.Guest

open List Function

inductive Qdisc where
  | netemDelay (delayMS : Int)
  | tbf (rateKbps : Int)
  /-- A base delay of 1 ms, half of the packets reordered. -/
  | netemReorder (correlation : Int)
  deriving DecidableEq, Repr

inductive QdiscKind where
  | netem
  | tbf
  deriving DecidableEq, Repr

def Qdisc.kind : Qdisc → QdiscKind
  | netemDelay _ | netemReorder _ => .netem
  | tbf _ => .tbf

structure TcHandle where
  classid : Nat
  qdisc : Nat
  deriving DecidableEq, Repr

/-- The classes, queues and filters of a device. -/
structure TcTree where
  classes : Nat → Bool
  qdiscs : TcHandle → Option Qdisc
  /-- The port that a filter matches, and the class it directs it to. -/
  filters : List (String × Nat)

def TcTree.bare : TcTree where
  classes _ := false
  qdiscs _ := none
  filters := []

abbrev Tc := Option TcTree

namespace TcTree

def addClass (tree : TcTree) (classid : Nat) : TcTree :=
  { tree with classes := update tree.classes classid true }

def setQdisc (tree : TcTree) (handle : TcHandle) (qdisc : Qdisc) : TcTree :=
  { tree with qdiscs := update tree.qdiscs handle (some qdisc) }

def addFilter (tree : TcTree) (dport : String) (flowid : Nat) : TcTree :=
  { tree with filters := tree.filters ++ [(dport, flowid)] }

end TcTree

inductive TcCommand where
  | rootAdd
  | rootDel
  | classAdd (classid : Nat)
  | qdiscAdd (handle : TcHandle) (qdisc : Qdisc)
  | qdiscChange (handle : TcHandle) (qdisc : Qdisc)
  | filterAdd (dport : String) (flowid : Nat)

inductive TcError where
  | fileExists
  | other
  deriving DecidableEq, Repr

/-- What `tc` does to the device, and the error it ends with. -/
def Tc.exec : Tc → TcCommand → Tc × Option TcError
  | none, .rootAdd => (some TcTree.bare, none)
  | some tree, .rootAdd => (some tree, some .fileExists)
  | some _, .rootDel => (none, none)
  | some tree, .classAdd classid =>
    if tree.classes classid then (some tree, some .fileExists)
    else (some (tree.addClass classid), none)
  | some tree, .qdiscAdd handle qdisc =>
    if tree.classes handle.classid && (tree.qdiscs handle).isNone then
      (some (tree.setQdisc handle qdisc), none)
    else (some tree, some .other)
  | some tree, .qdiscChange handle qdisc =>
    if (tree.qdiscs handle).any (·.kind == qdisc.kind) then
      (some (tree.setQdisc handle qdisc), none)
    else (some tree, some .other)
  | some tree, .filterAdd dport flowid => (some (tree.addFilter dport flowid), none)
  | none, _ => (none, some .other)

def Tc.runSteps (tc : Tc) : List TcCommand → Tc
  | [] => tc
  | command :: rest =>
    match tc.exec command with
    | (tc, none) => tc.runSteps rest
    | (tc, some _) => tc

/-- What the agent knows of the device. -/
structure Shaper where
  rootInstalled : Bool
  tc : Tc

def portNumber (port : String) : Nat :=
  (Text.parseNat port.toList).getD 0

def tcHandleForPort (port : String) : TcHandle where
  classid := portNumber port
  qdisc := portNumber port

def defaultClass : Nat := 0x10

def tolerated : Option TcError → Bool
  | none | some .fileExists => true
  | some .other => false

def ensureLoopbackPrioLocked (s : Shaper) : Shaper × Bool :=
  if s.rootInstalled then (s, true)
  else
    match s.tc.exec .rootAdd with
    | (tc, rootError) =>
      if tolerated rootError then
        match tc.exec (.classAdd defaultClass) with
        | (tc, classError) =>
          if tolerated classError then ({ rootInstalled := true, tc }, true)
          else ({ s with tc }, false)
      else ({ s with tc }, false)

def withRoot (s : Shaper) (body : Tc → Tc) : Shaper :=
  match ensureLoopbackPrioLocked s with
  | (s, true) => { s with tc := body s.tc }
  | (s, false) => s

def delaySteps (port : String) (delayMS : Int) (tc : Tc) : Tc :=
  let h := tcHandleForPort port
  match tc.exec (.classAdd h.classid) with
  | (tc, some .fileExists) => (tc.exec (.qdiscChange h (.netemDelay delayMS))).1
  | (tc, some .other) => tc
  | (tc, none) =>
    tc.runSteps [.qdiscAdd h (.netemDelay delayMS), .filterAdd port h.classid]

def handleDelayPort (port : String) (delayMS : Int) (s : Shaper) : Shaper :=
  if port = "" ∨ delayMS ≤ 0 then s else withRoot s (delaySteps port delayMS)

def throttleSteps (port : String) (rateKbps : Int) (tc : Tc) : Tc :=
  let h := tcHandleForPort port
  tc.runSteps [.classAdd h.classid, .qdiscAdd h (.tbf rateKbps), .filterAdd port h.classid]

def handleThrottlePort (port : String) (rateKbps : Int) (s : Shaper) : Shaper :=
  if port = "" ∨ rateKbps ≤ 0 then s else withRoot s (throttleSteps port rateKbps)

def effectiveCorrelation (correlation : Int) : Int :=
  if correlation ≤ 0 then 25 else correlation

def reorderSteps (port : String) (correlation : Int) (tc : Tc) : Tc :=
  let h := tcHandleForPort port
  tc.runSteps
    [.qdiscAdd h (.netemReorder (effectiveCorrelation correlation)), .filterAdd port h.classid]

def handleReorderPort (port : String) (correlation : Int) (s : Shaper) : Shaper :=
  if port = "" then s else withRoot s (reorderSteps port correlation)

def Shaper.clear (s : Shaper) : Shaper where
  rootInstalled := false
  tc := (s.tc.exec .rootDel).1

theorem Shaper.clear_eq (s : Shaper) : s.clear = { rootInstalled := false, tc := none } := by
  rw [clear]
  cases s.tc with
  | none | some tree => rfl

/-- A fault on a port. -/
inductive ShapeRequest where
  | delay (port : String) (delayMS : Int)
  | throttle (port : String) (rateKbps : Int)
  | reorder (port : String) (correlation : Int)
  deriving DecidableEq, Repr

namespace ShapeRequest

def port : ShapeRequest → String
  | delay port _ | throttle port _ | reorder port _ => port

def qdisc : ShapeRequest → Qdisc
  | delay _ delayMS => .netemDelay delayMS
  | throttle _ rateKbps => .tbf rateKbps
  | reorder _ correlation => .netemReorder (effectiveCorrelation correlation)

def handle : ShapeRequest → Shaper → Shaper
  | delay port delayMS => handleDelayPort port delayMS
  | throttle port rateKbps => handleThrottlePort port rateKbps
  | reorder port correlation => handleReorderPort port correlation

def amount : ShapeRequest → Option Int
  | delay _ delayMS => some delayMS
  | throttle _ rateKbps => some rateKbps
  | reorder _ _ => none

end ShapeRequest

def ValidPort (port : String) : Prop :=
  port = toString (portNumber port) ∧ 0 < portNumber port ∧ portNumber port < 65536

instance (port : String) : Decidable (ValidPort port) :=
  inferInstanceAs (Decidable (_ ∧ _))

def ShapeRequest.Valid (request : ShapeRequest) : Prop :=
  ValidPort request.port ∧ ∀ amount ∈ request.amount, 0 < amount

def shape (s : Shaper) (requests : List ShapeRequest) : Shaper :=
  requests.foldl (fun s request => request.handle s) s.clear

/-- The port has the qdisc that was asked for, and a filter that leads to it. -/
def TcTree.Shapes (tree : TcTree) (request : ShapeRequest) : Prop :=
  tree.qdiscs (tcHandleForPort request.port) = some request.qdisc ∧
    (request.port, (tcHandleForPort request.port).classid) ∈ tree.filters

def Shaper.Shapes (s : Shaper) (request : ShapeRequest) : Prop :=
  ∃ tree, s.tc = some tree ∧ tree.Shapes request

def latest (requests : List ShapeRequest) (port : String) : Option Qdisc :=
  (requests.reverse.find? (·.port == port)).map ShapeRequest.qdisc

/-- Whether a request takes effect on a port with a given qdisc. The first delay or throttle makes
the class of a port; port 16 has the default class. Later only a delay changes anything, and only a
netem qdisc. -/
def ShapeRequest.Replaces : ShapeRequest → Option Qdisc → Prop
  | delay port _, none | throttle port _, none => portNumber port ≠ defaultClass
  | reorder port _, none => portNumber port = defaultClass
  | delay _ delayMS, some qdisc => qdisc = .netemDelay delayMS ∨ qdisc.kind = .netem
  | throttle _ rateKbps, some qdisc => qdisc = .tbf rateKbps
  | reorder _ correlation, some qdisc =>
    qdisc = .netemReorder (effectiveCorrelation correlation)

def ShapeRequest.steps : ShapeRequest → Tc → Tc
  | delay port delayMS => delaySteps port delayMS
  | throttle port rateKbps => throttleSteps port rateKbps
  | reorder port correlation => reorderSteps port correlation

structure TcTree.Tracks (tree : TcTree) (wanted : String → Option Qdisc) : Prop where
  classes {port : String} (valid : ValidPort port) :
    tree.classes (portNumber port) = true ↔
      portNumber port = defaultClass ∨ (wanted port).isSome
  qdiscs {port : String} (valid : ValidPort port) :
    tree.qdiscs (tcHandleForPort port) = wanted port
  filters {port : String} (valid : ValidPort port) (asked : (wanted port).isSome) :
    (port, portNumber port) ∈ tree.filters

theorem portNumber_injOn {first second : String} (firstValid : ValidPort first)
    (secondValid : ValidPort second) (same : portNumber first = portNumber second) :
    first = second := by
  rw [firstValid.1, secondValid.1, same]

theorem tcHandleForPort_ne {first second : String} (firstValid : ValidPort first)
    (secondValid : ValidPort second) (other : first ≠ second) :
    tcHandleForPort first ≠ tcHandleForPort second := fun same =>
  other (portNumber_injOn firstValid secondValid (congrArg TcHandle.classid same))

namespace TcTree.Tracks

variable {tree : TcTree} {wanted : String → Option Qdisc} {port : String} {qdisc : Qdisc}

theorem install (tracks : tree.Tracks wanted) (valid : ValidPort port) :
    (((tree.addClass (portNumber port)).setQdisc (tcHandleForPort port) qdisc).addFilter port
      (portNumber port)).Tracks (update wanted port (some qdisc)) where
  classes := by
    intro other otherValid
    by_cases same : other = port
    · subst same
      simp [addClass, setQdisc, addFilter]
    · have apart : portNumber other ≠ portNumber port := fun equal =>
        same (portNumber_injOn otherValid valid equal)
      simpa [addClass, setQdisc, addFilter, same, apart] using tracks.classes otherValid
  qdiscs := by
    intro other otherValid
    by_cases same : other = port
    · subst same
      simp [addClass, setQdisc, addFilter]
    · simpa [addClass, setQdisc, addFilter, same, tcHandleForPort_ne otherValid valid same]
        using tracks.qdiscs otherValid
  filters := by
    intro other otherValid asked
    by_cases same : other = port
    · subst same
      simp [addFilter]
    · rw [update_of_ne same] at asked
      exact mem_append_left _ (tracks.filters otherValid asked)

theorem replace (tracks : tree.Tracks wanted) (valid : ValidPort port)
    (asked : (wanted port).isSome) :
    (tree.setQdisc (tcHandleForPort port) qdisc).Tracks
      (update wanted port (some qdisc)) where
  classes := by
    intro other otherValid
    by_cases same : other = port
    · subst same
      simp [setQdisc, tracks.classes valid, asked]
    · rw [update_of_ne same]
      exact tracks.classes otherValid
  qdiscs := by
    intro other otherValid
    by_cases same : other = port
    · subst same
      simp [setQdisc]
    · simpa [setQdisc, same, tcHandleForPort_ne otherValid valid same]
        using tracks.qdiscs otherValid
  filters := by
    intro other otherValid otherAsked
    by_cases same : other = port
    · subst same
      exact tracks.filters valid asked
    · rw [update_of_ne same] at otherAsked
      exact tracks.filters otherValid otherAsked

theorem keep (tracks : tree.Tracks wanted) (asked : wanted port = some qdisc) :
    tree.Tracks (update wanted port (some qdisc)) := by
  rw [← asked, update_eq_self]
  exact tracks

end TcTree.Tracks

theorem TcTree.addClass_of_mem {tree : TcTree} {classid : Nat}
    (present : tree.classes classid = true) : tree.addClass classid = tree := by
  rw [addClass, ← present, update_eq_self]

section

variable {tree : TcTree} {wanted : String → Option Qdisc} {port : String}

/-- What is left of a request: its qdisc if it replaces what was there, and any other or none if
not. -/
def TcTree.Outcome (tree : TcTree) (wanted : String → Option Qdisc) (port : String)
    (qdisc : Qdisc) (replaces : Prop) : Prop :=
  (replaces ∧ tree.Tracks (update wanted port (some qdisc))) ∨
    (¬ replaces ∧ tree.qdiscs (tcHandleForPort port) ≠ some qdisc)

theorem TcTree.Tracks.outcome_of_unchanged (tracks : tree.Tracks wanted) (valid : ValidPort port)
    {qdisc : Qdisc} {replaces : Prop} (known : replaces ↔ wanted port = some qdisc) :
    tree.Outcome wanted port qdisc replaces := by
  by_cases asked : wanted port = some qdisc
  · exact .inl ⟨known.mpr asked, tracks.keep asked⟩
  · exact .inr ⟨mt known.mp asked, (tracks.qdiscs valid).trans_ne asked⟩

theorem runSteps_install (tracks : tree.Tracks wanted) (valid : ValidPort port)
    (fresh : wanted port = none) (qdisc : Qdisc) :
    Tc.runSteps (some (tree.addClass (portNumber port)))
        [.qdiscAdd (tcHandleForPort port) qdisc, .filterAdd port (portNumber port)] =
      some (((tree.addClass (portNumber port)).setQdisc (tcHandleForPort port) qdisc).addFilter
        port (portNumber port)) := by
  have free : tree.qdiscs (tcHandleForPort port) = none := (tracks.qdiscs valid).trans fresh
  have possible : ((tree.addClass (portNumber port)).classes (tcHandleForPort port).classid &&
      ((tree.addClass (portNumber port)).qdiscs (tcHandleForPort port)).isNone) = true := by
    simp [TcTree.addClass, tcHandleForPort] at free ⊢
    exact free
  simp only [Tc.runSteps, Tc.exec, possible, if_true]

theorem delaySteps_of_present (present : tree.classes (portNumber port) = true) (delayMS : Int) :
    delaySteps port delayMS (some tree) =
      some (if (tree.qdiscs (tcHandleForPort port)).any (·.kind == .netem)
        then tree.setQdisc (tcHandleForPort port) (.netemDelay delayMS) else tree) := by
  have kind : (Qdisc.netemDelay delayMS).kind = .netem := rfl
  simp only [delaySteps, Tc.exec, tcHandleForPort, present, if_true, kind, apply_ite Prod.fst]
  exact (apply_ite some _ _ _).symm

theorem delaySteps_of_absent (absent : tree.classes (portNumber port) = false) (delayMS : Int) :
    delaySteps port delayMS (some tree) = Tc.runSteps (some (tree.addClass (portNumber port)))
        [.qdiscAdd (tcHandleForPort port) (.netemDelay delayMS),
          .filterAdd port (portNumber port)] := by
  simp only [delaySteps, Tc.exec, tcHandleForPort, absent, Bool.false_eq_true, if_false]

section

variable (tracks : tree.Tracks wanted) (valid : ValidPort port)

include tracks valid

theorem delaySteps_outcome (delayMS : Int) :
    ∃ after, delaySteps port delayMS (some tree) = some after ∧
      after.Outcome wanted port (.netemDelay delayMS)
        ((ShapeRequest.delay port delayMS).Replaces (wanted port)) := by
  have classes := tracks.classes valid
  cases asked : wanted port with
  | none =>
    rw [asked] at classes
    by_cases default : portNumber port = defaultClass
    · -- the class is there, and there is no qdisc to change
      refine ⟨tree, ?_, tracks.outcome_of_unchanged valid ?_⟩
      · rw [delaySteps_of_present (classes.mpr (.inl default)), tracks.qdiscs valid, asked]
        rfl
      · simpa [ShapeRequest.Replaces, asked] using default
    · have absent : tree.classes (portNumber port) = false := by
        simpa [default] using classes
      refine ⟨_, ?_, .inl ⟨default, tracks.install valid⟩⟩
      rw [delaySteps_of_absent absent, runSteps_install tracks valid asked]
  | some qdisc =>
    rw [asked] at classes
    have steps := delaySteps_of_present (classes.mpr (.inr rfl)) delayMS
    rw [tracks.qdiscs valid, asked, Option.any_some] at steps
    by_cases netem : qdisc.kind = .netem
    · rw [netem, beq_self_eq_true, if_pos rfl] at steps
      exact ⟨_, steps, .inl ⟨.inr netem, tracks.replace valid (asked ▸ rfl)⟩⟩
    · rw [beq_false_of_ne netem, if_neg Bool.false_ne_true] at steps
      refine ⟨tree, steps, tracks.outcome_of_unchanged valid ?_⟩
      simp [ShapeRequest.Replaces, asked, netem]

theorem throttleSteps_outcome (rateKbps : Int) :
    ∃ after, throttleSteps port rateKbps (some tree) = some after ∧
      after.Outcome wanted port (.tbf rateKbps)
        ((ShapeRequest.throttle port rateKbps).Replaces (wanted port)) := by
  have classes := tracks.classes valid
  by_cases present : tree.classes (portNumber port) = true
  · -- the first command fails
    refine ⟨tree, ?_, tracks.outcome_of_unchanged valid ?_⟩
    · simp only [throttleSteps, Tc.runSteps, Tc.exec, tcHandleForPort, present, if_true]
    · cases asked : wanted port with
      | none =>
        have default := classes.mp present
        simpa [ShapeRequest.Replaces, asked] using default
      | some qdisc => simp [ShapeRequest.Replaces]
  · have absent : tree.classes (portNumber port) = false := Bool.eq_false_iff.mpr present
    rw [classes, not_or, Option.not_isSome_iff_eq_none] at present
    refine ⟨_, ?_, .inl ⟨?_, tracks.install valid⟩⟩
    · rw [← runSteps_install tracks valid present.2]
      simp only [throttleSteps, Tc.runSteps, Tc.exec, tcHandleForPort, absent,
        Bool.false_eq_true, if_false]
    · rw [present.2]
      exact present.1

theorem reorderSteps_outcome (correlation : Int) :
    ∃ after, reorderSteps port correlation (some tree) = some after ∧
      after.Outcome wanted port (.netemReorder (effectiveCorrelation correlation))
        ((ShapeRequest.reorder port correlation).Replaces (wanted port)) := by
  have classes := tracks.classes valid
  have qdiscs := tracks.qdiscs valid
  by_cases possible : portNumber port = defaultClass ∧ wanted port = none
  · -- only the default class is there without a qdisc
    refine ⟨_, ?_, .inl ⟨?_, tracks.install valid⟩⟩
    · rw [← runSteps_install tracks valid possible.2,
        TcTree.addClass_of_mem (classes.mpr (.inl possible.1))]
      rfl
    · rw [possible.2]
      exact possible.1
  · have refused : (tree.classes (portNumber port) &&
        (tree.qdiscs (tcHandleForPort port)).isNone) = false := by
      rw [qdiscs, Bool.and_eq_false_iff]
      cases asked : wanted port with
      | none =>
        rw [asked] at classes
        have notDefault : portNumber port ≠ defaultClass := fun equal => possible ⟨equal, asked⟩
        left
        simpa [notDefault] using classes
      | some qdisc => exact .inr rfl
    refine ⟨tree, ?_, tracks.outcome_of_unchanged valid ?_⟩
    · simp only [tcHandleForPort] at refused
      simp only [reorderSteps, Tc.runSteps, Tc.exec, tcHandleForPort, refused,
        Bool.false_eq_true, if_false]
    · cases asked : wanted port with
      | none => simpa [ShapeRequest.Replaces, asked] using possible
      | some qdisc => simp [ShapeRequest.Replaces]

end

theorem ShapeRequest.steps_outcome {request : ShapeRequest} (tracks : tree.Tracks wanted)
    (valid : request.Valid) :
    ∃ after, request.steps (some tree) = some after ∧
      after.Outcome wanted request.port request.qdisc (request.Replaces (wanted request.port)) := by
  cases request with
  | delay port delayMS => exact delaySteps_outcome tracks valid.1 delayMS
  | throttle port rateKbps => exact throttleSteps_outcome tracks valid.1 rateKbps
  | reorder port correlation => exact reorderSteps_outcome tracks valid.1 correlation

theorem TcTree.Outcome.shapes_iff {request : ShapeRequest} {replaces : Prop}
    (outcome : tree.Outcome wanted request.port request.qdisc replaces)
    (valid : request.Valid) : tree.Shapes request ↔ replaces := by
  rcases outcome with ⟨holds, tracks⟩ | ⟨fails, other⟩
  · refine iff_of_true ⟨?_, tracks.filters valid.1 ?_⟩ holds
    · rw [tracks.qdiscs valid.1, update_self]
    · rw [update_self, Option.isSome_some]
  · exact iff_of_false (fun shapes => other shapes.1) fails

end

def Shaper.tree (s : Shaper) : TcTree :=
  s.tc.getD (TcTree.bare.addClass defaultClass)

def Shaper.Rooted (s : Shaper) : Prop :=
  s.rootInstalled = s.tc.isSome

theorem ensureLoopbackPrioLocked_of_rooted {s : Shaper} (rooted : s.Rooted) :
    ensureLoopbackPrioLocked s = ({ rootInstalled := true, tc := some s.tree }, true) := by
  obtain ⟨rootInstalled, tc⟩ := s
  have flag : rootInstalled = tc.isSome := rooted
  subst flag
  cases tc with
  | none | some tree => rfl

theorem ShapeRequest.handle_of_rooted {s : Shaper} {request : ShapeRequest} (rooted : s.Rooted)
    (valid : request.Valid) :
    request.handle s = { rootInstalled := true, tc := request.steps (some s.tree) } := by
  have named {port : String} (validPort : ValidPort port) : port ≠ "" := by
    rintro rfl
    exact absurd validPort.2.1 (by decide)
  cases request with
  | delay port delayMS =>
    have positive : 0 < delayMS := valid.2 delayMS rfl
    have used : ¬ (port = "" ∨ delayMS ≤ 0) := not_or.mpr ⟨named valid.1, not_le.mpr positive⟩
    simp only [handle, handleDelayPort, used, if_false, withRoot,
      ensureLoopbackPrioLocked_of_rooted rooted, steps]
  | throttle port rateKbps =>
    have positive : 0 < rateKbps := valid.2 rateKbps rfl
    have used : ¬ (port = "" ∨ rateKbps ≤ 0) := not_or.mpr ⟨named valid.1, not_le.mpr positive⟩
    simp only [handle, handleThrottlePort, used, if_false, withRoot,
      ensureLoopbackPrioLocked_of_rooted rooted, steps]
  | reorder port correlation =>
    have used : port ≠ "" := named valid.1
    simp only [handle, handleReorderPort, used, if_false, withRoot,
      ensureLoopbackPrioLocked_of_rooted rooted, steps]

theorem ShapeRequest.handle_outcome {s : Shaper} {request : ShapeRequest}
    {wanted : String → Option Qdisc} (rooted : s.Rooted) (tracks : s.tree.Tracks wanted)
    (valid : request.Valid) : (request.handle s).Rooted ∧
      ((request.handle s).Shapes request ↔ request.Replaces (wanted request.port)) ∧
      (request.Replaces (wanted request.port) → (request.handle s).tree.Tracks
          (update wanted request.port (some request.qdisc))) := by
  obtain ⟨after, steps, outcome⟩ := steps_outcome tracks valid
  rw [handle_of_rooted rooted valid, steps]
  refine ⟨rfl, ?_, ?_⟩
  · rw [← outcome.shapes_iff valid]
    constructor
    · rintro ⟨found, isFound, shapes⟩
      cases isFound
      exact shapes
    · exact fun shapes => ⟨after, rfl, shapes⟩
  · intro replaces
    rcases outcome with ⟨_, tracks⟩ | ⟨fails, _⟩
    · exact tracks
    · exact absurd replaces fails

theorem latest_concat (requests : List ShapeRequest) (request : ShapeRequest) :
    latest (requests ++ [request]) =
      update (latest requests) request.port (some request.qdisc) := by
  funext port
  rw [latest, reverse_concat, find?_cons]
  by_cases same : request.port = port
  · subst same
    rw [beq_self_eq_true, update_self]
    rfl
  · rw [beq_false_of_ne same, update_of_ne (Ne.symm same)]
    rfl

theorem tracks_bare : (TcTree.bare.addClass defaultClass).Tracks (latest []) where
  classes _ := by simp [TcTree.bare, TcTree.addClass, update_apply, latest]
  qdiscs _ := rfl
  filters _ asked := by cases asked

theorem shape_concat (s : Shaper) (requests : List ShapeRequest) (request : ShapeRequest) :
    shape s (requests ++ [request]) = request.handle (shape s requests) := by
  rw [shape, foldl_append]
  rfl

theorem shape_tracks (s : Shaper) {requests : List ShapeRequest}
    (valid : ∀ request ∈ requests, request.Valid)
    (replaces : ∀ before request, before ++ [request] <+: requests →
      request.Replaces (latest before request.port)) :
    (shape s requests).Rooted ∧ (shape s requests).tree.Tracks (latest requests) := by
  refine Run.holds_of_conditions (motive := fun requests =>
      (shape s requests).Rooted ∧ (shape s requests).tree.Tracks (latest requests)) ?_
    (fun before request earlier now => ?_) fun before request inside => And.intro
      (valid request (inside.subset (mem_append_right _ mem_cons_self)))
      (replaces before request inside)
  · rw [shape, foldl_nil, Shaper.clear_eq]
    exact ⟨rfl, tracks_bare⟩
  · obtain ⟨rooted, _, tracks⟩ := request.handle_outcome earlier.1 earlier.2 now.1
    rw [shape_concat, latest_concat]
    exact ⟨rooted, tracks now.2⟩

/-- After every request of a run the port has the qdisc just asked for, exactly if every request
replaces what was last asked for on its port. -/
theorem requests_shape_iff_replace (s : Shaper) (requests : List ShapeRequest)
    (valid : ∀ request ∈ requests, request.Valid) :
    (∀ before request, before ++ [request] <+: requests →
        (shape s (before ++ [request])).Shapes request) ↔
      ∀ before request, before ++ [request] <+: requests →
        request.Replaces (latest before request.port) := by
  refine Run.forall_actions_iff fun before request inside replaces => ?_
  have validAll : ∀ other ∈ before ++ [request], other.Valid :=
    fun other isIn => valid other (inside.subset isIn)
  obtain ⟨rooted, tracks⟩ := shape_tracks s
    (fun other isIn => validAll other (mem_append_left _ isIn)) replaces
  rw [shape_concat]
  exact (request.handle_outcome rooted tracks
    (validAll request (mem_append_right _ mem_cons_self))).2.1

theorem requests_shape_iff_replace_two_delays :
    (shape { rootInstalled := false, tc := none }
      [.delay "8080" 20, .delay "8080" 50]).Shapes (.delay "8080" 50) := by
  have valid : ValidPort "8080" := by decide +kernel
  refine (requests_shape_iff_replace _ [.delay "8080" 20, .delay "8080" 50] ?_).mpr ?_
    [.delay "8080" 20] _ (prefix_refl _)
  · simp [ShapeRequest.Valid, ShapeRequest.port, ShapeRequest.amount, valid]
  · intro before request inside
    rcases before with _ | ⟨first, _ | ⟨second, rest⟩⟩
    · obtain rfl : request = .delay "8080" 20 := by simpa using inside
      exact show portNumber "8080" ≠ defaultClass by decide +kernel
    · obtain ⟨rfl, rfl⟩ : first = .delay "8080" 20 ∧ request = .delay "8080" 50 := by
        simpa using inside
      exact .inr rfl
    · simp at inside

/-- A throttle after a delay of the same port leaves the delay, and a reorder as the
first request of a port leaves nothing. -/
theorem throttle_after_delay_ignored :
    ¬ (shape { rootInstalled := false, tc := none }
        [.delay "8080" 20, .throttle "8080" 100]).Shapes (.throttle "8080" 100) ∧
      ¬ (shape { rootInstalled := false, tc := none }
        [.reorder "8080" 25]).Shapes (.reorder "8080" 25) := by
  have delayed : (shape { rootInstalled := false, tc := none }
      [.delay "8080" 20, .throttle "8080" 100]).tc.map (·.qdiscs (tcHandleForPort "8080")) =
        some (some (.netemDelay 20)) := by
    decide +kernel
  have unshaped : (shape { rootInstalled := false, tc := none }
      [.reorder "8080" 25]).tc.map (·.qdiscs (tcHandleForPort "8080")) = some none := by
    decide +kernel
  constructor
  · rintro ⟨tree, found, asked, _⟩
    rw [found, Option.map_some, Option.some.injEq] at delayed
    cases asked.symm.trans delayed
  · rintro ⟨tree, found, asked, _⟩
    rw [found, Option.map_some, Option.some.injEq] at unshaped
    cases asked.symm.trans unshaped

end OpenThesis.Guest
