import OpenThesis.Guest.Kcov

/-!
# Which flushes report coverage to the host

A flush should send the bitmap whenever its traces raised a slot, and nothing if the bitmap is the
last one sent.
-/

namespace OpenThesis.Guest

open Slots Option

structure Reporting (σ : Type) where
  state : σ
  lastSent : Bitmap

def Raised (before after : Bitmap) : Prop :=
  ∃ slot, (before.get slot).toNat < (after.get slot).toNat

/-- A flush that folded traces from `before` into `folded` and left `after` sends it if a slot was
raised, and nothing if it is the last bitmap sent. -/
def Reports (before folded after lastSent : Bitmap) (sent : Option Bitmap) : Prop :=
  (Raised before folded → sent = some after) ∧ (after = lastSent → sent = none)

namespace KcovState

/-- A mapped bitmap has grown from the last one sent, of which a copy is kept. -/
def Tracks (s : KcovState) (lastSent : Bitmap) : Prop :=
  ∀ shared, s.bitmap = some shared → s.prevBitmap = lastSent ∧ Below lastSent shared

variable {s : KcovState} {lastSent : Bitmap}

theorem tracks_opened (shared : Option Bitmap) : (opened shared).Tracks Bitmap.zero := by
  intro bitmap _
  refine ⟨rfl, fun slot => ?_⟩
  rw [Bitmap.get_zero]
  exact Nat.zero_le _

theorem tracks_reset (s : KcovState) : s.reset.Tracks Bitmap.zero := by
  intro shared mapped
  obtain ⟨_, -, rfl⟩ := map_eq_some_iff.mp mapped
  exact ⟨rfl, Below.refl _⟩

section

variable (tracks : s.Tracks lastSent)

include tracks

theorem Tracks.setTarget {bitmap : Bitmap}
    (grows : Below s.target bitmap) : (s.setTarget bitmap).Tracks lastSent := by
  intro shared mapped
  unfold KcovState.setTarget at mapped ⊢
  cases old : s.bitmap with
  | none =>
    rw [old] at mapped
    cases mapped
  | some before =>
    rw [old] at mapped
    obtain ⟨copy, below⟩ := tracks before old
    rw [target, old, getD_some] at grows
    obtain rfl : bitmap = shared := Option.some.inj mapped
    exact ⟨copy, below.trans grows⟩

theorem Tracks.drain : s.drain.Tracks lastSent := by
  have grows : Below s.target
      (foldTrace s.lastPC (s.buf.take (kcovEntries - 1)) s.target) := by
    rw [foldTrace_eq]
    exact below_touchAll _ _
  exact tracks.setTarget grows

theorem Tracks.share (hits : List (Fin bitmapSize)) :
    KcovState.Tracks { s with bitmap := s.bitmap.map fun shared => touchAll shared hits }
      lastSent := by
  intro shared mapped
  obtain ⟨before, old, rfl⟩ := map_eq_some_iff.mp mapped
  obtain ⟨copy, below⟩ := tracks before old
  exact ⟨copy, below.trans (below_touchAll before hits)⟩

theorem Tracks.sendChanged : s.sendChanged.1.Tracks (s.sendChanged.2.getD lastSent) := by
  unfold KcovState.sendChanged
  dsimp only
  split
  · exact tracks
  · intro shared mapped
    have same : s.target = shared := by
      rw [target, show s.bitmap = some shared from mapped, getD_some]
    exact ⟨rfl, same ▸ Below.refl _⟩

theorem Tracks.below_target (mapped : s.bitmap.isSome = true) : Below lastSent s.target := by
  obtain ⟨shared, some⟩ := isSome_iff_exists.mp mapped
  rw [target, some]
  exact (tracks shared some).2

theorem Tracks.sent_eq (mapped : s.bitmap.isSome = true) :
    s.sendChanged.2 = if s.target = lastSent then none else some s.target := by
  obtain ⟨shared, some⟩ := isSome_iff_exists.mp mapped
  unfold KcovState.sendChanged
  rw [(tracks shared some).1]
  dsimp only
  split <;> rfl

theorem Tracks.reports (mapped : s.bitmap.isSome = true)
    {before folded : Bitmap} (sent : Below lastSent before) (grows : Below folded s.target) :
    Reports before folded s.sendChanged.1.target lastSent s.sendChanged.2 := by
  rw [tracks.sent_eq mapped, target_sendChanged]
  constructor
  · rintro ⟨slot, raised⟩
    have differs : s.target ≠ lastSent := by
      intro same
      have low := sent slot
      have high := grows slot
      rw [same] at high
      omega
    rw [if_neg differs]
  · intro same
    rw [if_pos same]

end

end KcovState

theorem reports_none_iff {before folded after lastSent : Bitmap} :
    Reports before folded after lastSent none ↔ ¬ Raised before folded := by
  constructor
  · rintro ⟨sends, -⟩ raised
    cases sends raised
  · intro still
    exact ⟨fun raised => absurd raised still, fun _ => rfl⟩

/-- A flush of `s` that has come to `opened` does nothing without buffer and bitmap; otherwise it
makes `drained` and sends what has changed. -/
structure Flushed (s opened drained next : KcovState) (sent : Option Bitmap) : Prop where
  first : opened.bitmap.isSome = s.bitmap.isSome
  last : drained.bitmap.isSome = s.bitmap.isSome
  result : (next, sent) =
    if opened.buf = [] ∧ opened.bitmap = none then (opened, none) else drained.sendChanged

namespace Flushed

variable {s opened drained next : KcovState} {sent : Option Bitmap} {lastSent : Bitmap}
  (flushed : Flushed s opened drained next sent)

include flushed

theorem of_mapped (mapped : s.bitmap.isSome = true) : (next, sent) = drained.sendChanged := by
  rw [flushed.result, if_neg]
  rintro ⟨-, absent⟩
  rw [← flushed.first, absent] at mapped
  cases mapped

theorem of_unmapped (unmapped : s.bitmap.isSome = false) :
    sent = none ∧ next.bitmap.isSome = false := by
  have result := flushed.result
  split at result
  · cases result
    exact ⟨rfl, flushed.first.trans unmapped⟩
  · obtain ⟨rfl, rfl⟩ := Prod.mk.inj result
    have still := flushed.last.trans unmapped
    exact ⟨congrArg Prod.snd (KcovState.sendChanged_of_unmapped still),
      (KcovState.isSome_sendChanged _).trans still⟩

theorem isSome_eq : next.bitmap.isSome = s.bitmap.isSome := by
  cases mapped : s.bitmap.isSome with
  | true =>
    obtain ⟨rfl, -⟩ := Prod.mk.inj (flushed.of_mapped mapped)
    exact (KcovState.isSome_sendChanged _).trans (flushed.last.trans mapped)
  | false => exact (flushed.of_unmapped mapped).2

theorem tracks (tracks : drained.Tracks lastSent) : next.Tracks (sent.getD lastSent) := by
  cases mapped : s.bitmap.isSome with
  | true =>
    obtain ⟨rfl, rfl⟩ := Prod.mk.inj (flushed.of_mapped mapped)
    exact tracks.sendChanged
  | false =>
    intro shared some
    have absent := (flushed.of_unmapped mapped).2
    rw [some] at absent
    cases absent

theorem reports_iff {folded : Bitmap} (before : s.Tracks lastSent)
    (tracks : drained.Tracks lastSent) (grows : Below folded drained.target) :
    Reports s.target folded next.target lastSent sent ↔
      (Raised s.target folded → s.bitmap.isSome = true) := by
  cases mapped : s.bitmap.isSome with
  | true =>
    obtain ⟨rfl, rfl⟩ := Prod.mk.inj (flushed.of_mapped mapped)
    refine iff_of_true ?_ fun _ => rfl
    exact tracks.reports (flushed.last.trans mapped) (before.below_target mapped) grows
  | false =>
    rw [(flushed.of_unmapped mapped).1, reports_none_iff]
    simp

end Flushed

inductive GoAction (k : Nat) where
  | record (pcs : List UInt64)
  | recordThread (thread : Fin k) (pcs : List UInt64)
  | share (hits : List (Fin bitmapSize))
  | flush (hits : List (String × UInt64)) (files : Files)
  | reset

namespace GoKcov

variable {k : Nat}

/-- A trace or shared edges come in, or the agent flushes or resets. -/
def act (r : Reporting (GoKcov k)) : GoAction k → Reporting (GoKcov k)
  | .record pcs => { r with state := { r.state with main := r.state.main.record pcs } }
  | .recordThread thread pcs =>
    { r with
      state :=
        { r.state with
          extraKcov := fun other =>
            if other = thread then
              (r.state.extraKcov thread ++ pcs).take (kcovEntries - 1)
            else r.state.extraKcov other } }
  | .share hits =>
    { r with
      state :=
        { r.state with
          main :=
            { r.state.main with
              bitmap := r.state.main.bitmap.map fun shared => touchAll shared hits } } }
  | .flush hits files =>
    let answer := r.state.flushAndSend hits files
    { state := answer.1, lastSent := answer.2.getD r.lastSent }
  | .reset =>
    { state := { r.state with main := r.state.main.reset, extraKcov := fun _ => [] }
      lastSent := Bitmap.zero }

def history (shared : Option Bitmap) (goCover : GoCoverCollector) (actions : List (GoAction k)) :
    Reporting (GoKcov k) :=
  actions.foldl act
    { state := { GoKcov.opened shared with goCover }, lastSent := Bitmap.zero }

def folded (g : GoKcov k) : Bitmap :=
  g.drainThreads.main.drain.target

def merged (g : GoKcov k) (hits : List (String × UInt64)) (files : Files) : GoKcov k :=
  { g.drainThreads with main := g.drainThreads.main.drain }.mergeCollectors hits files

theorem isSome_drainThreads (g : GoKcov k) :
    g.drainThreads.main.bitmap.isSome = g.main.bitmap.isSome :=
  KcovState.isSome_setTarget g.main _

theorem isSome_merged (g : GoKcov k) (hits : List (String × UInt64)) (files : Files) :
    (g.merged hits files).main.bitmap.isSome = g.main.bitmap.isSome := by
  rw [merged, mergeCollectors, KcovState.isSome_setTarget, KcovState.isSome_drain,
    isSome_drainThreads]

theorem flushed (g : GoKcov k) (hits : List (String × UInt64)) (files : Files) :
    Flushed g.main g.drainThreads.main (g.merged hits files).main
      (g.flushAndSend hits files).1.main (g.flushAndSend hits files).2 where
  first := isSome_drainThreads g
  last := isSome_merged g hits files
  result := by
    unfold flushAndSend
    dsimp only
    split <;> rfl

theorem below_merged (g : GoKcov k) (hits : List (String × UInt64)) (files : Files) :
    Below g.folded (g.merged hits files).main.target := by
  rw [merged, target_mergeCollectors]
  exact (below_raiseAll g.folded (uprobeHits hits)).trans
    (below_mergeIntoSlice (_, raiseAll g.folded (uprobeHits hits)) files)

theorem tracks_merged {g : GoKcov k} {lastSent : Bitmap} (tracks : g.main.Tracks lastSent)
    (hits : List (String × UInt64)) (files : Files) :
    (g.merged hits files).main.Tracks lastSent := by
  have threads : g.drainThreads.main.Tracks lastSent := by
    apply tracks.setTarget
    have grows := below_touchAll g.main.target g.threadEdges
    rw [← target_drainThreads, drainThreads, KcovState.target_setTarget] at grows
    exact grows
  apply threads.drain.setTarget
  have grows := below_merged g hits files
  rw [merged, target_mergeCollectors] at grows
  exact grows

theorem tracks_act {r : Reporting (GoKcov k)} (tracks : r.state.main.Tracks r.lastSent)
    (action : GoAction k) : (act r action).state.main.Tracks (act r action).lastSent := by
  cases action with
  | record pcs | recordThread thread pcs => exact tracks
  | share hits => exact tracks.share hits
  | reset => exact KcovState.tracks_reset _
  | flush hits files => exact (flushed _ hits files).tracks (tracks_merged tracks hits files)

theorem isSome_act (r : Reporting (GoKcov k)) (action : GoAction k) :
    (act r action).state.main.bitmap.isSome = r.state.main.bitmap.isSome := by
  cases action with
  | record pcs | recordThread thread pcs => rfl
  | share hits | reset => exact isSome_map
  | flush hits files => exact (flushed _ hits files).isSome_eq

def FlushReports (r : Reporting (GoKcov k)) (hits : List (String × UInt64)) (files : Files) :
    Prop :=
  Reports r.state.main.target r.state.folded (r.state.flushAndSend hits files).1.main.target
    r.lastSent (r.state.flushAndSend hits files).2

theorem flushReports_iff {r : Reporting (GoKcov k)} (tracks : r.state.main.Tracks r.lastSent)
    (hits : List (String × UInt64)) (files : Files) : FlushReports r hits files ↔
      (Raised r.state.main.target r.state.folded → r.state.main.bitmap.isSome = true) :=
  (flushed _ hits files).reports_iff tracks (tracks_merged tracks hits files)
    (below_merged _ hits files)

theorem tracks_history (shared : Option Bitmap) (goCover : GoCoverCollector)
    (actions : List (GoAction k)) :
    (history shared goCover actions).state.main.Tracks (history shared goCover actions).lastSent :=
  List.foldlRecOn (motive := fun r => r.state.main.Tracks r.lastSent) actions act
    (KcovState.tracks_opened shared) fun _ tracks action _ => tracks_act tracks action

theorem isSome_history (shared : Option Bitmap) (goCover : GoCoverCollector)
    (actions : List (GoAction k)) :
    (history shared goCover actions).state.main.bitmap.isSome = shared.isSome :=
  Run.view_foldl (fun r : Reporting (GoKcov k) => r.state.main.bitmap.isSome) isSome_act _ actions

end GoKcov

inductive RustAction where
  | record (pcs : List UInt64)
  | share (hits : List (Fin bitmapSize))
  | mergeGocoverdir (coverDirs : List Files)
  | flush
  | reset

namespace RustKcov

def flushAndSend (s : KcovState) : KcovState × Option Bitmap :=
  if s.buf = [] ∧ s.bitmap = none then (s, none) else s.drain.sendChanged

/-- The same for the Rust agent, which has one buffer. -/
def act (r : Reporting KcovState) : RustAction → Reporting KcovState
  | .record pcs => { r with state := r.state.record pcs }
  | .share hits =>
    { r with
      state :=
        { r.state with bitmap := r.state.bitmap.map fun shared => touchAll shared hits } }
  | .mergeGocoverdir coverDirs =>
    { r with
      state := { r.state with bitmap := r.state.bitmap.map (mergeGocoverdir coverDirs) } }
  | .flush =>
    let answer := flushAndSend r.state
    { state := answer.1, lastSent := answer.2.getD r.lastSent }
  | .reset => { state := r.state.reset, lastSent := Bitmap.zero }

def history (shared : Option Bitmap) (actions : List RustAction) : Reporting KcovState :=
  actions.foldl act { state := KcovState.opened shared, lastSent := Bitmap.zero }

theorem flushed (s : KcovState) :
    Flushed s s s.drain (flushAndSend s).1 (flushAndSend s).2 :=
  ⟨rfl, KcovState.isSome_drain s, rfl⟩

theorem tracks_act {r : Reporting KcovState} (tracks : r.state.Tracks r.lastSent)
    (action : RustAction) : (act r action).state.Tracks (act r action).lastSent := by
  cases action with
  | record pcs => exact tracks
  | share hits => exact tracks.share hits
  | mergeGocoverdir coverDirs => exact tracks.share (gocoverdirHits coverDirs)
  | reset => exact KcovState.tracks_reset _
  | flush => exact (flushed _).tracks tracks.drain

theorem isSome_act (r : Reporting KcovState) (action : RustAction) :
    (act r action).state.bitmap.isSome = r.state.bitmap.isSome := by
  cases action with
  | record pcs => rfl
  | share hits | mergeGocoverdir coverDirs | reset => exact isSome_map
  | flush => exact (flushed _).isSome_eq

def FlushReports (r : Reporting KcovState) : Prop :=
  Reports r.state.target r.state.drain.target (flushAndSend r.state).1.target r.lastSent
    (flushAndSend r.state).2

theorem flushReports_iff {r : Reporting KcovState} (tracks : r.state.Tracks r.lastSent) :
    FlushReports r ↔
      (Raised r.state.target r.state.drain.target → r.state.bitmap.isSome = true) :=
  (flushed _).reports_iff tracks tracks.drain (Below.refl _)

theorem tracks_history (shared : Option Bitmap) (actions : List RustAction) :
    (history shared actions).state.Tracks (history shared actions).lastSent :=
  List.foldlRecOn (motive := fun r => r.state.Tracks r.lastSent) actions act
    (KcovState.tracks_opened shared) fun _ tracks action _ => tracks_act tracks action

theorem isSome_history (shared : Option Bitmap) (actions : List RustAction) :
    (history shared actions).state.bitmap.isSome = shared.isSome :=
  Run.view_foldl (fun r : Reporting KcovState => r.state.bitmap.isSome) isSome_act _ actions

end RustKcov

/-- In both agents every flush of a history reports as it should exactly if the bitmap
is mapped or no flush raises a slot. -/
theorem flushes_report_iff {k : Nat} (shared : Option Bitmap) (goCover : GoCoverCollector)
    (goActions : List (GoAction k)) (rustActions : List RustAction) :
    ((∀ before hits files, before ++ [.flush hits files] <+: goActions →
        GoKcov.FlushReports (GoKcov.history shared goCover before) hits files) ↔
      ∀ before hits files, before ++ [.flush hits files] <+: goActions →
        Raised (GoKcov.history shared goCover before).state.main.target
          (GoKcov.history shared goCover before).state.folded → shared.isSome = true) ∧
    ((∀ before, before ++ [.flush] <+: rustActions →
        RustKcov.FlushReports (RustKcov.history shared before)) ↔
      ∀ before, before ++ [.flush] <+: rustActions →
        Raised (RustKcov.history shared before).state.target
          (RustKcov.history shared before).state.drain.target → shared.isSome = true) := by
  constructor
  · refine forall_congr' fun before => forall₂_congr fun hits files => ?_
    rw [GoKcov.flushReports_iff (GoKcov.tracks_history shared goCover before),
      GoKcov.isSome_history]
  · refine forall_congr' fun before => ?_
    rw [RustKcov.flushReports_iff (RustKcov.tracks_history shared before), RustKcov.isSome_history]

theorem raised_drain {s : KcovState} {slot : Fin bitmapSize}
    (hit : slot ∈ traceEdges s.lastPC (s.buf.take (kcovEntries - 1)))
    (free : s.target.get slot = 0) : Raised s.target s.drain.target := by
  refine ⟨slot, ?_⟩
  have positive := List.count_pos_iff.mpr hit
  rw [KcovState.target_drain, toNat_get_touchAll, free]
  simp only [UInt8.reduceToNat]
  omega

/-- Without a mapped bitmap no agent reports the edge from address 2 to address 4. -/
theorem unmapped_flush_sends_nothing :
    ¬ GoKcov.FlushReports
        (GoKcov.history none { enabled := false, lastSize := ∅ } [.record [2, 4]] :
          Reporting (GoKcov 0)) [] ∅ ∧
      ¬ RustKcov.FlushReports (RustKcov.history none [.record [2, 4]]) := by
  have hit : edgeSlot 2 4 ∈ traceEdges 0 ([2, 4].take (kcovEntries - 1)) := by decide +kernel
  constructor
  · rw [GoKcov.flushReports_iff (GoKcov.tracks_history none _ _), GoKcov.isSome_history]
    intro mapped
    exact Bool.false_ne_true (mapped (raised_drain hit (Bitmap.get_zero _)))
  · rw [RustKcov.flushReports_iff (RustKcov.tracks_history none _), RustKcov.isSome_history]
    intro mapped
    exact Bool.false_ne_true (mapped (raised_drain hit (Bitmap.get_zero _)))

end OpenThesis.Guest
