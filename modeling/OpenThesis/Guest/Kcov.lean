import OpenThesis.Guest.GoCover

/-!
# Kernel coverage in the guest

A flush folds the traced kernel addresses into the edge bitmap and sends it if it differs from the
last one sent (`cmd/openthesis-init/kcov.go`, `cmd/openthesis-init-rs/src/kcov.rs`).
-/

namespace OpenThesis.Guest

open Slots List
open Explorer (fnvOffset64 fnvPrime64 fnvMix)

def kcovEntries : Nat := 524288

def edgeSlot (prev cur : UInt64) : Fin bitmapSize :=
  slotOf ((prev >>> 1) ^^^ cur)

def foldTrace (prev : UInt64) : List UInt64 → Bitmap → Bitmap
  | [], target => target
  | cur :: pcs, target =>
    foldTrace cur pcs (if prev ≠ 0 then touch target (edgeSlot prev cur) else target)

def lastOf (prev : UInt64) (pcs : List UInt64) : UInt64 :=
  (pcs.getLast?).getD prev

def spanEdge (prev : UInt64) : List UInt64 → List (Fin bitmapSize)
  | [] => []
  | cur :: _ => if prev ≠ 0 then [edgeSlot prev cur] else []

def traceEdges (prev : UInt64) : List UInt64 → List (Fin bitmapSize)
  | [] => []
  | cur :: pcs => spanEdge prev (cur :: pcs) ++ traceEdges cur pcs

variable (prev : UInt64)

theorem foldTrace_eq (pcs : List UInt64) (target : Bitmap) :
    foldTrace prev pcs target = touchAll target (traceEdges prev pcs) := by
  induction pcs generalizing prev target with
  | nil => rfl
  | cons cur pcs ih =>
    rw [foldTrace, ih, traceEdges, touchAll_append, spanEdge]
    split <;> rfl

theorem lastOf_cons (prev cur : UInt64) (pcs : List UInt64) :
    lastOf prev (cur :: pcs) = lastOf cur pcs := by
  rw [lastOf, getLast?_cons, Option.getD_some, lastOf]

theorem traceEdges_append (pcs more : List UInt64) :
    traceEdges prev (pcs ++ more) = traceEdges prev pcs ++ traceEdges (lastOf prev pcs) more := by
  induction pcs generalizing prev with
  | nil => rfl
  | cons cur pcs ih =>
    rw [cons_append, traceEdges, traceEdges, ih, lastOf_cons, append_assoc]
    rfl

theorem traceEdges_eq_span (pcs : List UInt64) :
    traceEdges prev pcs = spanEdge prev pcs ++ traceEdges 0 pcs := by
  cases pcs with
  | nil | cons cur pcs => rfl

def cutEdges (prev : UInt64) : List (List UInt64) → List (Fin bitmapSize)
  | [] => []
  | piece :: pieces => spanEdge prev piece ++ cutEdges (lastOf prev piece) pieces

theorem traceEdges_flatten (pieces : List (List UInt64)) : (traceEdges prev pieces.flatten).Perm
      (pieces.flatMap (traceEdges 0) ++ cutEdges prev pieces) := by
  induction pieces generalizing prev with
  | nil => exact Perm.refl _
  | cons piece pieces ih =>
    rw [perm_iff_count]
    intro slot
    have rest := (ih (lastOf prev piece)).count_eq slot
    rw [flatten_cons, traceEdges_append, traceEdges_eq_span, flatMap_cons, cutEdges]
    simp only [count_append] at rest ⊢
    omega

/-- The buffer of a thread and its edges. -/
structure KcovState where
  buf : List UInt64
  bitmap : Option Bitmap
  prevBitmap : Bitmap
  lastPC : UInt64
  lastGen : UInt64

namespace KcovState

variable (s : KcovState)

def target : Bitmap :=
  s.bitmap.getD s.prevBitmap

def setTarget (bitmap : Bitmap) : KcovState :=
  match s.bitmap with
  | some _ => { s with bitmap := some bitmap }
  | none => { s with prevBitmap := bitmap }

def drain : KcovState :=
  let pcs := s.buf.take (kcovEntries - 1)
  { s.setTarget (foldTrace s.lastPC pcs s.target) with buf := [], lastPC := lastOf s.lastPC pcs }

def sendChanged : KcovState × Option Bitmap :=
  let sendBuf := s.target
  if sendBuf = s.prevBitmap then (s, none)
  else ({ s with prevBitmap := sendBuf, lastGen := s.lastGen + 1 }, some sendBuf)

def reset : KcovState :=
  { s with
    buf := []
    bitmap := s.bitmap.map fun _ => Bitmap.zero
    prevBitmap := Bitmap.zero
    lastPC := 0 }

def record (pcs : List UInt64) : KcovState :=
  { s with buf := (s.buf ++ pcs).take (kcovEntries - 1) }

def opened (shared : Option Bitmap) : KcovState where
  buf := []
  bitmap := shared
  prevBitmap := Bitmap.zero
  lastPC := 0
  lastGen := 0

variable (bitmap : Bitmap)

@[simp]
theorem target_setTarget : (s.setTarget bitmap).target = bitmap := by
  unfold setTarget target
  cases s.bitmap <;> rfl

@[simp]
theorem isSome_setTarget : (s.setTarget bitmap).bitmap.isSome = s.bitmap.isSome := by
  unfold setTarget
  cases s.bitmap <;> rfl

@[simp]
theorem lastPC_setTarget : (s.setTarget bitmap).lastPC = s.lastPC := by
  unfold setTarget
  cases s.bitmap <;> rfl

@[simp]
theorem buf_setTarget : (s.setTarget bitmap).buf = s.buf := by
  unfold setTarget
  cases s.bitmap <;> rfl

theorem target_drain :
    s.drain.target = touchAll s.target (traceEdges s.lastPC (s.buf.take (kcovEntries - 1))) := by
  rw [← foldTrace_eq]
  exact target_setTarget s _

theorem isSome_drain : s.drain.bitmap.isSome = s.bitmap.isSome :=
  isSome_setTarget s _

variable {s}

theorem sendChanged_of_unmapped (unmapped : s.bitmap.isSome = false) :
    s.sendChanged = (s, none) := by
  have absent : s.bitmap = none := by simpa using unmapped
  have same : s.target = s.prevBitmap := by rw [target, absent, Option.getD_none]
  exact if_pos same

theorem target_sendChanged (s : KcovState) : s.sendChanged.1.target = s.target := by
  unfold sendChanged
  dsimp only
  split
  · rfl
  · next differs =>
      cases shared : s.bitmap with
      | some bitmap => simp [target, shared]
      | none => exact absurd (by rw [target, shared, Option.getD_none]) differs

theorem isSome_sendChanged (s : KcovState) : s.sendChanged.1.bitmap.isSome = s.bitmap.isSome := by
  unfold sendChanged
  dsimp only
  split <;> rfl

theorem lastPC_sendChanged (s : KcovState) : s.sendChanged.1.lastPC = s.lastPC := by
  unfold sendChanged
  dsimp only
  split <;> rfl

end KcovState

def hashUprobeEdge (name : String) (bucket : UInt64) : UInt64 :=
  (name.toUTF8.toList.foldl fnvMix fnvOffset64 ^^^ bucket) * fnvPrime64

def uprobeHits (hits : List (String × UInt64)) : List (Fin bitmapSize × UInt8) :=
  hits.filterMap fun probe =>
    let bucket := aflBucket probe.2
    if bucket = 0 then none
    else some (slotOf (hashUprobeEdge probe.1 bucket.toUInt64), bucket)

structure GoKcov (k : Nat) where
  main : KcovState
  extraKcov : Fin k → List UInt64
  goCover : GoCoverCollector

namespace GoKcov

variable {k : Nat}

def opened (shared : Option Bitmap) : GoKcov k where
  main := KcovState.opened shared
  extraKcov := fun _ => []
  goCover := { enabled := false, lastSize := ∅ }

def foldThreadBuffer (target : Bitmap) (trace : List UInt64) : Bitmap :=
  foldTrace 0 (trace.take (kcovEntries - 1)) target

def drainThreads (g : GoKcov k) : GoKcov k :=
  { g with
    main := g.main.setTarget <| (finRange k).foldl
      (fun target thread => foldThreadBuffer target (g.extraKcov thread)) g.main.target
    extraKcov := fun _ => [] }

def mergeCollectors (g : GoKcov k) (hits : List (String × UInt64)) (files : Files) : GoKcov k :=
  let merged := mergeIntoSlice (g.goCover, raiseAll g.main.target (uprobeHits hits)) files
  { g with main := g.main.setTarget merged.2, goCover := merged.1 }

def flushAndSend (g : GoKcov k) (hits : List (String × UInt64)) (files : Files) :
    GoKcov k × Option Bitmap :=
  let g := g.drainThreads
  if g.main.buf = [] ∧ g.main.bitmap = none then (g, none)
  else
    let g := { g with main := g.main.drain }
    let g := g.mergeCollectors hits files
    ({ g with main := g.main.sendChanged.1 }, g.main.sendChanged.2)

def threadEdges (g : GoKcov k) : List (Fin bitmapSize) :=
  (finRange k).flatMap fun thread => traceEdges 0 ((g.extraKcov thread).take (kcovEntries - 1))

theorem target_drainThreads (g : GoKcov k) :
    g.drainThreads.main.target = touchAll g.main.target g.threadEdges := by
  have folds : ∀ (threads : List (Fin k)) (target : Bitmap),
      threads.foldl (fun target thread => foldThreadBuffer target (g.extraKcov thread)) target =
        touchAll target (threads.flatMap fun thread =>
          traceEdges 0 ((g.extraKcov thread).take (kcovEntries - 1))) := by
    intro threads
    induction threads with
    | nil => exact fun target => rfl
    | cons thread threads ih =>
      intro target
      rw [foldl_cons, ih, foldThreadBuffer, foldTrace_eq, ← touchAll_append, flatMap_cons]
  rw [threadEdges, ← folds]
  exact KcovState.target_setTarget g.main _

theorem target_mergeCollectors (g : GoKcov k) (hits : List (String × UInt64)) (files : Files) :
    (g.mergeCollectors hits files).main.target =
      (mergeIntoSlice (g.goCover, raiseAll g.main.target (uprobeHits hits)) files).2 :=
  KcovState.target_setTarget g.main _

end GoKcov

/-- The traces of a burst. -/
structure Burst (k : Nat) where
  main : List UInt64
  extra : Fin k → List UInt64

namespace Burst

variable {k : Nat}

def Fits (burst : Burst k) : Prop :=
  burst.main.length ≤ kcovEntries - 1 ∧ ∀ thread, (burst.extra thread).length ≤ kcovEntries - 1

def run (g : GoKcov k) (burst : Burst k) : GoKcov k :=
  ({ g with main := { g.main with buf := burst.main }, extraKcov := burst.extra }.flushAndSend
    [] ∅).1

def mainTrace (bursts : List (Burst k)) : List UInt64 :=
  bursts.flatMap main

def pieces (bursts : List (Burst k)) (thread : Fin k) : List (List UInt64) :=
  bursts.map fun burst => burst.extra thread

def foldWhole (g : GoKcov k) (bursts : List (Burst k)) : Bitmap :=
  foldTrace g.main.lastPC (mainTrace bursts) <| (finRange k).foldl
    (fun target thread => foldTrace 0 (pieces bursts thread).flatten target) g.main.target

def keptEdges (lastPC : UInt64) (bursts : List (Burst k)) : List (Fin bitmapSize) :=
  traceEdges lastPC (mainTrace bursts) ++
    (finRange k).flatMap fun thread => (pieces bursts thread).flatMap (traceEdges 0)

def lostEdges (bursts : List (Burst k)) : List (Fin bitmapSize) :=
  (finRange k).flatMap fun thread => cutEdges 0 (pieces bursts thread)

variable (g : GoKcov k)

theorem lastPC_run {burst : Burst k} (fits : burst.Fits) :
    (burst.run g).main.lastPC = lastOf g.main.lastPC burst.main := by
  rw [run, GoKcov.flushAndSend]
  dsimp only
  split
  · next quiet =>
      have empty : burst.main = [] := by simpa [GoKcov.drainThreads] using quiet.1
      rw [empty]
      exact KcovState.lastPC_setTarget _ _
  · simp only [KcovState.lastPC_sendChanged, GoKcov.mergeCollectors, KcovState.lastPC_setTarget,
      KcovState.drain, GoKcov.drainThreads, KcovState.buf_setTarget,
      take_of_length_le fits.1]

theorem target_run {burst : Burst k} (fits : burst.Fits) : (burst.run g).main.target =
      touchAll g.main.target ((finRange k).flatMap (fun thread =>
        traceEdges 0 (burst.extra thread)) ++ traceEdges g.main.lastPC burst.main) := by
  have threads := GoKcov.target_drainThreads
    { g with main := { g.main with buf := burst.main }, extraKcov := burst.extra }
  rw [GoKcov.threadEdges] at threads
  simp only [take_of_length_le (fits.2 _)] at threads
  rw [touchAll_append, run, GoKcov.flushAndSend]
  dsimp only
  split
  · next quiet =>
      have empty : burst.main = [] := by simpa [GoKcov.drainThreads] using quiet.1
      rw [empty] at threads ⊢
      exact threads
  · rw [KcovState.target_sendChanged, GoKcov.target_mergeCollectors, KcovState.target_drain,
      threads]
    simp only [GoKcov.drainThreads, KcovState.lastPC_setTarget, KcovState.buf_setTarget,
      take_of_length_le fits.1]
    -- without probes and files the collectors change nothing
    unfold mergeIntoSlice
    split <;> rfl

theorem target_foldl_run (bursts : List (Burst k)) (fits : ∀ burst ∈ bursts, burst.Fits) :
    (bursts.foldl (fun g burst => burst.run g) g).main.target =
      touchAll g.main.target (keptEdges g.main.lastPC bursts) := by
  induction bursts generalizing g with
  | nil =>
    have none : keptEdges g.main.lastPC ([] : List (Burst k)) = [] := by
      simp [keptEdges, mainTrace, pieces, traceEdges]
    rw [none]
    rfl
  | cons burst bursts ih =>
    obtain ⟨fitsFirst, fits⟩ := forall_mem_cons.mp fits
    rw [foldl_cons, ih _ fits, target_run g fitsFirst, lastPC_run g fitsFirst, ← touchAll_append]
    apply touchAll_perm
    rw [perm_iff_count]
    intro slot
    have threads := (flatMap_append_perm (finRange k)
      (fun thread => traceEdges 0 (burst.extra thread))
      (fun thread => (pieces bursts thread).flatMap (traceEdges 0))).count_eq slot
    simp only [keptEdges, mainTrace, pieces, flatMap_cons, map_cons,
      traceEdges_append, count_append] at threads ⊢
    omega

theorem foldWhole_eq (bursts : List (Burst k)) : foldWhole g bursts =
      touchAll g.main.target (keptEdges g.main.lastPC bursts ++ lostEdges bursts) := by
  have folds : ∀ (threads : List (Fin k)) (target : Bitmap),
      threads.foldl (fun target thread => foldTrace 0 (pieces bursts thread).flatten target)
          target =
        touchAll target (threads.flatMap fun thread =>
          traceEdges 0 (pieces bursts thread).flatten) := by
    intro threads
    induction threads with
    | nil => exact fun target => rfl
    | cons thread threads ih =>
      intro target
      rw [foldl_cons, ih, foldTrace_eq, ← touchAll_append, flatMap_cons]
  rw [foldWhole, folds, foldTrace_eq, ← touchAll_append]
  apply touchAll_perm
  rw [perm_iff_count]
  intro slot
  have cuts := (List.Perm.flatMap_left (finRange k) fun thread _ =>
    traceEdges_flatten 0 (pieces bursts thread)).count_eq slot
  have split := (flatMap_append_perm (finRange k)
    (fun thread => (pieces bursts thread).flatMap (traceEdges 0))
    (fun thread => cutEdges 0 (pieces bursts thread))).count_eq slot
  simp only [keptEdges, lostEdges, count_append] at cuts split ⊢
  omega

end Burst

/-- Cutting the traces into bursts leaves the bitmap of the whole traces exactly if every edge of a
registered thread that spans two bursts falls on a full slot. -/
theorem bursts_fold_whole_traces_iff {k : Nat} (g : GoKcov k) (bursts : List (Burst k))
    (fits : ∀ burst ∈ bursts, burst.Fits) :
    (bursts.foldl (fun g burst => burst.run g) g).main.target = Burst.foldWhole g bursts ↔
      ∀ slot ∈ Burst.lostEdges bursts,
        255 ≤ (g.main.target.get slot).toNat +
          (Burst.keptEdges g.main.lastPC bursts).count slot := by
  rw [Burst.target_foldl_run g bursts fits, Burst.foldWhole_eq]
  exact touchAll_append_eq_iff _ _ _

def twoBursts : List (Burst 1) :=
  [{ main := [2], extra := fun _ => [] }, { main := [4], extra := fun _ => [] }]

def twoThreadBursts : List (Burst 1) :=
  [{ main := [], extra := fun _ => [2] }, { main := [], extra := fun _ => [4] }]

theorem bursts_fold_whole_traces_iff_main_thread :
    (∀ burst ∈ twoBursts, burst.Fits) ∧
      (twoBursts.foldl (fun g burst => burst.run g) (GoKcov.opened (some .zero))).main.target =
        Burst.foldWhole (GoKcov.opened (some .zero)) twoBursts := by
  have fits : ∀ burst ∈ twoBursts, burst.Fits := by
    simp [twoBursts, Burst.Fits, kcovEntries]
  refine ⟨fits, (bursts_fold_whole_traces_iff _ twoBursts fits).mpr ?_⟩
  have nothing : Burst.lostEdges twoBursts = [] := by decide +kernel
  rw [nothing]
  exact forall_mem_nil _

/-- An edge of a registered thread is lost if a flush comes between its two
addresses. -/
theorem thread_edge_lost_between_bursts :
    (∀ burst ∈ twoThreadBursts, burst.Fits) ∧
      (twoThreadBursts.foldl (fun g burst => burst.run g)
          (GoKcov.opened (some .zero))).main.target ≠
        Burst.foldWhole (GoKcov.opened (some .zero)) twoThreadBursts := by
  have fits : ∀ burst ∈ twoThreadBursts, burst.Fits := by
    simp [twoThreadBursts, Burst.Fits, kcovEntries]
  refine ⟨fits, ?_⟩
  have lost : Burst.lostEdges twoThreadBursts = [edgeSlot 2 4] := by decide +kernel
  have kept : Burst.keptEdges 0 twoThreadBursts = [] := by decide +kernel
  rw [Burst.target_foldl_run _ _ fits, Burst.foldWhole_eq, ne_eq, touchAll_append_eq_iff, lost]
  intro full
  have slot := full _ (mem_singleton_self _)
  have start : ((GoKcov.opened (some .zero) : GoKcov 1).main.target.get (edgeSlot 2 4)).toNat = 0 :=
    congrArg UInt8.toNat (Bitmap.get_zero _)
  rw [start] at slot
  change 255 ≤ 0 + (Burst.keptEdges 0 twoThreadBursts).count _ at slot
  rw [kept] at slot
  simp at slot

end OpenThesis.Guest
