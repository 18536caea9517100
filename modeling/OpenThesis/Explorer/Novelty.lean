import Mathlib.Data.UInt
import OpenThesis.Explorer.Consistency

/-!
# New coverage

Which slots an update reports as new, and which the query for new edges.
-/

namespace OpenThesis.Explorer

open Slots

namespace CoverageTracker

variable {n : Nat} {c : CoverageTracker n}

def countHit (hits : UInt32) (v : UInt8) : UInt32 :=
  if v = 0 then hits else hits + 1

theorem hitEdge_bitmap (i : Fin n) (v : UInt8) (s : CoverageTracker n × Bool) :
    (hitEdge i v s).1.bitmap = setSlot s.1.bitmap i (saturatingAdd (s.1.bitmap.get i) v) := by
  rcases s with ⟨c, foundNew⟩
  simp only [hitEdge]
  split
  · rfl
  · rfl

theorem hitEdge_edgeHits (i : Fin n) (v : UInt8) (s : CoverageTracker n × Bool) :
    (hitEdge i v s).1.edgeHits = setSlot s.1.edgeHits i (s.1.edgeHits.get i + 1) := by
  rcases s with ⟨c, foundNew⟩
  simp only [hitEdge]
  split
  · rfl
  · rfl

theorem update_bitmap (c : CoverageTracker n) (edges : List UInt8) (i : Fin n) :
    (c.update edges).1.bitmap.get i = saturatingAdd (c.bitmap.get i) (byteAt edges i) := by
  have swept := sweep_vector (fun s : CoverageTracker n × Bool => s.1.bitmap) saturatingAdd
    hitEdge_bitmap edges (c, false) i
  rw [update, swept]
  split
  · rename_i zero
    rw [zero, saturatingAdd_zero]
  · rfl

theorem update_edgeHits (c : CoverageTracker n) (edges : List UInt8) (i : Fin n) :
    (c.update edges).1.edgeHits.get i = countHit (c.edgeHits.get i) (byteAt edges i) := by
  exact sweep_vector (fun s : CoverageTracker n × Bool => s.1.edgeHits)
    (fun hits _ => hits + 1) hitEdge_edgeHits edges (c, false) i

def HitsFree (c : CoverageTracker n) (edges : List UInt8) : Prop :=
  ∃ i : Fin n, byteAt edges i ≠ 0 ∧ c.bitmap.get i = 0

def CrossesBucket (c : CoverageTracker n) (edges : List UInt8) : Prop :=
  ∃ i : Fin n, byteAt edges i ≠ 0 ∧ c.bitmap.get i ≠ 0 ∧
    hitBucket (c.bitmap.get i) ≠ hitBucket (saturatingAdd (c.bitmap.get i) (byteAt edges i))

/-- No slot loses its hits, and new coverage is reported exactly when a slot got its first ones. -/
structure Reports (c : CoverageTracker n) (s : CoverageTracker n × Bool) : Prop where
  consistent : s.1.Consistent
  keeps : ∀ i : Fin n, c.bitmap.get i ≠ 0 → s.1.bitmap.get i ≠ 0
  found : s.2 = true ↔ ∃ i : Fin n, c.bitmap.get i = 0 ∧ s.1.bitmap.get i ≠ 0

theorem found_hitEdge (consistent : c.Consistent) (i : Fin n) (v : UInt8) (foundNew : Bool) :
    (hitEdge i v (c, foundNew)).2 = true ↔ foundNew = true ∨ c.bitmap.get i = 0 := by
  by_cases free : c.bitmap.get i = 0
  · rw [hitEdge_of_free consistent free]
    exact iff_of_true rfl (Or.inr free)
  · rw [hitEdge_of_taken consistent free]
    exact (or_iff_left free).symm

theorem taken_hitEdge (i j : Fin n) {v : UInt8} (nonzero : v ≠ 0) (s : CoverageTracker n × Bool) :
    (hitEdge i v s).1.bitmap.get j ≠ 0 ↔ j = i ∨ s.1.bitmap.get j ≠ 0 := by
  rw [hitEdge_bitmap, get_setSlot]
  by_cases same : j = i
  · rw [if_pos same]
    exact iff_of_true (saturatingAdd_ne_zero _ nonzero) (Or.inl same)
  · rw [if_neg same, or_iff_right same]

theorem reports_hitEdge {s : CoverageTracker n × Bool} (reports : Reports c s)
    (i : Fin n) {v : UInt8} (nonzero : v ≠ 0) : Reports c (hitEdge i v s) := by
  constructor
  case consistent => exact (gains_hitEdge reports.consistent i nonzero s.2).consistent
  case keeps =>
    intro j taken
    exact (taken_hitEdge i j nonzero s).mpr (Or.inr (reports.keeps j taken))
  case found =>
    rw [show s = (s.1, s.2) from rfl, found_hitEdge reports.consistent, reports.found]
    simp only [taken_hitEdge i _ nonzero]
    constructor
    · rintro (⟨j, free, taken⟩ | free)
      · exact ⟨j, free, Or.inr taken⟩
      · have freeBefore : c.bitmap.get i = 0 := by
          by_contra taken
          exact reports.keeps i taken free
        exact ⟨i, freeBefore, Or.inl rfl⟩
    · rintro ⟨j, free, rfl | taken⟩
      · by_cases now : s.1.bitmap.get j = 0
        · exact Or.inr now
        · exact Or.inl ⟨j, free, now⟩
      · exact Or.inl ⟨j, free, taken⟩

theorem reports_update (consistent : c.Consistent) (edges : List UInt8) :
    Reports c (c.update edges) := by
  apply @sweep_invariant _ _ hitEdge (Reports c)
  · intro i v s nonzero reports
    exact reports_hitEdge reports i nonzero
  · constructor
    · exact consistent
    · exact fun _ taken => taken
    · exact iff_of_false Bool.false_ne_true fun ⟨_, free, taken⟩ => taken free

theorem update_found_iff (consistent : c.Consistent) (edges : List UInt8) :
    (c.update edges).2 = true ↔ c.HitsFree edges := by
  rw [(reports_update consistent edges).found]
  apply exists_congr
  intro i
  rw [update_bitmap, ne_eq, saturatingAdd_eq_zero_iff]
  tauto

theorem isNewEdge_iff (c : CoverageTracker n) (i : Fin n) (v : UInt8) : c.isNewEdge i v = true ↔
      c.bitmap.get i = 0 ∨
        hitBucket (c.bitmap.get i) ≠ hitBucket (saturatingAdd (c.bitmap.get i) v) := by
  simp only [isNewEdge, Bool.or_eq_true, decide_eq_true_eq]

theorem hasNewEdge_iff (c : CoverageTracker n) (edges : List UInt8) :
    c.hasNewEdge edges = true ↔ c.HitsFree edges ∨ c.CrossesBucket edges := by
  rw [hasNewEdge, sweepAny_eq_true_iff]
  constructor
  · rintro ⟨i, k, place, nonzero, isNew⟩
    obtain rfl : i.val = k := place.trans (Nat.zero_add k)
    by_cases free : c.bitmap.get i = 0
    · exact Or.inl ⟨i, nonzero, free⟩
    · have crosses := ((c.isNewEdge_iff i _).mp isNew).resolve_left free
      exact Or.inr ⟨i, nonzero, free, crosses⟩
  · rintro (⟨i, nonzero, free⟩ | ⟨i, nonzero, taken, crosses⟩)
    · have isNew := (c.isNewEdge_iff i (byteAt edges i)).mpr (Or.inl free)
      exact ⟨i, i, (Nat.zero_add i.val).symm, nonzero, isNew⟩
    · have isNew := (c.isNewEdge_iff i _).mpr (Or.inr crosses)
      exact ⟨i, i, (Nat.zero_add i.val).symm, nonzero, isNew⟩

/-- In every reachable state the query for new edges and the report of an update agree exactly when
a move to another bucket never comes without a first hit. -/
theorem has_new_edge_agrees_iff (size : Int64) (ops : List CoverageOp) (edges : List UInt8) :
    let c := (newCoverageTracker size).run ops
    (c.hasNewEdge edges = true ↔ (c.update edges).2 = true) ↔
      (c.CrossesBucket edges → c.HitsFree edges) := by
  intro c
  rw [hasNewEdge_iff, update_found_iff (consistent_run size ops)]
  tauto

/-- A second hit moves a slot from bucket 1 to bucket 2: the query counts it and
the update does not. -/
theorem has_new_edge_counts_second_hit :
    let c := (newCoverageTracker 4).run [.update [1]]
    c.hasNewEdge [1] = true ∧ (c.update [1]).2 = false := by
  decide

def updateAll (c : CoverageTracker n) : List (List UInt8) → CoverageTracker n × List Bool
  | [] => (c, [])
  | edges :: buffers =>
    let (next, foundNew) := c.update edges
    let (last, reports) := next.updateAll buffers
    (last, foundNew :: reports)

theorem updateAll_cons (c : CoverageTracker n) (edges : List UInt8) (buffers : List (List UInt8)) :
    c.updateAll (edges :: buffers) = (((c.update edges).1.updateAll buffers).1,
        (c.update edges).2 :: ((c.update edges).1.updateAll buffers).2) :=
  rfl

theorem updateAll_bitmap (c : CoverageTracker n) (buffers : List (List UInt8)) (i : Fin n) :
    (c.updateAll buffers).1.bitmap.get i =
      buffers.foldl (fun count edges => saturatingAdd count (byteAt edges i)) (c.bitmap.get i) := by
  induction buffers generalizing c with
  | nil => rfl
  | cons edges buffers ih => rw [updateAll_cons, ih, update_bitmap, List.foldl_cons]

theorem updateAll_edgeHits (c : CoverageTracker n) (buffers : List (List UInt8)) (i : Fin n) :
    (c.updateAll buffers).1.edgeHits.get i =
      buffers.foldl (fun hits edges => countHit hits (byteAt edges i)) (c.edgeHits.get i) := by
  induction buffers generalizing c with
  | nil => rfl
  | cons edges buffers ih => rw [updateAll_cons, ih, update_edgeHits, List.foldl_cons]

theorem consistent_updateAll (consistent : c.Consistent) (buffers : List (List UInt8)) :
    (c.updateAll buffers).1.Consistent := by
  induction buffers generalizing c with
  | nil => exact consistent
  | cons edges buffers ih => exact ih (gains_update consistent edges).consistent

def oldEdges (c : CoverageTracker n) : UInt64 :=
  c.totalEdges - c.newEdges

section

variable (consistent : c.Consistent)

include consistent

theorem oldEdges_hitEdge (i : Fin n) (v : UInt8)
    (foundNew : Bool) : (hitEdge i v (c, foundNew)).1.oldEdges = c.oldEdges := by
  by_cases free : c.bitmap.get i = 0
  · rw [hitEdge_of_free consistent free]
    exact add_sub_add_right_eq_sub c.totalEdges c.newEdges 1
  · rw [hitEdge_of_taken consistent free]
    rfl

theorem oldEdges_update (edges : List UInt8) : (c.update edges).1.oldEdges = c.oldEdges := by
  have both : (c.update edges).1.Consistent ∧ (c.update edges).1.oldEdges = c.oldEdges := by
    apply @sweep_invariant _ _ hitEdge
      fun s : CoverageTracker n × Bool => s.1.Consistent ∧ s.1.oldEdges = c.oldEdges
    · rintro i v ⟨between, foundNew⟩ nonzero ⟨kept, same⟩
      exact ⟨(gains_hitEdge kept i nonzero foundNew).consistent,
        (oldEdges_hitEdge kept i v foundNew).trans same⟩
    · exact ⟨consistent, rfl⟩
  exact both.2

theorem oldEdges_updateAll (buffers : List (List UInt8)) :
    (c.updateAll buffers).1.oldEdges = c.oldEdges := by
  induction buffers generalizing c with
  | nil => rfl
  | cons edges buffers ih =>
    exact (ih (gains_update consistent edges).consistent).trans (oldEdges_update consistent edges)

theorem keeps_updateAll (buffers : List (List UInt8))
    {i : Fin n} (taken : c.bitmap.get i ≠ 0) : (c.updateAll buffers).1.bitmap.get i ≠ 0 := by
  induction buffers generalizing c with
  | nil => exact taken
  | cons edges buffers ih =>
    exact ih (gains_update consistent edges).consistent ((reports_update consistent edges).keeps i taken)

theorem found_updateAll (buffers : List (List UInt8)) :
    true ∈ (c.updateAll buffers).2 ↔
      ∃ i : Fin n, c.bitmap.get i = 0 ∧ (c.updateAll buffers).1.bitmap.get i ≠ 0 := by
  induction buffers generalizing c with
  | nil => simp [updateAll]
  | cons edges buffers ih =>
    have first := reports_update consistent edges
    have later := (gains_update consistent edges).consistent
    rw [updateAll_cons, List.mem_cons, ih later, eq_comm, first.found]
    constructor
    · rintro (⟨i, free, taken⟩ | ⟨i, free, taken⟩)
      · exact ⟨i, free, keeps_updateAll later buffers taken⟩
      · have freeBefore : c.bitmap.get i = 0 := by
          by_contra before
          exact first.keeps i before free
        exact ⟨i, freeBefore, taken⟩
    · rintro ⟨i, free, taken⟩
      by_cases between : (c.update edges).1.bitmap.get i = 0
      · exact Or.inr ⟨i, between, taken⟩
      · exact Or.inl ⟨i, free, between⟩

theorem Consistent.eq_of_bitmap {other : CoverageTracker n}
    (otherConsistent : other.Consistent) (bitmap : c.bitmap = other.bitmap)
    (old : c.oldEdges = other.oldEdges) :
    c.virgin = other.virgin ∧ c.totalEdges = other.totalEdges ∧ c.newEdges = other.newEdges := by
  have total : c.totalEdges = other.totalEdges := by
    rw [← UInt64.toNat_inj, consistent.totalEdges, otherConsistent.totalEdges, bitmap]
  refine ⟨?_, total, ?_⟩
  · apply eq_of_get
    intro i
    rw [consistent.virgin, otherConsistent.virgin, bitmap]
  · simp only [oldEdges, total] at old
    exact sub_right_injective old

end

theorem bitmap_perm (c : CoverageTracker n) {first second : List (List UInt8)}
    (reordered : first.Perm second) :
    (c.updateAll first).1.bitmap = (c.updateAll second).1.bitmap := by
  apply eq_of_get
  intro i
  have commutes : RightCommutative fun count edges => saturatingAdd count (byteAt edges i) :=
    ⟨fun count edges others => saturatingAdd_right_comm count (byteAt edges i) (byteAt others i)⟩
  rw [updateAll_bitmap, updateAll_bitmap]
  exact reordered.foldl_eq _

theorem countHit_right_comm (hits : UInt32) (v w : UInt8) :
    countHit (countHit hits v) w = countHit (countHit hits w) v := by
  simp only [countHit]
  split
  · rfl
  · split
    · rfl
    · rfl

theorem edgeHits_perm (c : CoverageTracker n) {first second : List (List UInt8)}
    (reordered : first.Perm second) :
    (c.updateAll first).1.edgeHits = (c.updateAll second).1.edgeHits := by
  apply eq_of_get
  intro i
  have commutes : RightCommutative fun hits edges => countHit hits (byteAt edges i) :=
    ⟨fun hits edges others => countHit_right_comm hits (byteAt edges i) (byteAt others i)⟩
  rw [updateAll_edgeHits, updateAll_edgeHits]
  exact reordered.foldl_eq _

/-- The order of updates does not matter for arrays, counters and hash, nor for whether new coverage
is reported. -/
theorem updates_in_any_order (size : Int64) (ops : List CoverageOp)
    {first second : List (List UInt8)} (reordered : first.Perm second) :
    let c := (newCoverageTracker size).run ops
    let (one, oneReports) := c.updateAll first
    let (other, otherReports) := c.updateAll second
    one.bitmap = other.bitmap ∧ one.virgin = other.virgin ∧ one.edgeHits = other.edgeHits ∧
      one.totalEdges = other.totalEdges ∧ one.newEdges = other.newEdges ∧
      one.hash = other.hash ∧
      (0 < oneReports.count true ↔ 0 < otherReports.count true) := by
  intro c
  have consistent : c.Consistent := consistent_run size ops
  have bitmap := c.bitmap_perm reordered
  have old := (oldEdges_updateAll consistent first).trans
    (oldEdges_updateAll consistent second).symm
  rcases (consistent_updateAll consistent first).eq_of_bitmap
    (consistent_updateAll consistent second) bitmap old with ⟨virgin, total, new⟩
  refine ⟨bitmap, virgin, c.edgeHits_perm reordered, total, new, ?_, ?_⟩
  · simp only [hash, bitmap]
  · rw [List.count_pos_iff, List.count_pos_iff, found_updateAll consistent,
      found_updateAll consistent, bitmap]

theorem updates_in_any_order_overlapping :
    [[1], [255, 2]].Perm [[255, 2], ([1] : List UInt8)] ∧
      (((newCoverageTracker 4).run []).updateAll [[1], [255, 2]]).1.hash =
        (((newCoverageTracker 4).run []).updateAll [[255, 2], [1]]).1.hash :=
  ⟨List.Perm.swap _ _ _,
    (updates_in_any_order 4 [] (List.Perm.swap [255, 2] [1] [])).2.2.2.2.2.1⟩

end CoverageTracker

end OpenThesis.Explorer
