import OpenThesis.Lines.Core
import OpenThesis.Text.Core

/-!
# Paths with slashes

Cleaning, joining, the last element and the rest. Places are the absolute clean paths.
-/

namespace OpenThesis.Paths

open Text List

def slash : UInt8 := byte '/'

def here : Bytes := bytes "."

def up : Bytes := bytes ".."

def enter (rooted : Bool) (place : List Bytes) (part : Bytes) : List Bytes :=
  if part = [] ∨ part = here then place
  else if part = up then
    match place with
    | [] => if rooted then [] else [up]
    | inner :: outer => if inner = up then up :: place else outer
  else part :: place

def walk (rooted : Bool) (place : List Bytes) (path : Bytes) : List Bytes :=
  (path.splitOn slash).foldl (enter rooted) place

def rootedText (place : List Bytes) : Bytes :=
  if place = [] then [slash] else place.reverse.flatMap (slash :: ·)

def clean (path : Bytes) : Bytes :=
  if path.head? = some slash then rootedText (walk true [] path)
  else
    match walk false [] path with
    | [] => here
    | place => [slash].intercalate place.reverse

def join (elems : List Bytes) : Bytes :=
  match elems.dropWhile (· = []) with
  | [] => []
  | elem :: elems => clean (elem ++ elems.flatMap (slash :: ·))

def dir (path : Bytes) : Bytes :=
  clean (path.reverse.dropWhile (· ≠ slash)).reverse

def base (path : Bytes) : Bytes :=
  if path = [] then here
  else
    match (path.reverse.dropWhile (· = slash)).takeWhile (· ≠ slash) with
    | [] => [slash]
    | last => last.reverse

example : clean (bytes "/a//b/./../../../c/") = bytes "/c" := by decide

example : (dir (bytes "a/b"), dir (bytes "a"), dir (bytes "/a"), base (bytes "a/b//")) =
    (bytes "a", bytes ".", bytes "/", bytes "b") := by decide

theorem walk_append (rooted : Bool) (place : List Bytes) (path path' : Bytes) :
    walk rooted place (path ++ slash :: path') = walk rooted (walk rooted place path) path' := by
  rw [walk, splitOn_append_cons_self, foldl_append]
  rfl

structure Normal (part : Bytes) : Prop where
  nonempty : part ≠ []
  notHere : part ≠ here
  notUp : part ≠ up
  free : slash ∉ part

theorem enter_normal {part : Bytes} (normal : Normal part) (rooted : Bool) (place : List Bytes) :
    enter rooted place part = part :: place := by
  simp [enter, normal.nonempty, normal.notHere, normal.notUp]

theorem foldl_enter_normal {parts : List Bytes} (normal : ∀ part ∈ parts, Normal part)
    (rooted : Bool) (place : List Bytes) :
    parts.foldl (enter rooted) place = parts.reverse ++ place := by
  induction parts generalizing place with
  | nil => rfl
  | cons part parts ih =>
    rw [forall_mem_cons] at normal
    rw [foldl_cons, enter_normal normal.1, ih normal.2]
    simp

theorem not_mem_of_mem_splitOn {path part : Bytes} (mem : part ∈ path.splitOn slash) :
    slash ∉ part := by
  obtain ⟨lines, rest, framed⟩ := Lines.exists_framed slash path
  rw [framed.splitOn_eq, mem_append, mem_singleton] at mem
  rcases mem with mem | rfl
  · exact framed.lines_free part mem
  · exact framed.rest_free

theorem normal_enter {place : List Bytes} (normal : ∀ part ∈ place, Normal part) {part : Bytes}
    (free : slash ∉ part) : ∀ other ∈ enter true place part, Normal other := by
  unfold enter
  by_cases skipped : part = [] ∨ part = here
  · simpa only [if_pos skipped] using normal
  · rw [if_neg skipped]
    by_cases leadsUp : part = up
    · rw [if_pos leadsUp]
      cases place with
      | nil => simp
      | cons inner outer =>
        rw [forall_mem_cons] at normal
        simpa only [if_neg normal.1.notUp] using normal.2
    · rw [if_neg leadsUp]
      rw [not_or] at skipped
      exact forall_mem_cons.mpr ⟨⟨skipped.1, skipped.2, leadsUp, free⟩, normal⟩

theorem normal_walk {place : List Bytes} (normal : ∀ part ∈ place, Normal part) (path : Bytes) :
    ∀ part ∈ walk true place path, Normal part :=
  foldlRecOn (motive := fun place => ∀ part ∈ place, Normal part) (path.splitOn slash)
    (enter true) normal fun _ kept _ mem => normal_enter kept (not_mem_of_mem_splitOn mem)

/-- A cleaned absolute path. -/
@[ext]
structure Place where
  parts : List Bytes
  normal : ∀ part ∈ parts, Normal part
  deriving DecidableEq

namespace Place

def root : Place where
  parts := []
  normal := by simp

def walk (place : Place) (path : Bytes) : Place where
  parts := Paths.walk true place.parts path
  normal := normal_walk place.normal path

def parent (place : Place) : Place where
  parts := place.parts.tail
  normal part mem := place.normal part (mem_of_mem_tail mem)

def text (place : Place) : Bytes :=
  rootedText place.parts

def Contains (outer inner : Place) : Prop :=
  outer.parts <:+ inner.parts

instance (outer inner : Place) : Decidable (outer.Contains inner) :=
  inferInstanceAs (Decidable (_ <:+ _))

theorem Contains.antisymm {outer inner : Place} (inside : outer.Contains inner)
    (outside : inner.Contains outer) : inner = outer := by
  have lengths := Nat.le_antisymm outside.length_le inside.length_le
  exact Place.ext (List.IsSuffix.eq_of_length outside lengths)

variable (place : Place)

theorem parts_eq_nil_iff : place.parts = [] ↔ place = root := by
  rw [Place.ext_iff]
  rfl

theorem contains_parent_iff {outer inner : Place} (notRoot : outer ≠ root)
    (inside : outer.Contains inner) : outer.Contains inner.parent ↔ inner ≠ outer := by
  cases parts : inner.parts with
  | nil =>
    rw [Contains, parts, suffix_nil, parts_eq_nil_iff] at inside
    exact absurd inside notRoot
  | cons part rest =>
    rw [Contains, parts, suffix_cons_iff] at inside
    simp only [Contains, parent, parts, tail_cons]
    constructor
    · rintro below rfl
      have longer := below.length_le
      rw [parts, length_cons] at longer
      omega
    · intro differ
      rcases inside with same | below
      · exact absurd (Place.ext (parts.trans same.symm)) differ
      · exact below

theorem text_of_ne_root (notRoot : place ≠ root) :
    place.text = place.parts.reverse.flatMap (slash :: ·) := by
  rw [text, rootedText, if_neg ((parts_eq_nil_iff place).not.mpr notRoot)]

theorem head?_text : place.text.head? = some slash := by
  by_cases isRoot : place = root
  · rw [isRoot]
    rfl
  · rw [text_of_ne_root place isRoot]
    cases reversed : place.parts.reverse with
    | nil => exact absurd ((parts_eq_nil_iff place).mp (reverse_eq_nil_iff.mp reversed)) isRoot
    | cons outermost parts => rfl

theorem text_ne_nil : place.text ≠ [] := by
  intro empty
  have first := head?_text place
  rw [empty] at first
  cases first

theorem splitOn_flatMap {part : Bytes} (free : slash ∉ part) {parts : List Bytes}
    (normal : ∀ part ∈ parts, slash ∉ part) :
    (part ++ parts.flatMap (slash :: ·)).splitOn slash = part :: parts := by
  induction parts generalizing part with
  | nil => simpa using splitOn_eq_singleton free
  | cons next parts ih =>
    rw [forall_mem_cons] at normal
    rw [flatMap_cons, cons_append, splitOn_append_cons_self_of_not_mem free, ih normal.1 normal.2]

theorem splitOn_text (notRoot : place ≠ root) :
    place.text.splitOn slash = [] :: place.parts.reverse := by
  rw [text_of_ne_root place notRoot, ← nil_append (List.flatMap _ _)]
  apply splitOn_flatMap
  · simp
  · intro part mem
    exact (place.normal part (mem_reverse.mp mem)).free

theorem walk_text : root.walk place.text = place := by
  apply Place.ext
  by_cases isRoot : place = root
  · subst isRoot
    rfl
  · simp only [walk, Paths.walk]
    rw [splitOn_text place isRoot, foldl_cons]
    have normal : ∀ part ∈ place.parts.reverse, Normal part := by
      intro part mem
      exact place.normal part (mem_reverse.mp mem)
    have pushed := foldl_enter_normal normal true []
    simpa [enter, root] using pushed

theorem text_injective : Function.Injective text := by
  intro place place' same
  rw [← walk_text place, same, walk_text]

theorem clean_eq_text {path : Bytes} (absolute : path.head? = some slash) :
    clean path = (root.walk path).text := by
  rw [clean, if_pos absolute]
  rfl

@[simp]
theorem clean_text : clean place.text = place.text := by
  rw [clean_eq_text (head?_text place), walk_text]

theorem text_walk {path : Bytes} (absolute : path.head? = some slash)
    (cleaned : clean path = path) : (root.walk path).text = path := by
  rw [← clean_eq_text absolute, cleaned]

theorem walk_append_flatMap (path : Bytes) (elems : List Bytes) :
    place.walk (path ++ elems.flatMap (slash :: ·)) = elems.foldl walk (place.walk path) := by
  induction elems generalizing place path with
  | nil => simp
  | cons elem elems ih =>
    have first : place.walk (path ++ slash :: (elem ++ elems.flatMap (slash :: ·))) =
        (place.walk path).walk (elem ++ elems.flatMap (slash :: ·)) :=
      Place.ext (walk_append true place.parts path _)
    rw [flatMap_cons, cons_append, first, ih, foldl_cons]

theorem join_text (elems : List Bytes) :
    join (place.text :: elems) = (elems.foldl walk place).text := by
  have absolute : (place.text ++ elems.flatMap (slash :: ·)).head? = some slash := by
    rw [head?_append, head?_text]
    rfl
  simp only [join, dropWhile_cons, decide_eq_true_eq, if_neg (text_ne_nil place)]
  rw [clean_eq_text absolute, walk_append_flatMap, walk_text]

theorem walk_concat_slash (path : Bytes) : place.walk (path ++ [slash]) = place.walk path := by
  have followed := walk_append_flatMap place path [[]]
  exact followed

theorem dropWhile_text {inner : Bytes} {outer : List Bytes} (parts : place.parts = inner :: outer) :
    (place.text.reverse.dropWhile (· ≠ slash)).reverse =
      outer.reverse.flatMap (slash :: ·) ++ [slash] := by
  have normal := place.normal inner (by simp [parts])
  have written : place.text = outer.reverse.flatMap (slash :: ·) ++ slash :: inner := by
    rw [text, rootedText, parts, if_neg (cons_ne_nil inner outer)]
    simp
  have dropped : ∀ symbol ∈ inner.reverse, decide (symbol ≠ slash) = true := by
    intro symbol mem
    rw [decide_eq_true_eq]
    rintro rfl
    exact normal.free (mem_reverse.mp mem)
  rw [written, reverse_append, reverse_cons, append_assoc, dropWhile_append_of_pos dropped]
  simp

theorem dir_text : dir place.text = place.parent.text := by
  cases parts : place.parts with
  | nil =>
    obtain rfl := (parts_eq_nil_iff place).mp parts
    rfl
  | cons inner outer =>
    have outerParts : place.parent.parts = outer := by
      simp only [parent, parts, tail_cons]
    rw [dir, dropWhile_text place parts]
    by_cases isRoot : place.parent = root
    · have empty : outer = [] := outerParts.symm.trans ((parts_eq_nil_iff _).mpr isRoot)
      rw [isRoot, empty]
      rfl
    · have written := text_of_ne_root place.parent isRoot
      rw [outerParts] at written
      have absolute : (place.parent.text ++ [slash]).head? = some slash := by
        rw [head?_append, head?_text]
        rfl
      rw [← written, clean_eq_text absolute, walk_concat_slash, walk_text]

theorem contains_iff_text (notRoot : place ≠ root) (inner : Place) : place.Contains inner ↔
      inner.text = place.text ∨ (place.text ++ [slash]) <+: inner.text := by
  constructor
  · rintro ⟨more, parts⟩
    have innerNotRoot : inner ≠ root := by
      rintro rfl
      have outerEmpty := (append_eq_nil_iff.mp parts).2
      exact notRoot ((parts_eq_nil_iff place).mp outerEmpty)
    have written := text_of_ne_root inner innerNotRoot
    rw [← parts, reverse_append, flatMap_append, ← text_of_ne_root place notRoot] at written
    cases reversed : more.reverse with
    | nil =>
      rw [reversed] at written
      exact .inl (by simpa using written)
    | cons part rest =>
      rw [reversed, flatMap_cons] at written
      exact .inr ⟨part ++ rest.flatMap (slash :: ·), by rw [written]; simp⟩
  · rintro (same | ⟨rest, written⟩)
    · rw [text_injective same]
      exact suffix_rfl
    · have innerNotRoot : inner ≠ root := by
        rintro rfl
        have lengths : (place.text ++ [slash] ++ rest).length = 1 := congrArg List.length written
        have positive := length_pos_iff.mpr (text_ne_nil place)
        simp only [length_append, length_singleton] at lengths
        omega
      -- Both texts split into their parts.
      have split : inner.text.splitOn slash = place.text.splitOn slash ++ rest.splitOn slash := by
        rw [← written, append_assoc]
        exact splitOn_append_cons_self _ _
      rw [splitOn_text inner innerNotRoot, splitOn_text place notRoot, cons_append,
        cons.injEq] at split
      refine ⟨(rest.splitOn slash).reverse, ?_⟩
      have reversed := congrArg List.reverse split.2
      simpa using reversed.symm

end Place

end OpenThesis.Paths
