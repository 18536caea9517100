import OpenThesis.Keyed.Core
import OpenThesis.Run.Core
import OpenThesis.Explorer.Coverage

/-!
# Go counter files in the guest's edge bitmap

Counter files folded into the bitmap by the Go agent (`cmd/openthesis-init/gocover.go`) and the Rust
agent (`merge_gocoverdir` in `cmd/openthesis-init-rs/src/kcov.rs`).
-/

namespace OpenThesis.Guest

open Slots Std
open Explorer (fnvOffset64 fnvPrime64 fnvMix)

def bitmapSize : Nat := 65536

abbrev Bitmap := Vector UInt8 bitmapSize

def Bitmap.zero : Bitmap :=
  Vector.replicate bitmapSize 0

def slotOf (hash : UInt64) : Fin bitmapSize :=
  ⟨hash.toNat % bitmapSize, Nat.mod_lt _ (by decide)⟩

def aflBucket (n : UInt64) : UInt8 :=
  if n = 0 then 0
  else if n = 1 then 1
  else if n < 4 then 2
  else if n < 8 then 3
  else if n < 16 then 4
  else if n < 32 then 5
  else if n < 64 then 6
  else 7

abbrev Files := ExtTreeMap String (List UInt8)

structure GoCoverCollector where
  enabled : Bool
  lastSize : ExtTreeMap String Nat

namespace GoCoverCollector

def fresh : GoCoverCollector where
  enabled := true
  lastSize := ∅

def already (g : GoCoverCollector) (name : String) : Nat :=
  (g.lastSize[name]?).getD 0

end GoCoverCollector

def counterSlot (position : Nat) (bucket : UInt8) : Fin bitmapSize :=
  slotOf ((((fnvOffset64 ^^^ UInt64.ofNat position) * fnvPrime64) ^^^ bucket.toUInt64) * fnvPrime64)

def counterHits : Nat → List UInt8 → List (Fin bitmapSize × UInt8)
  | _, [] => []
  | position, byte :: data =>
    let bucket := aflBucket byte.toUInt64
    if byte = 0 ∨ bucket = 0 then counterHits (position + 1) data
    else (counterSlot position bucket, bucket) :: counterHits (position + 1) data

def foldCounterData (bitmap : Bitmap) (data : List UInt8) : Bitmap :=
  raiseAll bitmap (counterHits 0 data)

def isCounterFile (name : String) : Bool :=
  "covcounters".toList.isPrefixOf name.toList

def mergeFile (s : GoCoverCollector × Bitmap) (file : String × List UInt8) :
    GoCoverCollector × Bitmap :=
  let already := s.1.already file.1
  if file.2.length ≤ already then s
  else
    ({ s.1 with lastSize := s.1.lastSize.insert file.1 file.2.length },
      foldCounterData s.2 (file.2.drop already))

def mergeIntoSlice (s : GoCoverCollector × Bitmap) (files : Files) : GoCoverCollector × Bitmap :=
  if s.1.enabled then (files.toList.filter fun file => isCounterFile file.1).foldl mergeFile s
  else s

def fileHits (g : GoCoverCollector) (file : String × List UInt8) :
    List (Fin bitmapSize × UInt8) :=
  counterHits 0 (file.2.drop (g.already file.1))

theorem fileHits_eq_nil {g : GoCoverCollector} {file : String × List UInt8}
    (covered : file.2.length ≤ g.already file.1) : fileHits g file = [] := by
  rw [fileHits, List.drop_eq_nil_of_le covered, counterHits]

variable (s : GoCoverCollector × Bitmap) {data : List UInt8} {files : Files}

variable (file : String × List UInt8)

theorem enabled_mergeFile : (mergeFile s file).1.enabled = s.1.enabled := by
  unfold mergeFile
  dsimp only
  split <;> rfl

theorem bitmap_mergeFile : (mergeFile s file).2 = raiseAll s.2 (fileHits s.1 file) := by
  unfold mergeFile
  dsimp only
  split
  · next covered =>
      rw [fileHits_eq_nil covered]
      rfl
  · rfl

theorem already_mergeFile (name : String) :
    (mergeFile s file).1.already name =
      if name = file.1 then max (s.1.already name) file.2.length else s.1.already name := by
  by_cases same : name = file.1
  · subst same
    rw [if_pos rfl, mergeFile]
    split
    · omega
    · rw [GoCoverCollector.already, Keyed.lookup_insert, if_pos rfl, Option.getD_some]
      omega
  · rw [if_neg same, mergeFile]
    split
    · rfl
    · rw [GoCoverCollector.already, Keyed.lookup_insert, if_neg same, GoCoverCollector.already]

theorem foldl_mergeFile {list : List (String × List UInt8)}
    (distinct : list.Pairwise fun file other => file.1 ≠ other.1) (s : GoCoverCollector × Bitmap) :
    (list.foldl mergeFile s).1.enabled = s.1.enabled ∧
      (list.foldl mergeFile s).2 = raiseAll s.2 (list.flatMap (fileHits s.1)) ∧
      (∀ file ∈ list, (list.foldl mergeFile s).1.already file.1 =
        max (s.1.already file.1) file.2.length) ∧ ∀ name, (∀ file ∈ list, file.1 ≠ name) →
        (list.foldl mergeFile s).1.already name = s.1.already name := by
  induction list generalizing s with
  | nil => exact ⟨rfl, rfl, fun _ inside => (List.not_mem_nil inside).elim, fun _ _ => rfl⟩
  | cons file list ih =>
    obtain ⟨apart, distinct⟩ := List.pairwise_cons.mp distinct
    obtain ⟨enabled, bitmap, members, others⟩ := ih distinct (mergeFile s file)
    have untouched : ∀ name, name ≠ file.1 →
        (mergeFile s file).1.already name = s.1.already name := by
      intro name differs
      rw [already_mergeFile, if_neg differs]
    rw [List.foldl_cons]
    refine ⟨enabled.trans (enabled_mergeFile s file), ?_, ?_, ?_⟩
    · rw [bitmap, bitmap_mergeFile, ← raiseAll_append, List.flatMap_cons]
      congr 2
      apply List.flatMap_congr
      intro other inside
      rw [fileHits, fileHits, untouched _ (apart other inside).symm]
    · rw [List.forall_mem_cons]
      constructor
      · rw [others file.1 fun other inside => (apart other inside).symm, already_mergeFile,
          if_pos rfl]
      · intro other inside
        rw [members other inside, untouched _ (apart other inside).symm]
    · intro name absent
      obtain ⟨differs, absent⟩ := List.forall_mem_cons.mp absent
      rw [others name absent, untouched name differs.symm]

def newHits (g : GoCoverCollector) (files : Files) : List (Fin bitmapSize × UInt8) :=
  (files.toList.filter fun file => isCounterFile file.1).flatMap (fileHits g)

theorem mem_newHits_iff (g : GoCoverCollector) (files : Files) (hit : Fin bitmapSize × UInt8) :
    hit ∈ newHits g files ↔
      ∃ name data, files[name]? = some data ∧ isCounterFile name ∧
        hit ∈ counterHits 0 (data.drop (g.already name)) := by
  simp only [newHits, List.mem_flatMap, List.mem_filter, Prod.exists,
    ExtTreeMap.mem_toList_iff_getElem?_eq_some, fileHits, and_assoc]

def counterSize (files : Files) (name : String) : Nat :=
  if isCounterFile name then ((files[name]?).getD []).length else 0

theorem mergeIntoSlice_spec {s : GoCoverCollector × Bitmap} (enabled : s.1.enabled = true)
    (files : Files) : (mergeIntoSlice s files).1.enabled = true ∧
      (mergeIntoSlice s files).2 = raiseAll s.2 (newHits s.1 files) ∧
      ∀ name, (mergeIntoSlice s files).1.already name =
        max (s.1.already name) (counterSize files name) := by
  have distinct : (files.toList.filter fun file => isCounterFile file.1).Pairwise
      fun file other => file.1 ≠ other.1 := by
    apply List.Pairwise.filter
    refine files.distinct_keys_toList.imp fun differs same => differs ?_
    rw [same]
    exact Std.ReflCmp.compare_self
  obtain ⟨flag, bitmap, members, others⟩ := foldl_mergeFile distinct s
  rw [mergeIntoSlice, if_pos enabled]
  refine ⟨flag.trans enabled, bitmap, fun name => ?_⟩
  by_cases present : isCounterFile name = true ∧ ∃ data, files[name]? = some data
  · obtain ⟨counter, data, found⟩ := present
    have inside : (name, data) ∈ files.toList.filter fun file => isCounterFile file.1 :=
      List.mem_filter.mpr ⟨ExtTreeMap.mem_toList_iff_getElem?_eq_some.mpr found, counter⟩
    rw [members _ inside, counterSize, if_pos counter, found, Option.getD_some]
  · have absent : ∀ file ∈ files.toList.filter fun file => isCounterFile file.1,
        file.1 ≠ name := by
      rintro ⟨other, data⟩ inside rfl
      obtain ⟨found, counter⟩ := List.mem_filter.mp inside
      exact present ⟨counter, data, ExtTreeMap.mem_toList_iff_getElem?_eq_some.mp found⟩
    have empty : counterSize files name = 0 := by
      rw [counterSize]
      split
      · next counter =>
          cases found : files[name]? with
          | none => rfl
          | some data => exact absurd ⟨counter, data, found⟩ present
      · rfl
    rw [others name absent, empty, Nat.max_zero]

def AppendOnly (files later : Files) : Prop :=
  ∀ (name : String) (data : List UInt8), files[name]? = some data →
    ∃ more, later[name]? = some (data ++ more)

/-- Each counter file has not been read yet or holds nothing new, so no file is read
in pieces. -/
def ReadsWhole (g : GoCoverCollector) (files : Files) : Prop :=
  ∀ (name : String) (data : List UInt8), files[name]? = some data → isCounterFile name →
    g.already name = 0 ∨ data.length ≤ g.already name

theorem lt_length_of_hit {hit : Fin bitmapSize × UInt8} {cursor : Nat}
    (inside : hit ∈ counterHits 0 (data.drop cursor)) : cursor < data.length := by
  by_contra covered
  rw [List.drop_eq_nil_of_le (Nat.le_of_not_lt covered)] at inside
  exact List.not_mem_nil inside

theorem counterSize_of_counter {name : String} (found : files[name]? = some data)
    (counter : isCounterFile name) : counterSize files name = data.length := by
  rw [counterSize, if_pos counter, found, Option.getD_some]

section

variable {later : Files} (grows : AppendOnly files later)

include grows

theorem AppendOnly.counterSize_le (name : String) :
    counterSize files name ≤ counterSize later name := by
  rw [counterSize, counterSize]
  split
  · cases found : files[name]? with
    | none => exact Nat.zero_le _
    | some data =>
      obtain ⟨more, same⟩ := grows name data found
      simp only [same, Option.getD_some, List.length_append]
      omega
  · exact Nat.le_refl _

theorem AppendOnly.eq_of_length_le
    {name : String} {grown : List UInt8} (before : files[name]? = some data)
    (now : later[name]? = some grown) (bound : grown.length ≤ data.length) : grown = data := by
  obtain ⟨more, same⟩ := grows name data before
  obtain rfl : grown = data ++ more := Option.some.inj (now.symm.trans same)
  have nothing : more = [] := by
    apply List.eq_nil_of_length_eq_zero
    rw [List.length_append] at bound
    omega
  rw [nothing, List.append_nil]

theorem mem_newHits_of_readsWhole {g next : GoCoverCollector}
    (reached : ∀ name, next.already name = max (g.already name) (counterSize files name))
    (whole : ReadsWhole next later) (hit : Fin bitmapSize × UInt8) :
    hit ∈ newHits g files ++ newHits next later ↔ hit ∈ newHits g later := by
  rw [List.mem_append, mem_newHits_iff, mem_newHits_iff, mem_newHits_iff]
  constructor
  · rintro (⟨name, data, found, counter, inside⟩ | ⟨name, data, found, counter, inside⟩)
    · obtain ⟨more, grown⟩ := grows name data found
      have cursor := reached name
      rw [counterSize_of_counter found counter] at cursor
      have size := whole name _ grown counter
      have beyond := lt_length_of_hit inside
      have same := grows.eq_of_length_le found grown (by omega)
      exact ⟨name, data, same ▸ grown, counter, inside⟩
    · have beyond := lt_length_of_hit inside
      have cursor := reached name
      have size := whole name data found counter
      have same : g.already name = next.already name := by omega
      exact ⟨name, data, found, counter, by rwa [same]⟩
  · rintro ⟨name, data, found, counter, inside⟩
    have beyond := lt_length_of_hit inside
    have cursor := reached name
    rcases whole name data found counter with unread | covered
    · right
      have same : next.already name = g.already name := by omega
      exact ⟨name, data, found, counter, by rwa [same]⟩
    · left
      cases before : files[name]? with
      | none =>
        rw [counterSize, before, if_pos counter] at cursor
        simp only [Option.getD_none, List.length_nil] at cursor
        omega
      | some old =>
        rw [counterSize_of_counter before counter] at cursor
        have same := grows.eq_of_length_le before found (by omega)
        exact ⟨name, old, before, counter, same ▸ inside⟩

end

theorem foldl_mergeIntoSlice {s : GoCoverCollector × Bitmap} (enabled : s.1.enabled = true)
    (growth : List Files) (last : Files) (appendOnly : (growth ++ [last]).IsChain AppendOnly)
    (whole : ∀ before files, before ++ [files] <+: growth ++ [last] →
      ReadsWhole (before.foldl mergeIntoSlice s).1 files) :
    ((growth ++ [last]).foldl mergeIntoSlice s).1.enabled = true ∧
      ((growth ++ [last]).foldl mergeIntoSlice s).2 = raiseAll s.2 (newHits s.1 last) ∧
      ∀ name, ((growth ++ [last]).foldl mergeIntoSlice s).1.already name =
        max (s.1.already name) (counterSize last name) := by
  induction growth using List.reverseRecOn generalizing last with
  | nil => exact mergeIntoSlice_spec enabled last
  | append_singleton growth files ih =>
    have chain := appendOnly
    rw [List.append_assoc, List.singleton_append, List.isChain_append_cons_cons] at chain
    obtain ⟨earlier, grows, -⟩ := chain
    obtain ⟨flag, bitmap, reached⟩ := ih files earlier fun before other inside =>
      whole before other (inside.trans (List.prefix_append _ _))
    have now := whole (growth ++ [files]) last (List.prefix_refl _)
    obtain ⟨flag', bitmap', reached'⟩ := mergeIntoSlice_spec flag last
    rw [List.foldl_concat]
    refine ⟨flag', ?_, fun name => ?_⟩
    · rw [bitmap', bitmap, ← raiseAll_append]
      exact raiseAll_congr _ (mem_newHits_of_readsWhole grows reached now)
    · have bound := grows.counterSize_le name
      rw [reached', reached]
      omega

theorem mergeIntoSlice_of_disabled {s : GoCoverCollector × Bitmap} (disabled : s.1.enabled ≠ true)
    (files : Files) : mergeIntoSlice s files = s :=
  if_neg disabled

theorem below_mergeIntoSlice (files : Files) : Below s.2 (mergeIntoSlice s files).2 := by
  by_cases enabled : s.1.enabled = true
  · rw [(mergeIntoSlice_spec enabled files).2.1]
    exact below_raiseAll _ _
  · rw [mergeIntoSlice_of_disabled enabled]
    exact Below.refl _

theorem mergeIntoSlice_again (files : Files) :
    (mergeIntoSlice (mergeIntoSlice s files) files).2 = (mergeIntoSlice s files).2 := by
  by_cases enabled : s.1.enabled = true
  · obtain ⟨flag, -, reached⟩ := mergeIntoSlice_spec enabled files
    have nothing : newHits (mergeIntoSlice s files).1 files = [] := by
      apply List.eq_nil_iff_forall_not_mem.mpr
      intro hit inside
      obtain ⟨name, data, found, counter, inside⟩ := (mem_newHits_iff _ _ _).mp inside
      have beyond := lt_length_of_hit inside
      rw [reached, counterSize_of_counter found counter] at beyond
      omega
    rw [(mergeIntoSlice_spec flag files).2.1, nothing]
    rfl
  · rw [mergeIntoSlice_of_disabled enabled, mergeIntoSlice_of_disabled enabled]

def toLeBytes (value : UInt64) : List UInt8 :=
  [0, 8, 16, 24, 32, 40, 48, 56].map fun shift : UInt64 => (value >>> shift).toUInt8

def fnv1a (bytes : List UInt8) (seed : UInt64) : UInt64 :=
  (toLeBytes seed).foldl fnvMix (bytes.foldl fnvMix fnvOffset64)

def counterValues : List UInt8 → List UInt32
  | a :: b :: c :: d :: rest =>
    (a.toUInt32 ||| b.toUInt32 <<< 8 ||| c.toUInt32 <<< 16 ||| d.toUInt32 <<< 24) ::
      counterValues rest
  | _ => []

def gocoverFileHits (file : String × List UInt8) : List (Fin bitmapSize) :=
  if file.2.length < 16 then []
  else
    ((counterValues (file.2.drop 16)).zipIdx.filter fun counter => counter.1 ≠ 0).map fun counter =>
      slotOf (fnv1a file.1.toUTF8.toList (UInt64.ofNat counter.2))

def gocoverdirHits (coverDirs : List Files) : List (Fin bitmapSize) :=
  coverDirs.flatMap fun dir =>
    (dir.toList.filter fun file => "covcounters.".toList.isPrefixOf file.1.toList).flatMap
      gocoverFileHits

def mergeGocoverdir (coverDirs : List Files) (bitmap : Bitmap) : Bitmap :=
  touchAll bitmap (gocoverdirHits coverDirs)

theorem mergeGocoverdir_eq_self_iff (coverDirs : List Files) (bitmap : Bitmap) :
    mergeGocoverdir coverDirs bitmap = bitmap ↔
      ∀ slot ∈ gocoverdirHits coverDirs, bitmap.get slot = 255 := by
  have unchanged := touchAll_append_eq_iff bitmap [] (gocoverdirHits coverDirs)
  rw [List.nil_append] at unchanged
  have full : ∀ slot, 255 ≤ (bitmap.get slot).toNat + ([] : List (Fin bitmapSize)).count slot ↔
      bitmap.get slot = 255 := by
    intro slot
    have bound := (bitmap.get slot).toNat_lt
    rw [← UInt8.toNat_inj, List.count_nil]
    simp only [UInt8.reduceToNat]
    omega
  rw [mergeGocoverdir, eq_comm]
  exact unchanged.trans (forall₂_congr fun slot _ => full slot)

/-- In the Go agent, calls at growing sizes of the files leave the bitmap of one call at the last
sizes if no file is read in pieces, and a call at which no file has changed leaves the bitmap as it
is. In the Rust agent it does so exactly if the slots of all non-zero counters are full. -/
theorem counter_files_folded_consistently (s : GoCoverCollector × Bitmap) (growth : List Files)
    (last : Files) (appendOnly : (growth ++ [last]).IsChain AppendOnly) (coverDirs : List Files)
    (bitmap : Bitmap) :
    ((∀ before files, before ++ [files] <+: growth ++ [last] →
        ReadsWhole (before.foldl mergeIntoSlice s).1 files) →
      ((growth ++ [last]).foldl mergeIntoSlice s).2 = (mergeIntoSlice s last).2) ∧
    (mergeIntoSlice ((growth ++ [last]).foldl mergeIntoSlice s) last).2 =
      ((growth ++ [last]).foldl mergeIntoSlice s).2 ∧
    (mergeGocoverdir coverDirs (mergeGocoverdir coverDirs bitmap) =
        mergeGocoverdir coverDirs bitmap ↔
      ∀ slot ∈ gocoverdirHits coverDirs, (mergeGocoverdir coverDirs bitmap).get slot = 255) := by
  refine ⟨fun whole => ?_, ?_, mergeGocoverdir_eq_self_iff coverDirs _⟩
  · by_cases enabled : s.1.enabled = true
    · rw [(foldl_mergeIntoSlice enabled growth last appendOnly whole).2.1,
        (mergeIntoSlice_spec enabled last).2.1]
    · have same : ∀ files : List Files, files.foldl mergeIntoSlice s = s := by
        intro files
        induction files with
        | nil => rfl
        | cons first files ih => rw [List.foldl_cons, mergeIntoSlice_of_disabled enabled, ih]
      rw [same, mergeIntoSlice_of_disabled enabled]
  · rw [List.foldl_concat]
    exact mergeIntoSlice_again _ last

def counterFile (data : List UInt8) : Files :=
  (∅ : Files).insert "covcounters.a.1.1" data

theorem Bitmap.get_zero (slot : Fin bitmapSize) : Bitmap.zero.get slot = 0 :=
  Vector.getElem_replicate _

theorem counter_files_folded_consistently_new_file :
    ([∅, counterFile [1, 1]] : List Files).IsChain AppendOnly ∧
      ([∅, counterFile [1, 1]].foldl mergeIntoSlice (.fresh, .zero)).2 =
        (mergeIntoSlice (.fresh, .zero) (counterFile [1, 1])).2 := by
  have appendOnly : ([∅] ++ [counterFile [1, 1]] : List Files).IsChain AppendOnly := by
    refine List.isChain_pair.mpr fun name data found => ?_
    rw [ExtTreeMap.getElem?_empty] at found
    cases found
  refine ⟨appendOnly, ?_⟩
  apply (counter_files_folded_consistently (.fresh, .zero) [∅] (counterFile [1, 1]) appendOnly []
    .zero).1
  intro before files inside name data _ _
  left
  -- before the last call only the empty directory has been read
  obtain rfl | rfl : before = [] ∨ before = [∅] := by
    have short : before.length < 2 := by simpa using inside.length_le
    match before, short, inside with
    | [], _, _ => exact .inl rfl
    | [first], _, inside =>
      right
      rw [(List.cons_prefix_cons.mp inside).1]
  · rfl
  · have nothing : mergeIntoSlice (.fresh, .zero) ∅ = (.fresh, .zero) := rfl
    rw [List.foldl_cons, List.foldl_nil, nothing]
    rfl

/-- A counter file that is read one byte at a time sets one slot instead of two; and the Rust agent
counts an unchanged file at every flush. -/
theorem counter_file_read_twice :
    ([counterFile [1], counterFile [1, 1]].foldl mergeIntoSlice (.fresh, .zero)).2 ≠
        (mergeIntoSlice (.fresh, .zero) (counterFile [1, 1])).2 ∧
      mergeGocoverdir [counterFile (List.replicate 16 0 ++ [1, 0, 0, 0])]
          (mergeGocoverdir [counterFile (List.replicate 16 0 ++ [1, 0, 0, 0])] .zero) ≠
        mergeGocoverdir [counterFile (List.replicate 16 0 ++ [1, 0, 0, 0])] .zero := by
  constructor
  · obtain ⟨flag, first, -⟩ :=
      mergeIntoSlice_spec (s := (.fresh, .zero)) rfl (counterFile [1])
    have second := (mergeIntoSlice_spec flag (counterFile [1, 1])).2.1
    have atOnce := (mergeIntoSlice_spec (s := (.fresh, .zero)) rfl (counterFile [1, 1])).2.1
    have piece : newHits (mergeIntoSlice (.fresh, .zero) (counterFile [1])).1
        (counterFile [1, 1]) = newHits .fresh (counterFile [1]) := by
      decide +kernel
    have hits : newHits .fresh (counterFile [1]) = [(counterSlot 0 1, 1)] := by decide +kernel
    have both : newHits .fresh (counterFile [1, 1]) =
        [(counterSlot 0 1, 1), (counterSlot 1 1, 1)] := by
      decide +kernel
    have apart : counterSlot 0 1 ≠ counterSlot 1 1 := by decide +kernel
    rw [List.foldl_cons, List.foldl_cons, List.foldl_nil, second, piece, first, atOnce,
      ← raiseAll_append, hits, both]
    intro same
    have low : ((raiseAll Bitmap.zero ([(counterSlot 0 1, 1)] ++ [(counterSlot 0 1, 1)])).get
        (counterSlot 1 1)).toNat ≤ 0 := by
      rw [raiseAll_le_iff]
      simp [Bitmap.get_zero, apart]
    rw [same, raiseAll_le_iff] at low
    simp at low
  · rw [ne_eq, mergeGocoverdir_eq_self_iff]
    intro full
    have hits : gocoverdirHits [counterFile (List.replicate 16 0 ++ [1, 0, 0, 0])] =
        [slotOf (fnv1a "covcounters.a.1.1".toUTF8.toList 0)] := by
      decide +kernel
    have slot := full _ (by rw [hits]; exact List.mem_singleton_self _)
    rw [← UInt8.toNat_inj, mergeGocoverdir, toNat_get_touchAll, hits, Bitmap.get_zero] at slot
    simp at slot

end OpenThesis.Guest
