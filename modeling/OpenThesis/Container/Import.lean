import OpenThesis.Calls.Core
import OpenThesis.Paths.Core

/-!
# Extraction of image layers

The entries of a layer are made under a directory (`extractTar`); only the branch for ordinary
entries checks that they stay there.
-/

namespace OpenThesis.Container

open Text Paths Calls Calls.Program List

inductive Typeflag
  | typeDir
  | typeReg
  | typeSymlink
  | typeLink
  | other
  deriving DecidableEq

structure Header where
  name : Bytes
  typeflag : Typeflag
  linkname : Bytes

/-- A call of the file system. -/
inductive FileCall
  | removeAll (path : Bytes)
  | mkdirAll (path : Bytes)
  | openFile (path : Bytes)
  | copyContent
  | remove (path : Bytes)
  | symlink (oldname newname : Bytes)
  | link (oldname newname : Bytes)
  | copyFile (src dst : Bytes)
  deriving DecidableEq

def whiteout : Bytes := bytes ".wh."

def Header.isWhiteout (hdr : Header) : Bool :=
  whiteout.isPrefixOf (base hdr.name)

def Header.deleted (destDir : Bytes) (hdr : Header) : Bytes :=
  join [destDir, dir hdr.name, (base hdr.name).drop whiteout.length]

def Header.target (destDir : Bytes) (hdr : Header) : Bytes :=
  join [destDir, clean hdr.name]

def Header.linkTarget (destDir : Bytes) (hdr : Header) : Bytes :=
  join [destDir, clean hdr.linkname]

def staysInside (destDir target : Bytes) : Bool :=
  (clean destDir ++ [slash]).isPrefixOf target || target = clean destDir

def extractEntry (destDir : Bytes) (hdr : Header) : Program FileCall Unit := do
  if hdr.isWhiteout then
    attempt (.removeAll (hdr.deleted destDir))
  else
    let target := hdr.target destDir
    if !staysInside destDir target then
      pure ()
    else
      match hdr.typeflag with
      | .typeDir => require (.mkdirAll target)
      | .typeReg => do
          require (.mkdirAll (dir target))
          require (.openFile target)
          require .copyContent
      | .typeSymlink => do
          require (.mkdirAll (dir target))
          attempt (.remove target)
          require (.symlink hdr.linkname target)
      | .typeLink => do
          require (.mkdirAll (dir target))
          let linkTarget := hdr.linkTarget destDir
          attempt (.remove target)
          if ← request (.link linkTarget target) then
            pure ()
          else
            attempt (.copyFile linkTarget target)
      | .other => pure ()

def extractTar (destDir : Bytes) (headers : List Header) (damaged : Bool) :
    Program FileCall Unit := do
  headers.forM (extractEntry destDir)
  if damaged then giveUp else pure ()

def possibleCalls (destDir : Bytes) (hdr : Header) : List FileCall :=
  if hdr.isWhiteout then [.removeAll (hdr.deleted destDir)]
  else if !staysInside destDir (hdr.target destDir) then []
  else
    match hdr.typeflag with
    | .typeDir => [.mkdirAll (hdr.target destDir)]
    | .typeReg =>
      [.mkdirAll (dir (hdr.target destDir)), .openFile (hdr.target destDir), .copyContent]
    | .typeSymlink =>
      [.mkdirAll (dir (hdr.target destDir)), .remove (hdr.target destDir),
        .symlink hdr.linkname (hdr.target destDir)]
    | .typeLink =>
      [.mkdirAll (dir (hdr.target destDir)), .remove (hdr.target destDir),
        .link (hdr.linkTarget destDir) (hdr.target destDir),
        .copyFile (hdr.linkTarget destDir) (hdr.target destDir)]
    | .other => []

def linksFail : Environment FileCall
  | _, .link _ _ => false
  | _, _ => true

variable {destDir : Bytes} {hdr : Header}

theorem extractEntry_makes : (extractEntry destDir hdr).Makes (· ∈ possibleCalls destDir hdr) := by
  unfold extractEntry possibleCalls
  by_cases marker : hdr.isWhiteout
  · simp only [if_pos marker]
    exact makes_attempt (by simp)
  · simp only [if_neg marker]
    by_cases outside : !staysInside destDir (hdr.target destDir)
    · simp only [if_pos outside]
      exact makes_pure ()
    · simp only [if_neg outside]
      cases hdr.typeflag with
      | typeDir => exact makes_require (by simp)
      | typeReg =>
        apply makes_bind (makes_require (by simp))
        intro _
        apply makes_bind (makes_require (by simp))
        intro _
        exact makes_require (by simp)
      | typeSymlink =>
        apply makes_bind (makes_require (by simp))
        intro _
        apply makes_bind (makes_attempt (by simp))
        intro _
        exact makes_require (by simp)
      | typeLink =>
        apply makes_bind (makes_require (by simp))
        intro _
        apply makes_bind (makes_attempt (by simp))
        intro _
        apply makes_bind (makes_request (by simp))
        intro linked
        cases linked with
        | true => exact makes_pure ()
        | false => exact makes_attempt (by simp)
      | other => exact makes_pure ()

theorem extractEntry_returns :
    Returns linksFail (extractEntry destDir hdr) () (possibleCalls destDir hdr) := by
  unfold extractEntry possibleCalls
  by_cases marker : hdr.isWhiteout
  · simp only [if_pos marker]
    exact returns_attempt (fun _ => rfl)
  · simp only [if_neg marker]
    by_cases outside : !staysInside destDir (hdr.target destDir)
    · simp only [if_pos outside]
      exact returns_pure ()
    · simp only [if_neg outside]
      cases hdr.typeflag with
      | typeDir => exact returns_require (fun _ => rfl)
      | typeReg =>
        apply returns_bind [_] (returns_require (fun _ => rfl))
        apply returns_bind [_] (returns_require (fun _ => rfl))
        exact returns_require (fun _ => rfl)
      | typeSymlink =>
        apply returns_bind [_] (returns_require (fun _ => rfl))
        apply returns_bind [_] (returns_attempt (fun _ => rfl))
        exact returns_require (fun _ => rfl)
      | typeLink =>
        apply returns_bind [_] (returns_require (fun _ => rfl))
        apply returns_bind [_] (returns_attempt (fun _ => rfl))
        apply returns_bind [_] (returns_request (fun _ => rfl))
        exact returns_attempt (fun _ => rfl)
      | other => exact returns_pure ()

theorem forall_calls_iff (property : FileCall → Prop) (headers : List Header) (damaged : Bool) :
    (∀ env, ∀ call ∈ (extractTar destDir headers damaged env []).2, property call) ↔
      ∀ hdr ∈ headers, ∀ call ∈ possibleCalls destDir hdr, property call := by
  constructor
  · intro holds hdr mem call isPossible
    have entries : Returns linksFail (headers.forM (extractEntry destDir)) ()
        (headers.flatMap (possibleCalls destDir)) :=
      returns_forM fun hdr _ => extractEntry_returns
    apply holds linksFail
    have made : (extractTar destDir headers damaged linksFail []).2 =
        headers.flatMap (possibleCalls destDir) := by
      simp only [extractTar, bind, entries [], nil_append]
      cases damaged with
      | true | false => rfl
    rw [made, mem_flatMap]
    exact ⟨hdr, mem, isPossible⟩
  · intro holds env call made
    have allowed : (extractTar destDir headers damaged).Makes property := by
      apply makes_bind
      · apply makes_forM
        intro hdr mem env calls call made
        exact (extractEntry_makes env calls call made).imp_right (holds hdr mem call)
      · intro _
        cases damaged with
        | true => exact makes_giveUp
        | false => exact makes_pure ()
    rcases allowed env [] call made with impossible | held
    · cases impossible
    · exact held

def Within (destDir path : Bytes) : Prop :=
  clean path = destDir ∨ (destDir ++ [slash]) <+: clean path

instance (destDir path : Bytes) : Decidable (Within destDir path) :=
  inferInstanceAs (Decidable (_ ∨ _))

def AtOrAbove (destDir path : Bytes) : Prop :=
  clean path = destDir ∨ clean path = [slash] ∨ (clean path ++ [slash]) <+: destDir

instance (destDir path : Bytes) : Decidable (AtOrAbove destDir path) :=
  inferInstanceAs (Decidable (_ ∨ _))

/-- The call stays inside the directory, and does not delete all of it. -/
def FileCall.Confined (destDir : Bytes) : FileCall → Prop
  | .removeAll path => Within destDir path ∧ ¬ AtOrAbove destDir path
  | .mkdirAll path | .openFile path | .remove path => Within destDir path
  | .copyContent => True
  | .symlink _ newname => Within destDir newname
  | .link oldname newname => Within destDir oldname ∧ Within destDir newname
  | .copyFile src dst => Within destDir src ∧ Within destDir dst

instance (destDir : Bytes) : (call : FileCall) → Decidable (call.Confined destDir)
  | .removeAll _ | .link _ _ | .copyFile _ _ => inferInstanceAs (Decidable (_ ∧ _))
  | .mkdirAll _ | .openFile _ | .remove _ | .symlink _ _ =>
    inferInstanceAs (Decidable (Within _ _))
  | .copyContent => inferInstanceAs (Decidable True)

/-- A whiteout leads below the directory, an entry with a target not to the directory itself, and
the link name of a hard link not out of it. -/
def Header.Confined (dest : Place) (hdr : Header) : Prop :=
  if hdr.isWhiteout then
    let deleted := (dest.walk (dir hdr.name)).walk ((base hdr.name).drop whiteout.length)
    dest.Contains deleted ∧ deleted ≠ dest
  else
    match hdr.typeflag with
    | .typeDir | .other => True
    | .typeReg | .typeSymlink => dest.walk (clean hdr.name) ≠ dest
    | .typeLink =>
      dest.walk (clean hdr.name) ≠ dest ∧
        (dest.Contains (dest.walk (clean hdr.name)) →
          dest.Contains (dest.walk (clean hdr.linkname)))

theorem atOrAbove_text_iff (dest place : Place) :
    AtOrAbove dest.text place.text ↔ place.Contains dest := by
  rw [AtOrAbove, Place.clean_text]
  by_cases isRoot : place = Place.root
  · subst isRoot
    exact iff_of_true (.inr (.inl rfl)) nil_suffix
  · have notSlash : place.text ≠ [slash] := by
      intro same
      exact isRoot (Place.text_injective (same.trans (by rfl)))
    rw [place.contains_iff_text isRoot, eq_comm]
    simp [notSlash]

section

variable {dest : Place} (notRoot : dest ≠ Place.root)

include notRoot

theorem within_text_iff (place : Place) : Within dest.text place.text ↔ dest.Contains place := by
  rw [Within, Place.clean_text, dest.contains_iff_text notRoot]

theorem staysInside_text_iff (place : Place) :
    staysInside dest.text place.text = true ↔ dest.Contains place := by
  rw [dest.contains_iff_text notRoot, staysInside, Place.clean_text]
  simp [or_comm]

theorem within_dir_iff {place : Place} (inside : dest.Contains place) :
    Within dest.text (dir place.text) ↔ place ≠ dest := by
  rw [Place.dir_text, within_text_iff notRoot, Place.contains_parent_iff notRoot inside]

theorem removeAll_confined_iff (place : Place) :
    (FileCall.removeAll place.text).Confined dest.text ↔ dest.Contains place ∧ place ≠ dest := by
  rw [FileCall.Confined, within_text_iff notRoot, atOrAbove_text_iff]
  constructor
  · rintro ⟨inside, notAbove⟩
    refine ⟨inside, ?_⟩
    rintro rfl
    exact notAbove inside
  · rintro ⟨inside, differ⟩
    exact ⟨inside, fun above => differ (inside.antisymm above)⟩

theorem possibleCalls_confined_iff (hdr : Header) :
    (∀ call ∈ possibleCalls dest.text hdr, call.Confined dest.text) ↔ hdr.Confined dest := by
  have deleted : hdr.deleted dest.text = _ := dest.join_text _
  have target : hdr.target dest.text = (dest.walk (clean hdr.name)).text := dest.join_text _
  have linkTarget : hdr.linkTarget dest.text = (dest.walk (clean hdr.linkname)).text :=
    dest.join_text _
  rw [possibleCalls, Header.Confined]
  by_cases marker : hdr.isWhiteout
  · rw [if_pos marker, if_pos marker, forall_mem_singleton, deleted,
      removeAll_confined_iff notRoot]
    rfl
  · rw [if_neg marker, if_neg marker, target, linkTarget]
    have skipped := staysInside_text_iff notRoot (dest.walk (clean hdr.name))
    by_cases inside : dest.Contains (dest.walk (clean hdr.name))
    · have within := (within_text_iff notRoot _).mpr inside
      have around := within_dir_iff notRoot inside
      have source := within_text_iff notRoot (dest.walk (clean hdr.linkname))
      rw [skipped.mpr inside]
      cases hdr.typeflag with
      | typeDir => simpa [FileCall.Confined] using within
      | typeReg | typeSymlink => simp [FileCall.Confined, within, around]
      | typeLink => simp [FileCall.Confined, within, around, source, inside]
      | other => simp
    · have differ : dest.walk (clean hdr.name) ≠ dest := by
        intro same
        exact inside (same.symm ▸ suffix_rfl)
      rw [Bool.eq_false_iff.mpr (skipped.not.mpr inside)]
      cases hdr.typeflag with
      | typeDir => simp
      | typeReg | typeSymlink => simp [differ]
      | typeLink => simp [differ, inside]
      | other => simp

end

/-- An extraction stays inside its directory, whatever the file system does, exactly if all of its
entries do. -/
theorem extractTar_confined_iff (destDir : Bytes) (absolute : destDir.head? = some slash)
    (cleaned : clean destDir = destDir) (notRoot : destDir ≠ [slash]) (headers : List Header)
    (damaged : Bool) :
    (∀ env, ∀ call ∈ (extractTar destDir headers damaged env []).2, call.Confined destDir) ↔
      ∀ hdr ∈ headers, hdr.Confined (Place.root.walk destDir) := by
  have written := Place.text_walk absolute cleaned
  have placeNotRoot : Place.root.walk destDir ≠ Place.root := by
    intro same
    rw [same] at written
    exact notRoot (written.symm.trans (by rfl))
  rw [forall_calls_iff]
  have each := possibleCalls_confined_iff placeNotRoot
  rw [written] at each
  simp only [each]

theorem extractTar_confined_hosts :
    clean (bytes "/rootfs") = bytes "/rootfs" ∧
      ∀ env, ∀ call ∈ (extractTar (bytes "/rootfs")
        [⟨bytes "etc/hosts", .typeReg, []⟩, ⟨bytes "etc/.wh.hosts", .typeReg, []⟩] false env []).2,
        call.Confined (bytes "/rootfs") := by
  refine ⟨by decide, ?_⟩
  apply (extractTar_confined_iff (bytes "/rootfs") (by decide) (by decide) (by decide) _ _).mpr
  rw [forall_mem_cons, forall_mem_singleton]
  constructor
  · rw [Header.Confined, if_neg (by decide)]
    have differ : (Place.root.walk (bytes "/rootfs")).walk (clean (bytes "etc/hosts")) ≠
        Place.root.walk (bytes "/rootfs") := by decide
    exact differ
  · rw [Header.Confined, if_pos (by decide)]
    exact ⟨by decide, by decide⟩

/-- The deletion of what is next to the directory, its own deletion, a link to a file outside, and a
file in its place. -/
theorem extractTar_leaves_directory :
    let leaves hdr call :=
      call ∈ (extractTar (bytes "/rootfs") [hdr] false linksFail []).2 ∧
        ¬ FileCall.Confined (bytes "/rootfs") call
    leaves ⟨bytes "../.wh.home", .typeReg, []⟩ (.removeAll (bytes "/home")) ∧
      leaves ⟨bytes ".wh.", .typeReg, []⟩ (.removeAll (bytes "/rootfs")) ∧
      leaves ⟨bytes "copy", .typeLink, bytes "../etc/shadow"⟩
        (.link (bytes "/etc/shadow") (bytes "/rootfs/copy")) ∧
      leaves ⟨bytes ".", .typeReg, []⟩ (.mkdirAll (bytes "/")) := by
  decide

end OpenThesis.Container
