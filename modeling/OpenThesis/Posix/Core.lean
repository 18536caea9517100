import Mathlib.Data.List.Basic
import Mathlib.Logic.Function.Basic

/-!
# Files behind names

A directory entry names a file. A descriptor keeps its file when the name is given to another one,
and has an offset of its own.
-/

namespace OpenThesis.Posix

open Function

universe u

/-- Names, inodes and their content. -/
structure FileSystem (ν : Type u) where
  entries : ν → Option Nat
  content : Nat → List UInt8
  fresh : Nat
  entries_lt : ∀ {name inode}, entries name = some inode → inode < fresh

def overwrite (text : List UInt8) (offset : Nat) (written : List UInt8) : List UInt8 :=
  text.take offset ++ List.replicate (offset - text.length) 0 ++ written ++
    text.drop (offset + written.length)

theorem overwrite_length (text written : List UInt8) :
    overwrite text text.length written = text ++ written := by
  simp [overwrite]

namespace FileSystem

variable {ν : Type u} [DecidableEq ν]

def empty : FileSystem ν where
  entries _ := none
  content _ := []
  fresh := 0
  entries_lt := nofun

def text (fs : FileSystem ν) (name : ν) : Option (List UInt8) :=
  (fs.entries name).map fs.content

def create (fs : FileSystem ν) (name : ν) : FileSystem ν × Nat :=
  match fs.entries name with
  | some inode => ({ fs with content := update fs.content inode [] }, inode)
  | none =>
    ({ entries := update fs.entries name (some fs.fresh)
       content := update fs.content fs.fresh []
       fresh := fs.fresh + 1
       entries_lt := by
         intro other inode found
         rw [update_apply] at found
         split_ifs at found with same
         · cases found
           exact Nat.lt_succ_self _
         · exact Nat.lt_succ_of_lt (fs.entries_lt found) }, fs.fresh)

def writeAt (fs : FileSystem ν) (inode offset : Nat) (written : List UInt8) : FileSystem ν :=
  { fs with
    content := update fs.content inode (overwrite (fs.content inode) offset written) }

def remove (fs : FileSystem ν) (name : ν) : FileSystem ν where
  entries := update fs.entries name none
  content := fs.content
  fresh := fs.fresh
  entries_lt := by
    intro other inode found
    rw [update_apply] at found
    split_ifs at found
    exact fs.entries_lt found

def rename (fs : FileSystem ν) (old new : ν) : Option (FileSystem ν) :=
  match found : fs.entries old with
  | none => none
  | some inode =>
    if fs.entries new = some inode then some fs
    else
      some
        { entries := update (update fs.entries new (some inode)) old none
          content := fs.content
          fresh := fs.fresh
          entries_lt := by
            intro other inode' same
            simp only [update_apply] at same
            split_ifs at same
            · cases same
              exact fs.entries_lt found
            · exact fs.entries_lt same }

variable {fs : FileSystem ν} {name other : ν} {inode : Nat}

theorem entries_create : (fs.create name).1.entries name = some (fs.create name).2 := by
  rw [create]
  cases found : fs.entries name with
  | none => exact update_self ..
  | some inode => exact found

theorem entries_create_of_ne (ne : other ≠ name) :
    (fs.create name).1.entries other = fs.entries other := by
  rw [create]
  cases fs.entries name with
  | none => exact update_of_ne ne ..
  | some inode => rfl

theorem content_create : (fs.create name).1.content (fs.create name).2 = [] := by
  rw [create]
  cases fs.entries name with
  | none | some inode => exact update_self ..

theorem create_ne (below : inode < fs.fresh) (unnamed : fs.entries name ≠ some inode) :
    inode ≠ (fs.create name).2 := by
  rw [create]
  cases found : fs.entries name with
  | none => exact Nat.ne_of_lt below
  | some opened =>
    rintro rfl
    exact unnamed found

theorem content_create_of_ne (ne : inode ≠ (fs.create name).2) :
    (fs.create name).1.content inode = fs.content inode := by
  rw [create] at ne ⊢
  cases found : fs.entries name with
  | none | some opened =>
    rw [found] at ne
    exact update_of_ne ne ..

theorem fresh_le_create : fs.fresh ≤ (fs.create name).1.fresh := by
  rw [create]
  cases fs.entries name with
  | none => exact Nat.le_succ _
  | some inode => exact Nat.le_refl _

theorem rename_of_entries {old new : ν} (found : fs.entries old = some inode)
    (unnamed : fs.entries new ≠ some inode) (ne : new ≠ old) :
    ∃ renamed, fs.rename old new = some renamed ∧ renamed.entries new = some inode ∧
      renamed.entries old = none ∧ renamed.content = fs.content ∧ renamed.fresh = fs.fresh := by
  rw [rename]
  split
  next missing =>
      rw [missing] at found
      cases found
  next inode' found' =>
      cases found.symm.trans found'
      rw [if_neg unnamed]
      exact ⟨_, rfl, (update_of_ne ne ..).trans (update_self ..), update_self .., rfl, rfl⟩

end FileSystem

end OpenThesis.Posix
