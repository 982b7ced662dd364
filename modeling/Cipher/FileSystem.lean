import Mathlib.Logic.Function.Basic
import Mathlib.Tactic.Common

/-!
# Names, files and open files

A name stands for a file, and a file has a number and contents. To rename or
remove is a matter of names alone. An open file is a file and an offset: it
stays the same file when the name goes to another, and every write goes to
the contents at once.

There are no links: two names stand for two files (`Disk.Ok`). `Same` says
that a name is left alone, and each operation comes with the names it leaves
alone.
-/

namespace FileSystem

open Function

structure Disk (ν : Type) where
  names : ν → Option Nat
  contents : Nat → List UInt8
  /-- No file has this number or a greater one. -/
  unused : Nat

structure OpenFile where
  file : Nat
  offset : Nat
deriving DecidableEq

/-- Data at an offset; what is skipped is filled with zeros. -/
def overwrite (contents : List UInt8) (offset : Nat) (data : List UInt8) : List UInt8 :=
  contents.take offset ++ List.replicate (offset - contents.length) 0 ++ data ++
    contents.drop (offset + data.length)

lemma overwrite_length (contents data : List UInt8) :
    overwrite contents contents.length data = contents ++ data := by
  rw [overwrite, Nat.sub_self]
  simp

namespace Disk

variable {ν : Type} {d d' : Disk ν} {name other old new : ν}

def read (d : Disk ν) (name : ν) : Option (List UInt8) := (d.names name).map d.contents

/-- No file has two names. -/
structure Ok (d : Disk ν) : Prop where
  used : ∀ {name file}, d.names name = some file → file < d.unused
  unshared : ∀ {name other file}, d.names name = some file → d.names other = some file →
    name = other

/-- The name stands for the same file with the same contents. -/
structure Same (d d' : Disk ν) (name : ν) : Prop where
  names : d'.names name = d.names name
  contents : ∀ {file}, d.names name = some file → d'.contents file = d.contents file

lemma Same.refl (d : Disk ν) (name : ν) : Same d d name := ⟨rfl, fun _ => rfl⟩

lemma Same.read (h : Same d d' name) : d'.read name = d.read name := by
  rw [Disk.read, Disk.read, h.names]
  cases hfile : d.names name with
  | none => rfl
  | some file => exact congrArg some (h.contents hfile)

/-! ## Writing -/

def write (d : Disk ν) (f : OpenFile) (data : List UInt8) : Disk ν × OpenFile :=
  let contents := overwrite (d.contents f.file) f.offset data
  ({ d with contents := update d.contents f.file contents },
    ⟨f.file, f.offset + data.length⟩)

lemma Ok.write (h : d.Ok) (f : OpenFile) (data : List UInt8) : (d.write f data).1.Ok :=
  ⟨h.used, h.unshared⟩

variable {f : OpenFile}

lemma same_write (h : d.names name ≠ some f.file) (data : List UInt8) :
    Same d (d.write f data).1 name := by
  refine ⟨rfl, fun hfile => update_of_ne ?_ ..⟩
  rintro rfl
  exact h hfile

/-- The file under the name is open at its end, with these contents. -/
structure Holds (d : Disk ν) (name : ν) (f : OpenFile) (contents : List UInt8) : Prop where
  name : d.names name = some f.file
  holds : d.contents f.file = contents
  offset : f.offset = contents.length

variable {contents : List UInt8}

lemma Holds.write (h : Holds d name f contents) (data : List UInt8) :
    Holds (d.write f data).1 name (d.write f data).2 (contents ++ data) := by
  refine ⟨h.name, ?_, ?_⟩
  · have hself : (d.write f data).1.contents f.file =
        overwrite (d.contents f.file) f.offset data := update_self ..
    change (d.write f data).1.contents f.file = _
    rw [hself, h.holds, h.offset, overwrite_length]
  · change f.offset + data.length = _
    rw [h.offset, List.length_append]

lemma Holds.read {f : OpenFile} {contents : List UInt8} (h : Holds d name f contents) :
    d.read name = some contents := by
  rw [Disk.read, h.name, Option.map_some, h.holds]

lemma Holds.same (h : Holds d name f contents) (hsame : Same d d' name) :
    Holds d' name f contents :=
  ⟨hsame.names.trans h.name, (hsame.contents h.name).trans h.holds, h.offset⟩

/-- What is written to the file does not get to another name. -/
lemma Holds.same_write (h : Holds d name f contents) (hok : d.Ok) (hother : other ≠ name)
    (data : List UInt8) : Same d (d.write f data).1 other :=
  Disk.same_write (fun hfile => hother (hok.unshared hfile h.name)) data

/-! ## Names -/

variable [DecidableEq ν]

/-- A file that is there is truncated. -/
def create (d : Disk ν) (name : ν) : Disk ν × OpenFile :=
  match d.names name with
  | some file => ({ d with contents := update d.contents file [] }, ⟨file, 0⟩)
  | none =>
    ({ names := update d.names name (some d.unused)
       contents := update d.contents d.unused []
       unused := d.unused + 1 }, ⟨d.unused, 0⟩)

/-- Fails if there is no such file. What had the new name has none. -/
def rename (d : Disk ν) (old new : ν) : Option (Disk ν) :=
  (d.names old).map fun file =>
    { d with names := update (update d.names old none) new (some file) }

def remove (d : Disk ν) (name : ν) : Disk ν :=
  { d with names := update d.names name none }

lemma names_of_update {names : ν → Option Nat} {value : Option Nat} {file : Nat}
    (h : update names name value other = some file) :
    (other = name ∧ value = some file) ∨ names other = some file := by
  by_cases hother : other = name
  · subst hother
    rw [update_self] at h
    exact .inl ⟨rfl, h⟩
  · rw [update_of_ne hother] at h
    exact .inr h

lemma Ok.create (h : d.Ok) (name : ν) : (d.create name).1.Ok := by
  rw [Disk.create]
  split
  · exact ⟨h.used, h.unshared⟩
  · -- the number is new
    have hnew : ∀ {other file}, update d.names name (some d.unused) other = some file →
        (other = name ∧ file = d.unused) ∨ (d.names other = some file ∧ file < d.unused) := by
      intro other file hfile
      rcases names_of_update hfile with ⟨hother, hvalue⟩ | hold
      · exact .inl ⟨hother, (Option.some.inj hvalue).symm⟩
      · exact .inr ⟨hold, h.used hold⟩
    refine ⟨fun hfile => ?_, fun hfile hfile' => ?_⟩
    · rcases hnew hfile with ⟨-, rfl⟩ | ⟨-, hlt⟩
      · exact Nat.lt_succ_self _
      · exact Nat.lt_succ_of_lt hlt
    · rcases hnew hfile with ⟨rfl, rfl⟩ | ⟨hold, hlt⟩
      · rcases hnew hfile' with ⟨rfl, -⟩ | ⟨-, hlt⟩
        · rfl
        · exact absurd hlt (Nat.lt_irrefl _)
      · rcases hnew hfile' with ⟨-, rfl⟩ | ⟨hold', -⟩
        · exact absurd hlt (Nat.lt_irrefl _)
        · exact h.unshared hold hold'

lemma holds_create (d : Disk ν) (name : ν) : Holds (d.create name).1 name (d.create name).2 [] := by
  rw [create]
  split
  · rename_i file hfile
    exact ⟨hfile, update_self .., rfl⟩
  · exact ⟨update_self .., update_self .., rfl⟩

lemma Ok.same_create (h : d.Ok) (hother : other ≠ name) : Same d (d.create name).1 other := by
  rw [Disk.create]
  split
  · rename_i file hfile
    refine ⟨rfl, fun hfile' => update_of_ne ?_ ..⟩
    rintro rfl
    exact hother (h.unshared hfile' hfile)
  · exact ⟨update_of_ne hother .., fun hfile =>
      update_of_ne (Nat.ne_of_lt (h.used hfile)) ..⟩

lemma Ok.remove (h : d.Ok) (name : ν) : (d.remove name).Ok := by
  have hold : ∀ {other file}, (d.remove name).names other = some file →
      d.names other = some file := by
    intro other file hfile
    rcases names_of_update hfile with ⟨-, hvalue⟩ | hold
    · cases hvalue
    · exact hold
  exact ⟨fun hfile => h.used (hold hfile), fun hfile hfile' =>
    h.unshared (hold hfile) (hold hfile')⟩

lemma same_remove (hother : other ≠ name) : Same d (d.remove name) other :=
  ⟨update_of_ne hother .., fun _ => rfl⟩

/-- What renaming does: it fails only if there is no file, and the new name
reads what the old one did. -/
structure Renamed (d d' : Disk ν) (old new : ν) : Prop where
  ok : d'.Ok
  read : d'.read new = d.read old
  same : ∀ other, other ≠ old → other ≠ new → Same d d' other

lemma Ok.renamed (h : d.Ok) (hread : d.read old = some contents) (new : ν) :
    ∃ d', d.rename old new = some d' ∧ Renamed d d' old new := by
  obtain ⟨file, hfile, -⟩ := Option.map_eq_some_iff.mp hread
  refine ⟨_, by rw [Disk.rename, hfile]; rfl, ?_, ?_, ?_⟩
  · -- the file was that of the old name, which has none now
    have hnew : ∀ {name file'}, update (update d.names old none) new (some file) name = some file' →
        (name = new ∧ file' = file) ∨ (d.names name = some file' ∧ file' ≠ file) := by
      intro name file' hname
      rcases names_of_update hname with ⟨hname, hvalue⟩ | hname
      · exact .inl ⟨hname, (Option.some.inj hvalue).symm⟩
      · by_cases hold : name = old
        · rw [hold, update_self] at hname
          cases hname
        · rw [update_of_ne hold] at hname
          exact .inr ⟨hname, fun heq => hold (h.unshared (heq ▸ hname) hfile)⟩
    refine ⟨fun hname => ?_, fun hname hname' => ?_⟩
    · rcases hnew hname with ⟨-, rfl⟩ | ⟨hname, -⟩
      · exact h.used hfile
      · exact h.used hname
    · rcases hnew hname with ⟨rfl, rfl⟩ | ⟨hname, hne⟩
      · rcases hnew hname' with ⟨rfl, -⟩ | ⟨-, hne⟩
        · rfl
        · exact absurd rfl hne
      · rcases hnew hname' with ⟨-, rfl⟩ | ⟨hname', -⟩
        · exact absurd rfl hne
        · exact h.unshared hname hname'
  · rw [Disk.read, Disk.read, hfile]
    exact congrArg (Option.map _) (update_self ..)
  · intro other hold hnew
    refine ⟨?_, fun _ => rfl⟩
    dsimp only
    rw [update_of_ne hnew, update_of_ne hold]

end Disk

end FileSystem
