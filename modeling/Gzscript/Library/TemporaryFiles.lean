import Mathlib.Data.List.Basic
import Mathlib.Logic.Function.Basic

/-!
# Accounting for temporary files

A program that works with temporary files owes the deletion of each one it has created. `Owed` says
that every temporary file there is stands on a list, and there is one rule for each operation: a
file that is created goes on the list, and one that is removed or renamed away comes off it. A
program that ends with the empty list has left nothing behind.

Files are paths that exist or not, and which paths are temporary is a parameter.
-/

set_option autoImplicit false
set_option relaxedAutoImplicit false

namespace Gzscript.Library.TemporaryFiles

variable {Path : Type*} [DecidableEq Path]

/-- The files that exist. -/
abbrev Files (Path : Type*) : Type _ := Path → Bool

def create (path : Path) (files : Files Path) : Files Path := Function.update files path true

def remove (path : Path) (files : Files Path) : Files Path := Function.update files path false

/-- A file takes the place of another. -/
def rename (source destination : Path) (files : Files Path) : Files Path :=
  create destination (remove source files)

/-- A write, which may leave a file behind if it fails. -/
def write (succeeds leaves : Bool) (path : Path) (files : Files Path) : Files Path :=
  if succeeds || leaves then create path files else files

/-- The temporary files that exist are all on a list. -/
def Owed (temporary : Path → Prop) (paths : List Path) (files : Files Path) : Prop :=
  ∀ path, temporary path → files path = true → path ∈ paths

variable {temporary : Path → Prop} {paths : List Path} {files : Files Path}

omit [DecidableEq Path] in
theorem Owed.mono {more : List Path} (howed : Owed temporary paths files) (hmore : paths ⊆ more) :
    Owed temporary more files :=
  fun path htemporary hexists ↦ hmore (howed path htemporary hexists)

theorem owed_create (path : Path) (howed : Owed temporary paths files) :
    Owed temporary (path :: paths) (create path files) := by
  intro other htemporary hexists
  rw [create, Function.update_apply] at hexists
  split_ifs at hexists with hsame
  · exact hsame ▸ List.mem_cons_self
  · exact List.mem_cons_of_mem path (howed other htemporary hexists)

/-- A file that is no temporary one is not owed. -/
theorem owed_create_other {path : Path} (hpath : ¬ temporary path)
    (howed : Owed temporary paths files) : Owed temporary paths (create path files) := by
  intro other htemporary hexists
  rcases List.mem_cons.mp (owed_create path howed other htemporary hexists) with rfl | hmem
  · exact absurd htemporary hpath
  · exact hmem

theorem owed_remove {path : Path} (howed : Owed temporary (path :: paths) files) :
    Owed temporary paths (remove path files) := by
  intro other htemporary hexists
  rw [remove, Function.update_apply] at hexists
  split_ifs at hexists with hsame
  exact (List.mem_cons.mp (howed other htemporary hexists)).resolve_left hsame

theorem owed_rename {source destination : Path} (hdestination : ¬ temporary destination)
    (howed : Owed temporary (source :: paths) files) :
    Owed temporary paths (rename source destination files) :=
  owed_create_other hdestination (owed_remove howed)

theorem owed_write (succeeds leaves : Bool) (path : Path) (howed : Owed temporary paths files) :
    Owed temporary (path :: paths) (write succeeds leaves path files) := by
  unfold write
  split_ifs
  · exact owed_create path howed
  · exact howed.mono (List.subset_cons_self path paths)

end Gzscript.Library.TemporaryFiles
