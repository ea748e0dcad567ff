import Mathlib.Data.List.Infix
import Mathlib.Data.List.Nodup

/-!
# File trees

A tree of files and directories below one root, with the operations of a file system on it. A path
is a list of names from the root on. Every file and every directory is in a directory, and nothing
is both, so a tree in which a file stands in the way of another cannot be built.

An operation on a path where nothing is fails in one of two ways, as there is a file on the way to
it or not (`absent`).
-/

set_option autoImplicit false
set_option relaxedAutoImplicit false

namespace Gzscript.Library.Files

/-- What an operation of a file system fails with. -/
inductive FileError
  | fileNotFound
  | notDir
  | isDir
  deriving DecidableEq

structure FileTree (Name Contents : Type) where
  files : List (List Name × Contents)
  directories : List (List Name)
  root : [] ∈ directories
  nested : ∀ path ∈ directories, path.dropLast ∈ directories
  filesNested : ∀ entry ∈ files, entry.1.dropLast ∈ directories
  separate : ∀ entry ∈ files, entry.1 ∉ directories
  distinct : (files.map Prod.fst).Nodup

variable {Name Contents : Type} [DecidableEq Name]

namespace FileTree

/-- The contents of the file at a path. -/
def file? (tree : FileTree Name Contents) (path : List Name) : Option Contents :=
  (tree.files.find? fun entry ↦ entry.1 = path).map Prod.snd

/-- What an operation on a path fails with that finds nothing there. -/
def absent (tree : FileTree Name Contents) (path : List Name) : FileError :=
  if path.inits.any fun above ↦ (tree.file? above).isSome then .notDir else .fileNotFound

def stat (tree : FileTree Name Contents) (path : List Name) : Except FileError Unit :=
  if (tree.file? path).isSome ∨ path ∈ tree.directories then .ok () else .error (tree.absent path)

def readFile (tree : FileTree Name Contents) (path : List Name) : Except FileError Contents :=
  match tree.file? path with
  | some contents => .ok contents
  | none => if path ∈ tree.directories then .error .isDir else .error (tree.absent path)

def openDir (tree : FileTree Name Contents) (path : List Name) : Except FileError Unit :=
  if path ∈ tree.directories then .ok () else .error (tree.absent path)

/-- The tree without the file at a path. -/
def without (tree : FileTree Name Contents) (path : List Name) : FileTree Name Contents where
  files := tree.files.filter fun entry ↦ entry.1 ≠ path
  directories := tree.directories
  root := tree.root
  nested := tree.nested
  filesNested entry hentry := tree.filesNested entry (List.mem_filter.mp hentry).1
  separate entry hentry := tree.separate entry (List.mem_filter.mp hentry).1
  distinct := tree.distinct.sublist (List.filter_sublist.map Prod.fst)

def deleteFile (tree : FileTree Name Contents) (path : List Name) :
    Except FileError (FileTree Name Contents) :=
  match tree.file? path with
  | some _ => .ok (tree.without path)
  | none => if path ∈ tree.directories then .error .isDir else .error (tree.absent path)

theorem file?_isSome_iff (tree : FileTree Name Contents) (path : List Name) :
    (tree.file? path).isSome = true ↔ ∃ entry ∈ tree.files, entry.1 = path := by
  rw [file?, Option.isSome_map, List.find?_isSome]
  simp only [decide_eq_true_eq]

/-- The tree with the directories on the way to a path, where no file is on it. -/
def withDirectories (tree : FileTree Name Contents) (path : List Name)
    (h : ∀ above ∈ path.inits, tree.file? above = none) : FileTree Name Contents where
  files := tree.files
  directories := tree.directories ++ path.inits
  root := List.mem_append_left _ tree.root
  nested directory hdirectory := by
    obtain hold | hnew := List.mem_append.mp hdirectory
    · exact List.mem_append_left _ (tree.nested directory hold)
    · refine List.mem_append_right _ ((List.mem_inits _ _).mpr ?_)
      exact (List.dropLast_prefix directory).trans ((List.mem_inits _ _).mp hnew)
  filesNested entry hentry := List.mem_append_left _ (tree.filesNested entry hentry)
  separate entry hentry hdirectory := by
    obtain hold | hnew := List.mem_append.mp hdirectory
    · exact tree.separate entry hentry hold
    · have hsome := (tree.file?_isSome_iff entry.1).mpr ⟨entry, hentry, rfl⟩
      rw [h entry.1 hnew] at hsome
      exact Bool.false_ne_true hsome
  distinct := tree.distinct

def createDirPath (tree : FileTree Name Contents) (path : List Name) :
    Except FileError (FileTree Name Contents) :=
  if h : ∀ above ∈ path.inits, tree.file? above = none then .ok (tree.withDirectories path h)
  else .error .notDir

/-- The tree with a file at a path, where its directory is. -/
def withFile (tree : FileTree Name Contents) (path : List Name) (contents : Contents)
    (hdirectory : path.dropLast ∈ tree.directories) (hpath : path ∉ tree.directories) :
    FileTree Name Contents where
  files := (path, contents) :: tree.files.filter fun entry ↦ entry.1 ≠ path
  directories := tree.directories
  root := tree.root
  nested := tree.nested
  filesNested entry hentry := by
    obtain rfl | hold := List.mem_cons.mp hentry
    · exact hdirectory
    · exact tree.filesNested entry (List.mem_filter.mp hold).1
  separate entry hentry := by
    obtain rfl | hold := List.mem_cons.mp hentry
    · exact hpath
    · exact tree.separate entry (List.mem_filter.mp hold).1
  distinct := by
    refine List.nodup_cons.mpr ⟨fun hmem ↦ ?_, (tree.without path).distinct⟩
    obtain ⟨entry, hentry, hsame⟩ := List.mem_map.mp hmem
    exact of_decide_eq_true (List.mem_filter.mp hentry).2 hsame

/-- A file is made, or its contents are replaced. -/
def writeFile (tree : FileTree Name Contents) (path : List Name) (contents : Contents) :
    Except FileError (FileTree Name Contents) :=
  if hpath : path ∈ tree.directories then .error .isDir
  else if hdirectory : path.dropLast ∈ tree.directories then
    .ok (tree.withFile path contents hdirectory hpath)
  else .error (tree.absent path)

/-! ### The file at a path -/

variable (tree : FileTree Name Contents)

theorem file?_without (path other : List Name) :
    (tree.without path).file? other = if other = path then none else tree.file? other := by
  unfold file? without
  split_ifs with hsame
  · subst hsame
    rw [Option.map_eq_none_iff, List.find?_eq_none]
    intro entry hentry hequal
    exact of_decide_eq_true (List.mem_filter.mp hentry).2 (of_decide_eq_true hequal)
  · rw [List.find?_filter]
    congr 2
    funext entry
    by_cases hequal : entry.1 = other
    · simp [hequal, hsame]
    · simp [hequal]

theorem file?_withFile (path other : List Name) (contents : Contents)
    (hdirectory : path.dropLast ∈ tree.directories) (hpath : path ∉ tree.directories) :
    (tree.withFile path contents hdirectory hpath).file? other =
      if other = path then some contents else tree.file? other := by
  have hfiles : (tree.withFile path contents hdirectory hpath).files =
      (path, contents) :: (tree.without path).files := rfl
  have hrest := tree.file?_without path other
  rw [file?] at hrest
  rw [file?, hfiles]
  split_ifs with hsame
  · subst hsame
    rw [List.find?_cons_of_pos (by simp)]
    rfl
  · rw [if_neg hsame] at hrest
    rw [List.find?_cons_of_neg (by simpa using Ne.symm hsame)]
    exact hrest

/-- No path is that of a file and of a directory. -/
theorem not_directory_of_file {path : List Name} {contents : Contents}
    (h : tree.file? path = some contents) : path ∉ tree.directories := by
  obtain ⟨entry, hentry, rfl⟩ :=
    (tree.file?_isSome_iff path).mp (Option.isSome_iff_exists.mpr ⟨contents, h⟩)
  exact tree.separate entry hentry

theorem directory_of_file {path : List Name} {contents : Contents}
    (h : tree.file? path = some contents) : path.dropLast ∈ tree.directories := by
  obtain ⟨entry, hentry, rfl⟩ :=
    (tree.file?_isSome_iff path).mp (Option.isSome_iff_exists.mpr ⟨contents, h⟩)
  exact tree.filesNested entry hentry

omit [DecidableEq Name] in
/-- What a directory is in is a directory. -/
theorem directory_of_prefix {path above : List Name} (h : path ∈ tree.directories)
    (habove : above <+: path) : above ∈ tree.directories := by
  obtain ⟨rest, rfl⟩ := habove
  induction rest using List.reverseRecOn with
  | nil => rwa [List.append_nil] at h
  | append_singleton rest name ih =>
    refine ih ?_
    have hdirectory := tree.nested _ h
    rwa [← List.append_assoc, List.dropLast_concat] at hdirectory

/-! ### What the operations do -/

theorem absent_eq_fileNotFound_iff (path : List Name) :
    tree.absent path = .fileNotFound ↔ ∀ above ∈ path.inits, tree.file? above = none := by
  unfold absent
  split_ifs with hany
  · obtain ⟨above, habove, hsome⟩ := List.any_eq_true.mp hany
    refine iff_of_false (by simp) fun hnone ↦ ?_
    rw [hnone above habove] at hsome
    exact Bool.false_ne_true hsome
  · refine iff_of_true rfl fun above habove ↦ ?_
    rw [Bool.not_eq_true, List.any_eq_false] at hany
    simpa using hany above habove

theorem readFile_eq_ok_iff {path : List Name} {contents : Contents} :
    tree.readFile path = .ok contents ↔ tree.file? path = some contents := by
  unfold readFile
  split
  next found hfound =>
    rw [hfound]
    exact ⟨fun h ↦ congrArg some (Except.ok.inj h), fun h ↦ congrArg Except.ok (Option.some.inj h)⟩
  next hnone =>
    rw [hnone]
    refine iff_of_false (fun h ↦ ?_) (Option.some_ne_none contents).symm
    split_ifs at h

theorem deleteFile_eq_ok {path : List Name} {next : FileTree Name Contents}
    (h : tree.deleteFile path = .ok next) : next = tree.without path := by
  unfold deleteFile at h
  split at h
  · exact (Except.ok.inj h).symm
  · split_ifs at h

theorem openDir_cases (path : List Name) :
    tree.openDir path = .ok () ∧ path ∈ tree.directories ∨
      path ∉ tree.directories ∧ ∃ error, tree.openDir path = .error error ∧
        (error = .fileNotFound ↔ ∀ above ∈ path.inits, tree.file? above = none) := by
  unfold openDir
  split_ifs with hdirectory
  · exact .inl ⟨rfl, hdirectory⟩
  · exact .inr ⟨hdirectory, tree.absent path, rfl, tree.absent_eq_fileNotFound_iff path⟩

theorem createDirPath_eq_ok {path : List Name} {next : FileTree Name Contents}
    (h : tree.createDirPath path = .ok next) :
    next.files = tree.files ∧ next.directories = tree.directories ++ path.inits := by
  unfold createDirPath at h
  split_ifs at h
  obtain rfl := Except.ok.inj h
  exact ⟨rfl, rfl⟩

theorem writeFile_eq_ok {path : List Name} {contents : Contents} {next : FileTree Name Contents}
    (h : tree.writeFile path contents = .ok next) :
    next.directories = tree.directories ∧
      ∀ other, next.file? other = if other = path then some contents else tree.file? other := by
  unfold writeFile at h
  split_ifs at h with hpath hdirectory
  obtain rfl := Except.ok.inj h
  exact ⟨rfl, fun other ↦ tree.file?_withFile path other contents hdirectory hpath⟩

theorem file?_congr {first second : FileTree Name Contents} (h : first.files = second.files)
    (path : List Name) : first.file? path = second.file? path := by
  unfold file?
  rw [h]

end FileTree

end Gzscript.Library.Files
