import Gzscript.Bindings.ManagedPaths

/-!
# What a synchronisation does to a tree

Writing changes the files of the list, those that the last manifest names and the list has no more,
and stale source files (`Touches`); what is not owned is left as it is. A check changes nothing, and
after a list has been written the check of it succeeds (`syncTree_contract`).

Two directories are opened on the way, so a file in the place of one fails a check that would
otherwise succeed, also if the list itself has put it there (`syncTree_literal`).
-/

set_option autoImplicit false
set_option relaxedAutoImplicit false

namespace Gzscript.Bindings.SyncContract

open Library.Files TreeSync ManagedPaths

/-! ### What is changed -/

/-- Only files at allowed paths are different, and directories are only made. -/
structure Touches (allowed made : Path → Prop) (before after : Tree) : Prop where
  file : ∀ path, after.file? path ≠ before.file? path → allowed path
  kept : before.directories ⊆ after.directories
  made : ∀ path ∈ after.directories, path ∈ before.directories ∨ made path

namespace Touches

variable {allowed made : Path → Prop}

theorem refl (tree : Tree) : Touches allowed made tree tree :=
  ⟨fun _ h ↦ absurd rfl h, List.Subset.refl _, fun _ h ↦ .inl h⟩

theorem trans {first second third : Tree} (h : Touches allowed made first second)
    (h' : Touches allowed made second third) : Touches allowed made first third where
  file path hne := by
    by_cases hsame : third.file? path = second.file? path
    · exact h.file path fun hold ↦ hne (hsame.trans hold)
    · exact h'.file path hsame
  kept _ hmem := h'.kept (h.kept hmem)
  made path hmem := by
    obtain hold | hnew := h'.made path hmem
    · exact h.made path hold
    · exact .inr hnew

theorem andThen {before : Tree} {outcome : Outcome} {next : Tree → Outcome}
    (h : Touches allowed made before outcome.tree)
    (hnext : ∀ tree, Touches allowed made tree (next tree).tree) :
    Touches allowed made before (outcome.andThen next).tree := by
  unfold Outcome.andThen
  split
  · exact h
  · exact h.trans (hnext outcome.tree)

theorem without {path : Path} (h : allowed path) (tree : Tree) :
    Touches allowed made tree (tree.without path) := by
  refine ⟨fun other hne ↦ ?_, List.Subset.refl _, fun _ hmem ↦ .inl hmem⟩
  rw [FileTree.file?_without] at hne
  split_ifs at hne with hsame
  · exact hsame ▸ h
  · exact absurd rfl hne

theorem deleteFiles {paths : List Path} (h : ∀ path ∈ paths, allowed path) (tree : Tree) :
    Touches allowed made tree (TreeSync.deleteFiles paths tree).tree := by
  induction paths generalizing tree with
  | nil => exact .refl tree
  | cons path paths ih =>
    rw [TreeSync.deleteFiles]
    split
    next next hnext =>
      rw [tree.deleteFile_eq_ok hnext]
      exact (without (h path List.mem_cons_self) tree).trans
        (ih (fun other hother ↦ h other (List.mem_cons_of_mem path hother)) _)
    next => exact .refl tree

theorem deleteManifested {expected lines : List Text}
    (h : ∀ line ∈ lines, validateGeneratedPath (trimLine line) = true →
      trimLine line ∉ expected → allowed (generatedClasses :: pathOf (trimLine line)))
    (tree : Tree) :
    Touches allowed made tree (TreeSync.deleteManifested expected lines tree).tree := by
  induction lines generalizing tree with
  | nil => exact .refl tree
  | cons line lines ih =>
    have hrest := ih fun other hother ↦ h other (List.mem_cons_of_mem line hother)
    rw [TreeSync.deleteManifested]
    split_ifs with hskip hinvalid
    · exact hrest tree
    · exact .refl tree
    · rw [not_or] at hskip
      split
      next next hnext =>
        rw [tree.deleteFile_eq_ok hnext]
        refine (without (h line List.mem_cons_self ?_ hskip.2) tree).trans (hrest _)
        simpa using hinvalid
      next => exact hrest tree
      next => exact .refl tree

theorem reconcileDirectory {directory : Path} {stale : Path → Bool}
    (h : ∀ tree, ∀ path ∈ staleFiles tree directory stale, allowed path) (checking : Bool)
    (tree : Tree) :
    Touches allowed made tree
      (TreeSync.reconcileDirectory checking directory stale tree).tree := by
  unfold TreeSync.reconcileDirectory
  split
  · exact .refl tree
  · exact .refl tree
  · split_ifs
    · exact .refl tree
    · exact deleteFiles (h tree) tree

theorem forEach {step : SyncFile → Tree → Outcome} {files : List SyncFile}
    (h : ∀ file ∈ files, ∀ tree, Touches allowed made tree (step file tree).tree) (tree : Tree) :
    Touches allowed made tree (TreeSync.forEach step files tree).tree := by
  induction files generalizing tree with
  | nil => exact .refl tree
  | cons file files ih =>
    refine (h file List.mem_cons_self tree).andThen fun next ↦ ?_
    exact ih (fun other hother ↦ h other (List.mem_cons_of_mem file hother)) next

theorem writeListed {file : SyncFile} (h : allowed (pathOf file.path))
    (hmade : ∀ path, path <+: (pathOf file.path).dropLast → made path) (tree : Tree) :
    Touches allowed made tree (TreeSync.writeListed file tree).tree := by
  unfold TreeSync.writeListed
  split
  next => exact .refl tree
  next next hnext =>
    obtain ⟨hfiles, hdirectories⟩ := tree.createDirPath_eq_ok hnext
    have hmadeTree : Touches allowed made tree next := by
      refine ⟨fun path hne ↦ absurd (FileTree.file?_congr hfiles path) hne, ?_, fun path hmem ↦ ?_⟩
      · rw [hdirectories]
        exact List.subset_append_left _ _
      · rw [hdirectories] at hmem
        obtain hold | hnew := List.mem_append.mp hmem
        · exact .inl hold
        · exact .inr (hmade path ((List.mem_inits _ _).mp hnew))
    split
    next => exact hmadeTree
    next last hlast =>
      obtain ⟨hsame, hfile⟩ := next.writeFile_eq_ok hlast
      refine hmadeTree.trans ⟨fun path hne ↦ ?_, ?_, fun path hmem ↦ ?_⟩
      · rw [hfile] at hne
        split_ifs at hne with hpath
        · exact hpath ▸ h
        · exact absurd rfl hne
      · rw [hsame]
        exact List.Subset.refl _
      · rw [hsame] at hmem
        exact .inl hmem

end Touches

/-- A path that the last manifest names, and that is not expected any more. -/
def NamedByManifest (tree : Tree) (files : List SyncFile) (path : Path) : Prop :=
  ∃ manifest, tree.file? [generatedClasses, manifestName] = some manifest ∧
    ∃ line ∈ manifest.splitOn '\n', validateGeneratedPath (trimLine line) = true ∧
      trimLine line ∉ expectedPaths files ∧ path = generatedClasses :: pathOf (trimLine line)

/-- A source file in the managed places that the list does not have. -/
def Unexpected (files : List SyncFile) (path : Path) : Prop :=
  UnexpectedFile files path ∨ UnexpectedComponent files classesName path ∨
    UnexpectedComponent files cyclesName path

/-- The files that a synchronisation may change. -/
def Managed (tree : Tree) (files : List SyncFile) (path : Path) : Prop :=
  Listed files path ∨ NamedByManifest tree files path ∨ Unexpected files path

/-- The directories that it may make. -/
def OnTheWay (files : List SyncFile) (path : Path) : Prop :=
  ∃ file ∈ files, path <+: (pathOf file.path).dropLast

theorem isComponentDirectory_classes : IsComponentDirectory classesName := .inl rfl

theorem isComponentDirectory_cycles : IsComponentDirectory cyclesName := .inr rfl

theorem deleteFromManifest_touches (files : List SyncFile) (made : Path → Prop) (tree : Tree) :
    Touches (Managed tree files) made tree
      (deleteFromManifest (expectedPaths files) tree).tree := by
  unfold deleteFromManifest
  split
  next => exact .refl tree
  next => exact .refl tree
  next manifest hread =>
    refine Touches.deleteManifested (fun line hline hvalid hexpected ↦ ?_) tree
    exact .inr (.inl ⟨manifest, tree.readFile_eq_ok_iff.mp hread, line, hline, hvalid, hexpected,
      rfl⟩)

theorem reconcileManagedFiles_touches {files : List SyncFile}
    (hvalid : ∀ file ∈ files, validateGeneratedPath file.path = true)
    {allowed made : Path → Prop} (hallowed : ∀ path, Unexpected files path → allowed path)
    (checking : Bool) (tree : Tree) :
    Touches allowed made tree
      (reconcileManagedFiles (expectedPaths files) checking tree).tree := by
  unfold reconcileManagedFiles
  split
  · exact .refl tree
  · exact .refl tree
  · refine ((Touches.reconcileDirectory (fun other path hpath ↦ ?_) checking tree).andThen
      (Touches.reconcileDirectory (fun other path hpath ↦ ?_) checking)).andThen
      (Touches.reconcileDirectory (fun other path hpath ↦ ?_) checking)
    · exact hallowed path (.inl ((mem_staleRootFiles_iff hvalid).mp hpath).2)
    · exact hallowed path
        (.inr (.inl ((mem_staleComponents_iff isComponentDirectory_classes).mp hpath).2))
    · exact hallowed path
        (.inr (.inr ((mem_staleComponents_iff isComponentDirectory_cycles).mp hpath).2))

/-- Writing changes managed files only, also if it fails. -/
theorem syncTree_touches {files : List SyncFile}
    (hvalid : ∀ file ∈ files, validateGeneratedPath file.path = true) (tree : Tree) :
    Touches (Managed tree files) (OnTheWay files) tree (syncTree tree files false).tree := by
  unfold syncTree
  split_ifs with hinvalid hchecking
  · exact .refl tree
  · exact hchecking.elim
  · split
    next => exact .refl tree
    next =>
      refine ((deleteFromManifest_touches files _ tree).andThen
        (reconcileManagedFiles_touches hvalid (fun path h ↦ .inr (.inr h)) false)).andThen
        (Touches.forEach fun file hfile next ↦ ?_)
      exact Touches.writeListed (.inl ⟨file, hfile, rfl⟩) (fun path h ↦ ⟨file, hfile, h⟩) next

/-! ### Checks -/

theorem Outcome.andThen_error_eq_none {outcome : Outcome} {next : Tree → Outcome} :
    (outcome.andThen next).error = none ↔
      outcome.error = none ∧ (next outcome.tree).error = none := by
  unfold Outcome.andThen
  split
  next error herror =>
    rw [herror]
    exact iff_of_false (Option.some_ne_none error) fun h ↦ Option.some_ne_none error h.1
  next herror => exact (and_iff_right herror).symm

theorem Outcome.andThen_of_none {outcome : Outcome} {next : Tree → Outcome}
    (h : outcome.error = none) : outcome.andThen next = next outcome.tree := by
  unfold Outcome.andThen
  rw [h]

theorem Outcome.andThen_tree {outcome : Outcome} {next : Tree → Outcome} {tree : Tree}
    (h : outcome.tree = tree) (hnext : (next tree).tree = tree) :
    (outcome.andThen next).tree = tree := by
  unfold Outcome.andThen
  split
  · exact h
  · rw [h, hnext]

/-- No file of a tree is at such a path. -/
def NoFile (tree : Tree) (unexpected : Path → Prop) : Prop :=
  ∀ path, (tree.file? path).isSome = true → ¬ unexpected path

/-- No file stands where a directory is expected. -/
def Free (tree : Tree) (directory : Path) : Prop :=
  ∀ above ∈ directory.inits, tree.file? above = none

theorem free_of_directory {tree : Tree} {directory : Path} (h : directory ∈ tree.directories) :
    Free tree directory := by
  intro above habove
  have hdirectory := tree.directory_of_prefix h ((List.mem_inits _ _).mp habove)
  by_contra hsome
  obtain ⟨contents, hcontents⟩ := Option.ne_none_iff_exists'.mp hsome
  exact tree.not_directory_of_file hcontents hdirectory

/-- A file below a path makes it a directory. -/
theorem directory_of_below {tree : Tree} {directory rest : Path} (hne : rest ≠ [])
    (h : (tree.file? (directory ++ rest)).isSome = true) : directory ∈ tree.directories := by
  obtain ⟨contents, hcontents⟩ := Option.isSome_iff_exists.mp h
  refine tree.directory_of_prefix (tree.directory_of_file hcontents) ?_
  rw [List.dropLast_append_of_ne_nil hne]
  exact List.prefix_append _ _

theorem staleFiles_eq_nil_iff {tree : Tree} {directory : Path} {stale : Path → Bool}
    {unexpected : Path → Prop}
    (hstale : ∀ path, path ∈ staleFiles tree directory stale ↔
      (tree.file? path).isSome = true ∧ unexpected path) :
    staleFiles tree directory stale = [] ↔ NoFile tree unexpected := by
  rw [List.eq_nil_iff_forall_not_mem]
  refine forall_congr' fun path ↦ ?_
  rw [hstale, not_and]

/-- Where there is no directory, no file is found. -/
theorem noFile_of_not_directory {tree : Tree} {directory : Path} {stale : Path → Bool}
    {unexpected : Path → Prop}
    (hstale : ∀ path, path ∈ staleFiles tree directory stale ↔
      (tree.file? path).isSome = true ∧ unexpected path)
    (h : directory ∉ tree.directories) : NoFile tree unexpected := by
  refine (staleFiles_eq_nil_iff hstale).mp (List.eq_nil_iff_forall_not_mem.mpr ?_)
  intro path hpath
  obtain ⟨hsome, rest, rfl, hne, -⟩ := mem_staleFiles_iff.mp hpath
  exact h (directory_of_below hne hsome)

theorem reconcileDirectory_of_open {tree : Tree} {directory : Path}
    (h : tree.openDir directory = .ok ()) (checking : Bool) (stale : Path → Bool) :
    reconcileDirectory checking directory stale tree =
      if checking && staleFiles tree directory stale ≠ [] then ⟨some .staleBindings, tree⟩
      else deleteFiles (staleFiles tree directory stale) tree := by
  unfold reconcileDirectory
  rw [h]

/-- A check of a directory changes nothing, and succeeds if no file is stale or in the way. -/
theorem reconcileDirectory_checking {tree : Tree} {directory : Path} {stale : Path → Bool}
    {unexpected : Path → Prop}
    (hstale : ∀ path, path ∈ staleFiles tree directory stale ↔
      (tree.file? path).isSome = true ∧ unexpected path) :
    (reconcileDirectory true directory stale tree).tree = tree ∧
      ((reconcileDirectory true directory stale tree).error = none ↔
        NoFile tree unexpected ∧ Free tree directory) := by
  have hnil := staleFiles_eq_nil_iff hstale
  obtain ⟨hopen, hdirectory⟩ | ⟨hdirectory, error, hopen, hfree⟩ := tree.openDir_cases directory
  · rw [reconcileDirectory_of_open hopen]
    by_cases hempty : staleFiles tree directory stale = []
    · rw [if_neg (by simp [hempty]), hempty]
      exact ⟨rfl, iff_of_true rfl ⟨hnil.mp hempty, free_of_directory hdirectory⟩⟩
    · rw [if_pos (by simp [hempty])]
      exact ⟨rfl, iff_of_false (Option.some_ne_none _) fun h ↦ hempty (hnil.mpr h.1)⟩
  · have hnone := noFile_of_not_directory hstale hdirectory
    unfold reconcileDirectory
    rw [hopen]
    cases error with
    | fileNotFound => exact ⟨rfl, iff_of_true rfl ⟨hnone, hfree.mp rfl⟩⟩
    | notDir => exact ⟨rfl, iff_of_false (Option.some_ne_none _) fun h ↦ by cases hfree.mpr h.2⟩
    | isDir => exact ⟨rfl, iff_of_false (Option.some_ne_none _) fun h ↦ by cases hfree.mpr h.2⟩

theorem free_component_iff {tree : Tree} (h : [generatedClasses] ∈ tree.directories)
    (name : FileName) :
    Free tree [generatedClasses, name] ↔ tree.file? [generatedClasses, name] = none := by
  constructor
  · exact fun hfree ↦ hfree _ ((List.mem_inits _ _).mpr (List.prefix_refl _))
  · intro hnone above habove
    have hprefix : above <+: [generatedClasses] ++ [name] := (List.mem_inits _ _).mp habove
    obtain rfl | hrest := List.prefix_concat_iff.mp hprefix
    · exact hnone
    · exact free_of_directory h above ((List.mem_inits _ _).mpr hrest)

/-- No file is unexpected if none is in any of the three places. -/
theorem noFile_unexpected_iff {tree : Tree} {files : List SyncFile} :
    NoFile tree (Unexpected files) ↔
      NoFile tree (UnexpectedFile files) ∧ NoFile tree (UnexpectedComponent files classesName) ∧
        NoFile tree (UnexpectedComponent files cyclesName) := by
  constructor
  · intro h
    refine ⟨fun path hsome hcase ↦ ?_, fun path hsome hcase ↦ ?_, fun path hsome hcase ↦ ?_⟩
    · exact h path hsome (.inl hcase)
    · exact h path hsome (.inr (.inl hcase))
    · exact h path hsome (.inr (.inr hcase))
  · rintro ⟨hfile, hclasses, hcycles⟩ path hsome (hcase | hcase | hcase)
    · exact hfile path hsome hcase
    · exact hclasses path hsome hcase
    · exact hcycles path hsome hcase

/-- What a check finds in the directory of the generated files. -/
structure Tidy (tree : Tree) (files : List SyncFile) : Prop where
  noFile : NoFile tree (Unexpected files)
  classes : tree.file? [generatedClasses, classesName] = none
  cycles : tree.file? [generatedClasses, cyclesName] = none

theorem reconcileManagedFiles_of_open {tree : Tree} (h : [generatedClasses] ∈ tree.directories)
    (expected : List Text) (checking : Bool) :
    reconcileManagedFiles expected checking tree =
      ((reconcileDirectory checking [generatedClasses] (isStaleRootFile expected) tree).andThen
        (reconcileDirectory checking [generatedClasses, classesName]
          (isStaleComponent expected classesName))).andThen
        (reconcileDirectory checking [generatedClasses, cyclesName]
          (isStaleComponent expected cyclesName)) := by
  have hopen : tree.openDir [generatedClasses] = .ok () := if_pos h
  unfold reconcileManagedFiles
  rw [hopen]

theorem reconcileManagedFiles_checking {files : List SyncFile}
    (hvalid : ∀ file ∈ files, validateGeneratedPath file.path = true) {tree : Tree}
    (h : [generatedClasses] ∈ tree.directories) :
    (reconcileManagedFiles (expectedPaths files) true tree).error = none ↔ Tidy tree files := by
  obtain ⟨hrootTree, hroot⟩ :=
    reconcileDirectory_checking fun path ↦ @mem_staleRootFiles_iff files hvalid tree path
  obtain ⟨hclassesTree, hclasses⟩ := reconcileDirectory_checking fun path ↦
    @mem_staleComponents_iff files classesName isComponentDirectory_classes tree path
  obtain ⟨-, hcycles⟩ := reconcileDirectory_checking fun path ↦
    @mem_staleComponents_iff files cyclesName isComponentDirectory_cycles tree path
  rw [reconcileManagedFiles_of_open h, Outcome.andThen_error_eq_none,
    Outcome.andThen_error_eq_none, hrootTree, Outcome.andThen_tree hrootTree hclassesTree, hroot,
    hclasses, hcycles, free_component_iff h, free_component_iff h]
  constructor
  · rintro ⟨⟨⟨hfile, -⟩, hclassFile, hclassesFree⟩, hcycleFile, hcyclesFree⟩
    have hnone := noFile_unexpected_iff.mpr ⟨hfile, hclassFile, hcycleFile⟩
    exact ⟨hnone, hclassesFree, hcyclesFree⟩
  · intro htidy
    obtain ⟨hfile, hclassFile, hcycleFile⟩ := noFile_unexpected_iff.mp htidy.noFile
    exact ⟨⟨⟨hfile, free_of_directory h⟩, hclassFile, htidy.classes⟩, hcycleFile, htidy.cycles⟩

/-- Every file of a list has its contents. -/
def Written (tree : Tree) (files : List SyncFile) : Prop :=
  ∀ file ∈ files, tree.file? (pathOf file.path) = some file.contents

theorem checkListed_spec (file : SyncFile) (tree : Tree) :
    (checkListed file tree).tree = tree ∧
      ((checkListed file tree).error = none ↔
        tree.file? (pathOf file.path) = some file.contents) := by
  unfold checkListed
  split
  next error hread =>
    refine ⟨rfl, iff_of_false (Option.some_ne_none _) fun hfile ↦ ?_⟩
    rw [tree.readFile_eq_ok_iff.mpr hfile] at hread
    cases hread
  next existing hread =>
    have hexisting := tree.readFile_eq_ok_iff.mp hread
    by_cases hsame : existing = file.contents
    · rw [if_pos hsame]
      exact ⟨rfl, iff_of_true rfl (hsame ▸ hexisting)⟩
    · rw [if_neg hsame]
      refine ⟨rfl, iff_of_false (Option.some_ne_none _) fun hfile ↦ hsame ?_⟩
      exact Option.some.inj (hexisting.symm.trans hfile)

theorem forEach_checkListed (files : List SyncFile) (tree : Tree) :
    (forEach checkListed files tree).tree = tree ∧
      ((forEach checkListed files tree).error = none ↔ Written tree files) := by
  induction files with
  | nil => exact ⟨rfl, iff_of_true rfl fun _ hmem ↦ absurd hmem List.not_mem_nil⟩
  | cons file files ih =>
    obtain ⟨htree, herror⟩ := checkListed_spec file tree
    rw [forEach]
    refine ⟨Outcome.andThen_tree htree ih.1, ?_⟩
    rw [Outcome.andThen_error_eq_none, htree, herror, ih.2]
    simp only [Written, List.forall_mem_cons]

theorem reconcileManagedFiles_checking_tree (expected : List Text) (tree : Tree) :
    (reconcileManagedFiles expected true tree).tree = tree := by
  have hdirectory : ∀ directory stale, (reconcileDirectory true directory stale tree).tree = tree :=
    fun directory stale ↦ (reconcileDirectory_checking fun path ↦ mem_staleFiles_iff).1
  unfold reconcileManagedFiles
  split
  · rfl
  · rfl
  · exact Outcome.andThen_tree
      (Outcome.andThen_tree (hdirectory _ _) (hdirectory _ _)) (hdirectory _ _)

/-- A check changes nothing. -/
theorem syncTree_checking_tree (tree : Tree) (files : List SyncFile) :
    (syncTree tree files true).tree = tree := by
  unfold syncTree
  split_ifs with hinvalid hchecking
  · rfl
  · exact Outcome.andThen_tree (reconcileManagedFiles_checking_tree _ tree)
      (forEach_checkListed files tree).1
  · exact absurd rfl hchecking

theorem none_invalid {files : List SyncFile}
    (hvalid : ∀ file ∈ files, validateGeneratedPath file.path = true) :
    ¬ (files.any fun file ↦ !validateGeneratedPath file.path) = true := by
  intro hany
  obtain ⟨file, hfile, hinvalid⟩ := List.any_eq_true.mp hany
  rw [hvalid file hfile] at hinvalid
  exact Bool.false_ne_true hinvalid

/-- With the sentinel, the directory of the generated files is there. -/
theorem directory_of_sentinel {tree : Tree} {contents : Text}
    (h : tree.file? [generatedClasses, sentinelName] = some contents) :
    [generatedClasses] ∈ tree.directories :=
  tree.directory_of_file h

theorem written_sentinel {tree : Tree} {files : List SyncFile} (h : Acceptable files)
    (hwritten : Written tree files) :
    tree.file? [generatedClasses, sentinelName] = some sentinelContents :=
  hwritten _ h.sentinel

/-- A check succeeds exactly if the files of the list have their contents, and nothing else is
found. -/
theorem syncTree_checking_iff {files : List SyncFile} (h : Acceptable files) (tree : Tree) :
    (syncTree tree files true).error = none ↔ Written tree files ∧ Tidy tree files := by
  unfold syncTree
  rw [if_neg (none_invalid h.valid), if_pos rfl, Outcome.andThen_error_eq_none,
    reconcileManagedFiles_checking_tree, and_comm, (forEach_checkListed files tree).2]
  refine and_congr_right fun hwritten ↦ ?_
  exact reconcileManagedFiles_checking h.valid (directory_of_sentinel (written_sentinel h hwritten))

/-! ### Writing -/

/-- A tree has no other files than another one. -/
def Fewer (before after : Tree) : Prop :=
  ∀ path, (after.file? path).isSome = true → (before.file? path).isSome = true

theorem Fewer.noFile {before after : Tree} {unexpected : Path → Prop} (h : Fewer before after)
    (hnone : NoFile before unexpected) : NoFile after unexpected :=
  fun path hsome ↦ hnone path (h path hsome)

theorem Fewer.trans {first second third : Tree} (h : Fewer first second)
    (h' : Fewer second third) : Fewer first third := fun path hsome ↦ h path (h' path hsome)

theorem Fewer.none {before after : Tree} {path : Path} (h : Fewer before after)
    (hnone : before.file? path = none) : after.file? path = none := by
  by_contra hsome
  have hbefore := h path (Option.isSome_iff_ne_none.mpr hsome)
  rw [hnone] at hbefore
  exact Bool.false_ne_true hbefore

/-- What is unexpected is in the directory of the generated files. -/
theorem unexpected_below {files : List SyncFile} {path : Path} (h : Unexpected files path) :
    ∃ rest, rest ≠ [] ∧ path = generatedClasses :: rest := by
  obtain ⟨name, rfl, -⟩ | ⟨rest, rfl, -⟩ | ⟨rest, rfl, -⟩ := h
  · exact ⟨[name], List.cons_ne_nil _ _, rfl⟩
  · exact ⟨classesName :: rest, List.cons_ne_nil _ _, rfl⟩
  · exact ⟨cyclesName :: rest, List.cons_ne_nil _ _, rfl⟩

theorem deleteFiles_spec {paths : List Path} {tree : Tree}
    (h : (deleteFiles paths tree).error = none) (path : Path) :
    (deleteFiles paths tree).tree.file? path = if path ∈ paths then none else tree.file? path := by
  induction paths generalizing tree with
  | nil => rfl
  | cons first paths ih =>
    unfold deleteFiles at h ⊢
    split at h
    next next hnext =>
      rw [ih h, tree.deleteFile_eq_ok hnext, FileTree.file?_without]
      by_cases hfirst : path = first
      · rw [if_pos hfirst, ite_self, if_pos (List.mem_cons.mpr (.inl hfirst))]
      · rw [if_neg hfirst]
        exact if_congr ((or_iff_right hfirst).symm.trans List.mem_cons.symm) rfl rfl
    next => exact absurd h (Option.some_ne_none _)

/-- After a directory has been reconciled no file in it is stale, and none was in the way. -/
theorem reconcileDirectory_writing {tree : Tree} {directory : Path} {stale : Path → Bool}
    {unexpected : Path → Prop}
    (hstale : ∀ path, path ∈ staleFiles tree directory stale ↔
      (tree.file? path).isSome = true ∧ unexpected path)
    (h : (reconcileDirectory false directory stale tree).error = none) :
    Fewer tree (reconcileDirectory false directory stale tree).tree ∧
      NoFile (reconcileDirectory false directory stale tree).tree unexpected ∧
      Free tree directory := by
  obtain ⟨hopen, hdirectory⟩ | ⟨hdirectory, error, hopen, hfree⟩ := tree.openDir_cases directory
  · rw [reconcileDirectory_of_open hopen, Bool.false_and, if_neg Bool.false_ne_true] at h ⊢
    have hfiles := deleteFiles_spec h
    refine ⟨fun path hsome ↦ ?_, fun path hsome hunexpected ↦ ?_, free_of_directory hdirectory⟩
    · rw [hfiles] at hsome
      split_ifs at hsome
      · exact absurd hsome Bool.false_ne_true
      · exact hsome
    · rw [hfiles] at hsome
      split_ifs at hsome with hdeleted
      · exact Bool.false_ne_true hsome
      · exact hdeleted ((hstale path).mpr ⟨hsome, hunexpected⟩)
  · have hnone := noFile_of_not_directory hstale hdirectory
    unfold reconcileDirectory at h ⊢
    rw [hopen] at h ⊢
    cases error with
    | fileNotFound => exact ⟨fun _ hsome ↦ hsome, hnone, hfree.mp rfl⟩
    | notDir => exact absurd h (Option.some_ne_none _)
    | isDir => exact absurd h (Option.some_ne_none _)

/-- Where the directory of the generated files is missing, nothing is reconciled. -/
theorem reconcileManagedFiles_of_not_directory {tree : Tree}
    (h : [generatedClasses] ∉ tree.directories) (expected : List Text) (checking : Bool) :
    (reconcileManagedFiles expected checking tree).tree = tree := by
  unfold reconcileManagedFiles
  obtain ⟨-, hopen⟩ | ⟨-, error, hopen, -⟩ := tree.openDir_cases [generatedClasses]
  · exact absurd hopen h
  · rw [hopen]
    cases error with
    | fileNotFound => rfl
    | notDir => rfl
    | isDir => rfl

/-- After the files that are managed have been reconciled, a check finds nothing else. -/
theorem reconcileManagedFiles_writing {files : List SyncFile}
    (hvalid : ∀ file ∈ files, validateGeneratedPath file.path = true) {tree : Tree}
    (h : (reconcileManagedFiles (expectedPaths files) false tree).error = none) :
    Tidy (reconcileManagedFiles (expectedPaths files) false tree).tree files := by
  by_cases hdirectory : [generatedClasses] ∈ tree.directories
  · rw [reconcileManagedFiles_of_open hdirectory] at h ⊢
    obtain ⟨hfirst, hcycles⟩ := Outcome.andThen_error_eq_none.mp h
    obtain ⟨hroot, hclasses⟩ := Outcome.andThen_error_eq_none.mp hfirst
    rw [Outcome.andThen_of_none hfirst]
    rw [Outcome.andThen_of_none hroot] at hcycles ⊢
    obtain ⟨-, hrootNone, -⟩ := reconcileDirectory_writing
      (fun path ↦ @mem_staleRootFiles_iff files hvalid tree path) hroot
    obtain ⟨hfewer, hclassesNone, hclassesFree⟩ := reconcileDirectory_writing
      (fun path ↦ @mem_staleComponents_iff files classesName isComponentDirectory_classes _ path)
      hclasses
    obtain ⟨hlast, hcyclesNone, hcyclesFree⟩ := reconcileDirectory_writing
      (fun path ↦ @mem_staleComponents_iff files cyclesName isComponentDirectory_cycles _ path)
      hcycles
    refine ⟨noFile_unexpected_iff.mpr ⟨?_, ?_, hcyclesNone⟩, ?_, ?_⟩
    · exact hlast.noFile (hfewer.noFile hrootNone)
    · exact hlast.noFile hclassesNone
    · refine (hfewer.trans hlast).none ?_
      exact hclassesFree _ ((List.mem_inits _ _).mpr (List.prefix_refl _))
    · refine hlast.none ?_
      exact hcyclesFree _ ((List.mem_inits _ _).mpr (List.prefix_refl _))
  · have hbelow : ∀ rest, rest ≠ [] → tree.file? (generatedClasses :: rest) = none := by
      intro rest hne
      by_contra hsome
      have hfile : (tree.file? ([generatedClasses] ++ rest)).isSome = true :=
        Option.isSome_iff_ne_none.mpr hsome
      exact hdirectory (directory_of_below hne hfile)
    rw [reconcileManagedFiles_of_not_directory hdirectory]
    refine ⟨fun path hsome hunexpected ↦ ?_, hbelow _ (List.cons_ne_nil _ _),
      hbelow _ (List.cons_ne_nil _ _)⟩
    obtain ⟨rest, hne, rfl⟩ := unexpected_below hunexpected
    rw [hbelow rest hne] at hsome
    exact Bool.false_ne_true hsome

theorem writeListed_spec {file : SyncFile} {tree : Tree}
    (h : (writeListed file tree).error = none) (path : Path) :
    (writeListed file tree).tree.file? path =
      if path = pathOf file.path then some file.contents else tree.file? path := by
  unfold writeListed at h ⊢
  split at h
  next => exact absurd h (Option.some_ne_none _)
  next next hnext =>
    split at h
    next => exact absurd h (Option.some_ne_none _)
    next last hlast =>
      have hcreated := FileTree.file?_congr (tree.createDirPath_eq_ok hnext).1
      exact ((next.writeFile_eq_ok hlast).2 path).trans (by rw [hcreated])

/-- After a list with different paths has been written, all of it is there, and the other files are
as they were. -/
theorem forEach_writeListed {files : List SyncFile} {tree : Tree}
    (hdistinct : (files.map fun file ↦ pathOf file.path).Nodup)
    (h : (forEach writeListed files tree).error = none) :
    Written (forEach writeListed files tree).tree files ∧
      ∀ path, ¬ Listed files path →
        (forEach writeListed files tree).tree.file? path = tree.file? path := by
  induction files generalizing tree with
  | nil => exact ⟨fun _ hmem ↦ absurd hmem List.not_mem_nil, fun _ _ ↦ rfl⟩
  | cons file files ih =>
    rw [List.map_cons, List.nodup_cons] at hdistinct
    rw [forEach] at h ⊢
    obtain ⟨hfirst, hrest⟩ := Outcome.andThen_error_eq_none.mp h
    rw [Outcome.andThen_of_none hfirst]
    obtain ⟨hwritten, hothers⟩ := ih hdistinct.2 hrest
    refine ⟨List.forall_mem_cons.mpr ⟨?_, hwritten⟩, fun path hpath ↦ ?_⟩
    · have hunlisted : ¬ Listed files (pathOf file.path) := by
        rintro ⟨other, hother, hsame⟩
        exact hdistinct.1 (List.mem_map.mpr ⟨other, hother, hsame⟩)
      rw [hothers _ hunlisted, writeListed_spec hfirst, if_pos rfl]
    · have hunlisted : ¬ Listed files path := by
        rintro ⟨other, hother, hsame⟩
        exact hpath ⟨other, List.mem_cons_of_mem file hother, hsame⟩
      have hne : path ≠ pathOf file.path :=
        fun heq ↦ hpath ⟨file, List.mem_cons_self, heq.symm⟩
      rw [hothers path hunlisted, writeListed_spec hfirst, if_neg hne]

theorem paths_distinct {files : List SyncFile} (h : Acceptable files) :
    (files.map fun file ↦ pathOf file.path).Nodup := by
  refine List.Nodup.map_on (fun file hfile other hother hsame ↦ ?_) (List.Nodup.of_map _ h.distinct)
  refine List.inj_on_of_nodup_map h.distinct hfile hother ?_
  rw [← pathText_pathOf (h.valid file hfile), hsame, pathText_pathOf (h.valid other hother)]

theorem withSlashes_of_valid {text : Text} (h : validateGeneratedPath text = true) :
    withSlashes text = text := by
  have hbackslash : '\\' ∉ text := by
    have hvalid := (Bool.and_eq_true_iff.mp (Bool.and_eq_true_iff.mp h).1).2
    exact of_decide_eq_true hvalid
  have hid : ∀ character ∈ text, (if character = '\\' then '/' else character) = id character := by
    intro character hmem
    refine if_neg fun heq ↦ hbackslash ?_
    exact heq ▸ hmem
  rw [withSlashes, List.map_congr_left hid, List.map_id]

/-- A file of the list is not an unexpected one. -/
theorem listed_not_unexpected {files : List SyncFile}
    (hvalid : ∀ file ∈ files, validateGeneratedPath file.path = true) {path : Path}
    (hlisted : Listed files path) : ¬ Unexpected files path := by
  have htext : ∃ file ∈ files, file.path = withSlashes (pathText path) := by
    obtain ⟨file, hfile, rfl⟩ := hlisted
    refine ⟨file, hfile, ?_⟩
    rw [pathText_pathOf (hvalid file hfile), withSlashes_of_valid (hvalid file hfile)]
  rintro (⟨name, -, -, -, hunlisted⟩ | ⟨rest, -, -, -, hnone⟩ | ⟨rest, -, -, -, hnone⟩)
  · exact hunlisted hlisted
  · exact hnone htext
  · exact hnone htext

/-- After a list has been written, the check of it succeeds. -/
theorem check_after_write {files : List SyncFile} (h : Acceptable files)
    (hclasses : ¬ Listed files [generatedClasses, classesName])
    (hcycles : ¬ Listed files [generatedClasses, cyclesName]) {tree : Tree}
    (hok : (syncTree tree files false).error = none) :
    (syncTree (syncTree tree files false).tree files true).error = none := by
  rw [syncTree_checking_iff h]
  unfold syncTree at hok ⊢
  rw [if_neg (none_invalid h.valid), if_neg Bool.false_ne_true] at hok ⊢
  split at hok
  next => exact absurd hok (Option.some_ne_none _)
  next howned =>
    obtain ⟨hreconciled, hwriting⟩ := Outcome.andThen_error_eq_none.mp hok
    obtain ⟨hdeleted, hmanaged⟩ := Outcome.andThen_error_eq_none.mp hreconciled
    rw [Outcome.andThen_of_none hreconciled]
    rw [Outcome.andThen_of_none hdeleted] at hwriting ⊢
    have htidy := reconcileManagedFiles_writing h.valid hmanaged
    obtain ⟨hwritten, hothers⟩ := forEach_writeListed (paths_distinct h) hwriting
    refine ⟨hwritten, fun path hsome hunexpected ↦ ?_, ?_, ?_⟩
    · by_cases hlisted : Listed files path
      · exact listed_not_unexpected h.valid hlisted hunexpected
      · rw [hothers path hlisted] at hsome
        exact htidy.noFile path hsome hunexpected
    · rw [hothers _ hclasses, htidy.classes]
    · rw [hothers _ hcycles, htidy.cycles]

/-- In a directory of generated files without the sentinel, writing fails and changes nothing. -/
theorem syncTree_unowned {tree : Tree} (files : List SyncFile)
    (hthere : (tree.file? [generatedClasses]).isSome = true ∨
      [generatedClasses] ∈ tree.directories)
    (hsentinel : tree.file? [generatedClasses, sentinelName] ≠ some sentinelContents) :
    (syncTree tree files false).error ≠ none ∧ (syncTree tree files false).tree = tree := by
  have howned : ∃ error, checkOwned tree = .error error := by
    have hstat : tree.stat [generatedClasses] = .ok () := if_pos hthere
    unfold checkOwned
    rw [hstat]
    cases hread : tree.readFile [generatedClasses, sentinelName] with
    | error error =>
      cases error with
      | fileNotFound => exact ⟨.unownedGeneratedDirectory, rfl⟩
      | notDir => exact ⟨.file .notDir, rfl⟩
      | isDir => exact ⟨.file .isDir, rfl⟩
    | ok sentinel =>
      refine ⟨.unownedGeneratedDirectory, if_neg fun hsame ↦ hsentinel ?_⟩
      rw [tree.readFile_eq_ok_iff.mp hread, hsame]
  obtain ⟨error, herror⟩ := howned
  unfold syncTree
  split_ifs with hinvalid hchecking
  · exact ⟨Option.some_ne_none _, rfl⟩
  · exact hchecking.elim
  · rw [herror]
    exact ⟨Option.some_ne_none _, rfl⟩

/-! ### The contract -/

/-- What a synchronisation with a list does to a tree: written files pass the check, unless one of
them is in the place of a directory of components; writing changes managed files only; a check
changes nothing and succeeds exactly if all is as it should be; and a directory without the sentinel
is not written to. -/
theorem syncTree_contract {files : List SyncFile} (h : Acceptable files) (tree : Tree) :
    (¬ Listed files [generatedClasses, classesName] →
      ¬ Listed files [generatedClasses, cyclesName] →
      (syncTree tree files false).error = none →
        (syncTree (syncTree tree files false).tree files true).error = none) ∧
    Touches (Managed tree files) (OnTheWay files) tree (syncTree tree files false).tree ∧
    ((syncTree tree files true).tree = tree ∧
      ((syncTree tree files true).error = none ↔ Written tree files ∧ Tidy tree files)) ∧
    ((tree.file? [generatedClasses]).isSome = true ∨ [generatedClasses] ∈ tree.directories →
      tree.file? [generatedClasses, sentinelName] ≠ some sentinelContents →
        (syncTree tree files false).error ≠ none ∧ (syncTree tree files false).tree = tree) :=
  ⟨fun hclasses hcycles hok ↦ check_after_write h hclasses hcycles hok,
    syncTree_touches h.valid tree,
    ⟨syncTree_checking_tree tree files, syncTree_checking_iff h tree⟩,
    fun hthere hsentinel ↦ syncTree_unowned files hthere hsentinel⟩

/-! ### Files in the place of directories, and backslashes -/

def emptyTree : Tree where
  files := []
  directories := [[]]
  root := List.mem_singleton_self []
  nested := by decide
  filesNested := by decide
  separate := by decide
  distinct := by decide

/-- A tree with the sentinel and one more file in the directory of the generated files. -/
def ownedTree (name : FileName) (hname : name ≠ sentinelName) : Tree where
  files := [([generatedClasses, sentinelName], sentinelContents), ([generatedClasses, name], [])]
  directories := [[], [generatedClasses]]
  root := List.mem_cons_self
  nested := by decide
  filesNested := by
    refine List.forall_mem_cons.mpr ⟨by decide, List.forall_mem_singleton.mpr ?_⟩
    exact List.mem_cons_of_mem _ (List.mem_singleton_self _)
  separate := by
    refine List.forall_mem_cons.mpr ⟨by decide, List.forall_mem_singleton.mpr ?_⟩
    simp
  distinct := by
    simpa using Ne.symm hname

def sentinelFile : SyncFile :=
  ⟨"generated_classes/.generated-bindings".toList, sentinelContents⟩

def classesFile : SyncFile := ⟨"generated_classes/classes".toList, []⟩

def backslashName : FileName := ⟨"old\\node.zig".toList, by decide, by decide⟩

/-- A list whose last version had `classes/a.zig` where this one has `classes/b.zig`. -/
def changedFiles : List SyncFile :=
  [sentinelFile, ⟨"generated_classes/classes/b.zig".toList, "b\n".toList⟩,
    ⟨"generated_classes/cycles/0.zig".toList, "0\n".toList⟩,
    ⟨"generated_classes/manifest.txt".toList, "classes/b.zig\ncycles/0.zig\n".toList⟩]

def deepName : FileName := ⟨"deep".toList, by decide, by decide⟩

def ownName : FileName := ⟨"keep.txt".toList, by decide, by decide⟩

/-- The source file with a number for its name. -/
def numbered (digit : Char) (h : digit ≠ '/') : FileName :=
  ⟨[digit, '.', 'z', 'i', 'g'], by simp, by simpa using h.symm⟩

/-- What the last version has written, and a source file at the top and one below `cycles` that no
manifest names, and a file of someone else. -/
def staleFiles : List (Path × Text) :=
  [([generatedClasses, sentinelName], sentinelContents),
    ([generatedClasses, classesName, numbered 'a' (by decide)], "a\n".toList),
    ([generatedClasses, cyclesName, numbered '0' (by decide)], "old\n".toList),
    ([generatedClasses, manifestName], "classes/a.zig\r\ncycles/0.zig\n".toList),
    ([generatedClasses, numbered 'c' (by decide)], []),
    ([generatedClasses, cyclesName, deepName, numbered '1' (by decide)], []),
    ([generatedClasses, ownName], "keep\n".toList)]

def staleDirectories : List Path :=
  [[], [generatedClasses], [generatedClasses, classesName], [generatedClasses, cyclesName],
    [generatedClasses, cyclesName, deepName]]

def staleTree : Tree where
  files := staleFiles
  directories := staleDirectories
  root := List.mem_cons_self
  nested := by decide +kernel
  filesNested := by decide +kernel
  separate := by decide +kernel
  distinct := by decide +kernel

theorem acceptable_changedFiles : Acceptable changedFiles :=
  ⟨by decide +kernel, by decide +kernel, by decide +kernel, by decide +kernel⟩

/-- The tree after the list is written. -/
def writtenTree : Tree := (syncTree staleTree changedFiles false).tree

theorem unlisted_directory (directory : FileName)
    (h : directory = classesName ∨ directory = cyclesName) :
    ¬ Listed changedFiles [generatedClasses, directory] := by
  rcases h with rfl | rfl
  all_goals
    unfold Listed
    decide +kernel

/-- The check fails before the list is written and succeeds after it, and of the files that are not
in the list the one of someone else is left. -/
theorem syncTree_contract_sentinel :
    (syncTree writtenTree changedFiles true).error = none ∧
      Touches (Managed staleTree changedFiles) (OnTheWay changedFiles) staleTree writtenTree ∧
      writtenTree.file? [generatedClasses, ownName] = some "keep\n".toList ∧
      writtenTree.files.length = 5 ∧ (syncTree staleTree changedFiles true).error ≠ none ∧
      ¬ (Written staleTree changedFiles ∧ Tidy staleTree changedFiles) := by
  have hstale : (syncTree staleTree changedFiles true).error ≠ none := by decide +kernel
  have hwritten : (syncTree staleTree changedFiles false).error = none ∧
      writtenTree.file? [generatedClasses, ownName] = some "keep\n".toList ∧
      writtenTree.files.length = 5 := by
    decide +kernel
  obtain ⟨hok, hown, hlength⟩ := hwritten
  have hcontract := syncTree_contract acceptable_changedFiles staleTree
  exact ⟨hcontract.1 (unlisted_directory _ (.inl rfl)) (unlisted_directory _ (.inr rfl)) hok,
    hcontract.2.1, hown, hlength, hstale, fun hboth ↦ hstale (hcontract.2.2.1.2.mpr hboth)⟩

/-- A list that puts a file in the place of a directory of components is written, but does not pass
the check. A file in such a place fails a check of a tree that has the list and no source file. A
source file with a backslash in its name is not found. -/
theorem syncTree_literal :
    (Acceptable [sentinelFile, classesFile] ∧
      (syncTree emptyTree [sentinelFile, classesFile] false).error = none ∧
      (syncTree (syncTree emptyTree [sentinelFile, classesFile] false).tree
        [sentinelFile, classesFile] true).error ≠ none) ∧
    (Written (ownedTree cyclesName (by decide)) [sentinelFile] ∧
      (∀ entry ∈ (ownedTree cyclesName (by decide)).files, isSource entry.1 = false) ∧
      (syncTree (ownedTree cyclesName (by decide)) [sentinelFile] true).error ≠ none) ∧
    ((FileTree.file? (ownedTree backslashName (by decide))
        [generatedClasses, backslashName]).isSome = true ∧
      isSource [generatedClasses, backslashName] = true ∧
      ¬ Listed [sentinelFile] [generatedClasses, backslashName] ∧
      (syncTree (ownedTree backslashName (by decide)) [sentinelFile] true).error = none) := by
  refine ⟨⟨⟨by decide, by decide, by decide, by decide⟩, by decide, by decide⟩,
    ⟨List.forall_mem_singleton.mpr (by decide), by decide, by decide⟩, by decide, by decide, ?_,
    by decide⟩
  rintro ⟨file, hfile, hpath⟩
  obtain rfl := List.mem_singleton.mp hfile
  exact absurd hpath (by decide)

end Gzscript.Bindings.SyncContract
