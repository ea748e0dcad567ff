import Gzscript.Bindings.TreeSync
import Gzscript.Library.Segments

/-!
# The paths that are managed

A text that is checked has the same path as no other such text (`pathText_pathOf`). With this what
the generator looks up as texts is said of paths: a source file is stale if it is directly in the
directory of the generated files, or below one of the two directories of components, and its path is
not one of the list (`mem_staleRootFiles_iff`, `mem_staleComponents_iff`).
-/

set_option autoImplicit false
set_option relaxedAutoImplicit false

namespace Gzscript.Bindings.ManagedPaths

open Library.Files Library.Segments TreeSync

/-! ### Texts and paths -/

theorem names_of_parts {parts : List Text} (h : ∀ part ∈ parts, part ≠ [] ∧ '/' ∉ part) :
    (parts.filterMap FileName.of?).map FileName.text = parts := by
  induction parts with
  | nil => rfl
  | cons part parts ih =>
    have hpart := h part List.mem_cons_self
    have hname : FileName.of? part = some ⟨part, hpart.1, hpart.2⟩ := dif_pos hpart
    rw [List.filterMap_cons_some hname, List.map_cons,
      ih fun other hother ↦ h other (List.mem_cons_of_mem part hother)]

theorem names_of_texts (path : Path) :
    (path.map FileName.text).filterMap FileName.of? = path := by
  induction path with
  | nil => rfl
  | cons name path ih =>
    have hname : FileName.of? name.text = some name := dif_pos ⟨name.nonempty, name.noSlash⟩
    rw [List.map_cons, List.filterMap_cons_some hname, ih]

/-- A text that is checked is the text of its path. -/
theorem pathText_pathOf {text : Text} (h : validateGeneratedPath text = true) :
    pathText (pathOf text) = text := by
  have hparts : ∀ part ∈ text.splitOn '/', part ≠ [] ∧ '/' ∉ part := by
    intro part hpart
    have hvalid := (Bool.and_eq_true_iff.mp h).2
    have hnonempty := List.all_eq_true.mp hvalid part hpart
    refine ⟨?_, not_mem_of_mem_splitOn '/' hpart⟩
    rintro rfl
    exact absurd hnonempty (by decide)
  rw [pathText, pathOf, names_of_parts hparts, List.intercalate_splitOn]

theorem pathOf_pathText {path : Path} (h : path ≠ []) : pathOf (pathText path) = path := by
  have hslash : ∀ part ∈ path.map FileName.text, '/' ∉ part := by
    intro part hpart
    obtain ⟨name, -, rfl⟩ := List.mem_map.mp hpart
    exact name.noSlash
  rw [pathOf, pathText, List.splitOn_intercalate '/' hslash (by simpa using h), names_of_texts]

theorem pathText_cons {name : FileName} {rest : Path} (h : rest ≠ []) :
    pathText (name :: rest) = name.text ++ '/' :: pathText rest := by
  obtain ⟨next, rest, rfl⟩ := List.exists_cons_of_ne_nil h
  rw [pathText, List.map_cons, List.map_cons, List.intercalate_cons_cons, List.append_assoc]
  rfl

/-! ### The files of a list -/

/-- The paths of a list are checked, and different. -/
structure Acceptable (files : List SyncFile) : Prop where
  valid : ∀ file ∈ files, validateGeneratedPath file.path = true
  distinct : (files.map SyncFile.path).Nodup
  prefixFree : ∀ file ∈ files, ∀ other ∈ files, pathOf file.path <+: pathOf other.path →
    file.path = other.path
  sentinel : ⟨"generated_classes/.generated-bindings".toList, sentinelContents⟩ ∈ files

/-- A path is that of a file in the list. -/
def Listed (files : List SyncFile) (path : Path) : Prop := ∃ file ∈ files, pathOf file.path = path

theorem mem_expectedPaths_iff {files : List SyncFile} {text : Text} :
    text ∈ expectedPaths files ↔ ∃ file ∈ files,
      file.path = "generated_classes/".toList ++ text ∧
        file.path ≠ "generated_classes/.generated-bindings".toList ∧
        file.path ≠ "generated_classes/manifest.txt".toList := by
  simp only [expectedPaths, List.mem_map, List.mem_filter, Bool.and_eq_true, decide_eq_true_eq,
    List.isPrefixOf_iff_prefix]
  constructor
  · rintro ⟨file, ⟨hfile, ⟨⟨rest, hrest⟩, hsentinel⟩, hmanifest⟩, rfl⟩
    refine ⟨file, hfile, ?_, hsentinel, hmanifest⟩
    rw [← hrest, List.drop_left]
  · rintro ⟨file, hfile, hpath, hsentinel, hmanifest⟩
    refine ⟨file, ⟨hfile, ⟨⟨text, hpath.symm⟩, hsentinel⟩, hmanifest⟩, ?_⟩
    rw [hpath, List.drop_left]

theorem generatedClasses_text {rest : Path} (h : rest ≠ []) :
    pathText (generatedClasses :: rest) = "generated_classes/".toList ++ pathText rest := by
  rw [pathText_cons h]
  rfl

/-- A source file of the directory is expected if its path is one of the list. -/
theorem expected_iff {files : List SyncFile}
    (hvalid : ∀ file ∈ files, validateGeneratedPath file.path = true) {rest : Path} (h : rest ≠ [])
    (hsource : isSource rest = true) :
    pathText rest ∈ expectedPaths files ↔ Listed files (generatedClasses :: rest) := by
  rw [mem_expectedPaths_iff]
  constructor
  · rintro ⟨file, hfile, hpath, -, -⟩
    refine ⟨file, hfile, ?_⟩
    rw [hpath, ← generatedClasses_text h, pathOf_pathText (List.cons_ne_nil _ _)]
  · rintro ⟨file, hfile, hpath⟩
    have htext : file.path = "generated_classes/".toList ++ pathText rest := by
      rw [← generatedClasses_text h, ← hpath, pathText_pathOf (hvalid file hfile)]
    refine ⟨file, hfile, htext, fun hsentinel ↦ ?_, fun hmanifest ↦ ?_⟩
    · have hparts : pathOf file.path = [generatedClasses, sentinelName] := by
        rw [hsentinel]
        decide
      obtain ⟨-, rfl⟩ := List.cons.inj (hpath.symm.trans hparts)
      exact absurd hsource (by decide)
    · have hparts : pathOf file.path = [generatedClasses, manifestName] := by
        rw [hmanifest]
        decide
      obtain ⟨-, rfl⟩ := List.cons.inj (hpath.symm.trans hparts)
      exact absurd hsource (by decide)

theorem withSlashes_append (first second : Text) :
    withSlashes (first ++ second) = withSlashes first ++ withSlashes second := List.map_append

/-- The directories of components. -/
def IsComponentDirectory (directory : FileName) : Prop :=
  directory = classesName ∨ directory = cyclesName

/-- A file below a directory of components is expected if its text, with slashes, is one of the
list. -/
theorem expectedComponent_iff {files : List SyncFile} {directory : FileName}
    (hdirectory : IsComponentDirectory directory) {rest : Path} (h : rest ≠ []) :
    withSlashes (directory.text ++ '/' :: pathText rest) ∈ expectedPaths files ↔
      ∃ file ∈ files,
        file.path = withSlashes (pathText (generatedClasses :: directory :: rest)) := by
  have htext : withSlashes (pathText (generatedClasses :: directory :: rest)) =
      "generated_classes/".toList ++ withSlashes (directory.text ++ '/' :: pathText rest) := by
    rw [generatedClasses_text (List.cons_ne_nil _ _), pathText_cons h, withSlashes_append]
    congr 1
  have hhead : (withSlashes (directory.text ++ '/' :: pathText rest)).head? = some 'c' := by
    obtain rfl | rfl := hdirectory
    · rfl
    · rfl
  rw [htext, mem_expectedPaths_iff]
  refine exists_congr fun file ↦ and_congr_right fun _ ↦ and_iff_left_of_imp fun hpath ↦ ?_
  constructor
  · intro hsentinel
    have hsplit : "generated_classes/.generated-bindings".toList =
        "generated_classes/".toList ++ ".generated-bindings".toList := by decide
    rw [hsplit] at hsentinel
    have hrest : ".generated-bindings".toList =
        withSlashes (directory.text ++ '/' :: pathText rest) :=
      List.append_cancel_left (hsentinel.symm.trans hpath)
    rw [← hrest] at hhead
    exact absurd hhead (by decide)
  · intro hmanifest
    have hsplit : "generated_classes/manifest.txt".toList =
        "generated_classes/".toList ++ "manifest.txt".toList := by decide
    rw [hsplit] at hmanifest
    have hrest : "manifest.txt".toList = withSlashes (directory.text ++ '/' :: pathText rest) :=
      List.append_cancel_left (hmanifest.symm.trans hpath)
    rw [← hrest] at hhead
    exact absurd hhead (by decide)

/-! ### Stale files -/

theorem below?_eq_some_iff {directory path rest : Path} :
    below? directory path = some rest ↔ path = directory ++ rest ∧ rest ≠ [] := by
  rw [below?, Option.filter_eq_some_iff, List.dropPrefix?_eq_some_iff, decide_eq_true_iff]
  refine and_congr_left fun _ ↦ ⟨?_, fun hpath ↦ ⟨directory, hpath, beq_self_eq_true directory⟩⟩
  rintro ⟨found, hpath, hsame⟩
  rw [hpath, eq_of_beq hsame]

theorem mem_staleFiles_iff {tree : Tree} {directory path : Path} {stale : Path → Bool} :
    path ∈ staleFiles tree directory stale ↔ (tree.file? path).isSome = true ∧
      ∃ rest, path = directory ++ rest ∧ rest ≠ [] ∧ stale rest = true := by
  rw [staleFiles, List.mem_filter, List.mem_map, FileTree.file?_isSome_iff, Option.any_eq_true]
  refine and_congr_right fun _ ↦ exists_congr fun rest ↦ ?_
  rw [below?_eq_some_iff, and_assoc]

theorem singleton_of_noSlash {rest : Path} (h : rest ≠ []) :
    '/' ∉ pathText rest ↔ ∃ name, rest = [name] := by
  obtain ⟨name, rest, rfl⟩ := List.exists_cons_of_ne_nil h
  rcases rest with _ | ⟨next, rest⟩
  · refine iff_of_true ?_ ⟨name, rfl⟩
    rw [pathText, List.map_singleton, List.intercalate_singleton]
    exact name.noSlash
  · refine iff_of_false (fun hslash ↦ hslash ?_) fun hsingle ↦ ?_
    · rw [pathText_cons (List.cons_ne_nil next rest)]
      exact List.mem_append_right _ List.mem_cons_self
    · obtain ⟨other, hother⟩ := hsingle
      exact absurd (List.cons.inj hother).2 (List.cons_ne_nil next rest)

/-- A source file directly in the directory of the generated files that the list does not have. A
name with a backslash is not looked at. -/
def UnexpectedFile (files : List SyncFile) (path : Path) : Prop :=
  ∃ name, path = [generatedClasses, name] ∧ isSource [name] = true ∧ '\\' ∉ name.text ∧
    ¬ Listed files path

/-- A source file below a directory of components that the list does not have. A backslash in its
path counts as a slash. -/
def UnexpectedComponent (files : List SyncFile) (directory : FileName) (path : Path) : Prop :=
  ∃ rest, path = generatedClasses :: directory :: rest ∧ rest ≠ [] ∧ isSource rest = true ∧
    ¬ ∃ file ∈ files, file.path = withSlashes (pathText path)

theorem mem_staleRootFiles_iff {files : List SyncFile}
    (hvalid : ∀ file ∈ files, validateGeneratedPath file.path = true) {tree : Tree} {path : Path} :
    path ∈ staleFiles tree [generatedClasses] (isStaleRootFile (expectedPaths files)) ↔
      (tree.file? path).isSome = true ∧ UnexpectedFile files path := by
  rw [mem_staleFiles_iff]
  refine and_congr_right fun _ ↦ ?_
  constructor
  · rintro ⟨rest, rfl, hne, hstale⟩
    simp only [isStaleRootFile, Bool.and_eq_true, decide_eq_true_eq] at hstale
    obtain ⟨⟨⟨hsource, hslash⟩, hbackslash⟩, hexpected⟩ := hstale
    obtain ⟨name, rfl⟩ := (singleton_of_noSlash hne).mp hslash
    refine ⟨name, rfl, hsource, ?_, fun hlisted ↦ hexpected ?_⟩
    · rwa [pathText, List.map_singleton, List.intercalate_singleton] at hbackslash
    · exact (expected_iff hvalid hne hsource).mpr hlisted
  · rintro ⟨name, rfl, hsource, hbackslash, hlisted⟩
    have hne : [name] ≠ [] := List.cons_ne_nil name []
    refine ⟨[name], rfl, hne, ?_⟩
    simp only [isStaleRootFile, Bool.and_eq_true, decide_eq_true_eq]
    refine ⟨⟨⟨hsource, (singleton_of_noSlash hne).mpr ⟨name, rfl⟩⟩, ?_⟩,
      fun hexpected ↦ hlisted ((expected_iff hvalid hne hsource).mp hexpected)⟩
    rwa [pathText, List.map_singleton, List.intercalate_singleton]

theorem mem_staleComponents_iff {files : List SyncFile} {directory : FileName}
    (hdirectory : IsComponentDirectory directory) {tree : Tree} {path : Path} :
    path ∈ staleFiles tree [generatedClasses, directory]
        (isStaleComponent (expectedPaths files) directory) ↔
      (tree.file? path).isSome = true ∧ UnexpectedComponent files directory path := by
  rw [mem_staleFiles_iff]
  refine and_congr_right fun _ ↦ exists_congr fun rest ↦ ?_
  refine and_congr_right fun hpath ↦ and_congr_right fun hne ↦ ?_
  subst hpath
  simp only [isStaleComponent, Bool.and_eq_true, decide_eq_true_eq]
  exact and_congr_right fun _ ↦ not_congr (expectedComponent_iff hdirectory hne)

end Gzscript.Bindings.ManagedPaths
