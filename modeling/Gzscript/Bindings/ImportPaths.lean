import Gzscript.Bindings.Tree
import Mathlib.Data.List.Infix

/-!
# Paths of imports

A line that imports a file has a path relative to the importing one; `importTarget` is the path it
leads to. The files of components are two directories deep, and a path from one to another names
the other directory only if it has to (`relativeComponentPath`). It leads to the file it is made for
(`importTarget_relative`), as long as no class has a slash in its name: the path is made of what
follows the last slash of the target.
-/

set_option autoImplicit false
set_option relaxedAutoImplicit false

namespace Gzscript.Bindings.ImportPaths

open Rendering Components Bindings.Tree

/-- One part of a relative path: two dots lead a directory up. -/
def followPart (directory : List (List Char)) (part : List Char) : List (List Char) :=
  if part = ['.', '.'] then directory.dropLast else directory ++ [part]

/-- The path that a path in a file leads to. -/
def importTarget (importer relative : String) : String :=
  String.ofList (List.intercalate ['/'] ((relative.toList.splitOn '/').foldl followPart
    (importer.toList.splitOn '/').dropLast))

/-- A path of parts. -/
def pathOfParts (parts : List (List Char)) : String := String.ofList (List.intercalate ['/'] parts)

def NoSlash (parts : List (List Char)) : Prop := ∀ part ∈ parts, '/' ∉ part

theorem splitOn_pathOfParts {parts : List (List Char)} (h : NoSlash parts) (hne : parts ≠ []) :
    (pathOfParts parts).toList.splitOn '/' = parts := by
  rw [pathOfParts, String.toList_ofList, List.splitOn_intercalate '/' h hne]

theorem importTarget_pathOfParts {importer relative : List (List Char)} (h : NoSlash importer)
    (hne : importer ≠ []) (h' : NoSlash relative) (hne' : relative ≠ []) :
    importTarget (pathOfParts importer) (pathOfParts relative) =
      pathOfParts (relative.foldl followPart importer.dropLast) := by
  rw [importTarget, splitOn_pathOfParts h hne, splitOn_pathOfParts h' hne']
  rfl

/-! ### The files of components -/

/-- The directory that a component file is in. -/
inductive Directory
  | classes
  | cycles
  deriving DecidableEq

def Directory.part : Directory → List Char
  | .classes => "classes".toList
  | .cycles => "cycles".toList

/-- The path of a component file. -/
def componentParts (directory : Directory) (stem : List Char) : List (List Char) :=
  ["generated_classes".toList, directory.part, stem ++ ".zig".toList]

theorem noSlash_component {directory : Directory} {stem : List Char} (h : '/' ∉ stem) :
    NoSlash (componentParts directory stem) := by
  intro part hpart
  obtain rfl | hpart := List.mem_cons.mp hpart
  · decide
  obtain rfl | hpart := List.mem_cons.mp hpart
  · cases directory with
    | classes => decide
    | cycles => decide
  obtain rfl := List.mem_singleton.mp hpart
  intro hmem
  obtain hstem | hending := List.mem_append.mp hmem
  · exact h hstem
  · exact absurd hending (by decide)

theorem toLower_ne_slash {character : Char} (h : character ≠ '/') : character.toLower ≠ '/' := by
  unfold Char.toLower
  split_ifs with hupper
  · intro heq
    have hval : (character.val + ('a'.val - 'A'.val)).toNat = '/'.val.toNat :=
      congrArg (fun other : Char ↦ other.val.toNat) heq
    have hlow : 'A'.val.toNat ≤ character.val.toNat := UInt32.le_iff_toNat_le.mp hupper.1
    have hhigh : character.val.toNat ≤ 'Z'.val.toNat := UInt32.le_iff_toNat_le.mp hupper.2
    have hshift : ('a'.val - 'A'.val).toNat = 32 := by decide
    have hfirst : 'A'.val.toNat = 65 := by decide
    have hlast : 'Z'.val.toNat = 90 := by decide
    have hslash : '/'.val.toNat = 47 := by decide
    rw [UInt32.toNat_add] at hval
    omega
  · exact h

theorem fileStemFrom_noSlash {characters : List Char} (h : '/' ∉ characters)
    (previous : Option Char) : '/' ∉ fileStemFrom previous characters := by
  induction characters generalizing previous with
  | nil => exact List.not_mem_nil
  | cons character rest ih =>
    rw [fileStemFrom]
    intro hmem
    obtain hunderscore | hrest := List.mem_append.mp hmem
    · split_ifs at hunderscore
      · exact absurd hunderscore (by decide)
      · exact absurd hunderscore List.not_mem_nil
    · obtain heq | hrest := List.mem_cons.mp hrest
      · exact toLower_ne_slash (fun hslash ↦ h (hslash ▸ List.mem_cons_self)) heq.symm
      · exact ih (fun hlater ↦ h (List.mem_cons_of_mem character hlater)) _ hrest

theorem fileStem_noSlash {name : String} (h : '/' ∉ name.toList) : '/' ∉ fileStem name :=
  fileStemFrom_noSlash h none

/-- What is between the parts of the name of a cycle has no slash. -/
theorem intercalate_noSlash {parts : List (List Char)} (h : NoSlash parts) :
    '/' ∉ List.intercalate ['_', '_'] parts := by
  induction parts with
  | nil => exact List.not_mem_nil
  | cons part parts ih =>
    have hpart : '/' ∉ part := h part List.mem_cons_self
    have hrest := ih fun other hother ↦ h other (List.mem_cons_of_mem part hother)
    rcases parts with _ | ⟨next, parts⟩
    · simpa using hpart
    · rw [List.intercalate_cons_cons]
      simp only [List.mem_append, not_or]
      exact ⟨⟨hpart, by decide⟩, hrest⟩

theorem componentParts_path (directory : Directory) (stem : List Char) :
    (pathOfParts (componentParts directory stem)).toList =
      "generated_classes".toList ++ '/' :: (directory.part ++ '/' :: (stem ++ ".zig".toList)) := by
  rw [pathOfParts, componentParts, String.toList_ofList, List.intercalate_cons_cons,
    List.intercalate_cons_cons, List.intercalate_singleton]
  simp only [List.append_assoc, List.singleton_append]

theorem classPath_eq (member : String) :
    classPath member = pathOfParts (componentParts .classes (fileStem member)) := by
  have hdirectory : "generated_classes/classes/".toList =
      "generated_classes".toList ++ '/' :: (Directory.classes.part ++ ['/']) := by decide
  apply String.toList_injective
  delta classPath
  rw [componentParts_path, String.toList_append, String.toList_append,
    @String.toList_ofList (fileStem member), hdirectory]
  simp only [List.append_assoc, List.cons_append, List.nil_append]

theorem cyclePath_eq (members : List String) :
    cyclePath members = pathOfParts
      (componentParts .cycles (List.intercalate ['_', '_'] (members.map fileStem))) := by
  have hdirectory : "generated_classes/cycles/".toList =
      "generated_classes".toList ++ '/' :: (Directory.cycles.part ++ ['/']) := by decide
  apply String.toList_injective
  delta cyclePath
  rw [componentParts_path, String.toList_append, String.toList_append,
    @String.toList_ofList (List.intercalate _ _), hdirectory]
  simp only [List.append_assoc, List.cons_append, List.nil_append]

theorem componentPath_cases (members : List String) :
    (∃ member, members = [member] ∧ componentPath members = classPath member) ∨
      componentPath members = cyclePath members := by
  unfold componentPath
  split
  next member => exact .inl ⟨member, rfl, rfl⟩
  next => exact .inr rfl

/-- The path of a component whose members have no slash in their names. -/
theorem componentPath_eq {members : List String} (h : ∀ member ∈ members, '/' ∉ member.toList) :
    ∃ directory stem, '/' ∉ stem ∧
      componentPath members = pathOfParts (componentParts directory stem) := by
  obtain ⟨member, rfl, hpath⟩ | hpath := componentPath_cases members
  · exact ⟨.classes, fileStem member, fileStem_noSlash (h member List.mem_cons_self),
      hpath.trans (classPath_eq member)⟩
  · refine ⟨.cycles, _, ?_, hpath.trans (cyclePath_eq members)⟩
    refine intercalate_noSlash fun part hpart ↦ ?_
    obtain ⟨member, hmember, rfl⟩ := List.mem_map.mp hpart
    exact fileStem_noSlash (h member hmember)

/-! ### From one component file to another -/

theorem containsText_iff (text part : String) :
    containsText text part = true ↔ part.toList <:+: text.toList := by
  rw [containsText, List.any_eq_true, List.infix_iff_prefix_suffix]
  refine exists_congr fun rest ↦ ?_
  rw [List.mem_tails, List.isPrefixOf_iff_prefix, and_comm]

theorem stem_ne (stem : List Char) : stem ++ ".zig".toList ≠ "classes".toList := by
  intro h
  have hlast := congrArg List.getLast? h
  rw [List.getLast?_append_of_ne_nil _ (by decide)] at hlast
  exact absurd hlast (by decide)

/-- Only the files of single classes are in the directory that the generator looks for. -/
theorem containsText_component {directory : Directory} {stem : List Char} (h : '/' ∉ stem) :
    containsText (pathOfParts (componentParts directory stem)) "/classes/" = true ↔
      directory = .classes := by
  rw [containsText_iff]
  constructor
  · rintro ⟨before, after, hpath⟩
    have hsplit : (before ++ '/' :: ("classes".toList ++ '/' :: after)).splitOn '/' =
        componentParts directory stem := by
      rw [← splitOn_pathOfParts (noSlash_component h) (List.cons_ne_nil _ _), ← hpath]
      rw [List.append_assoc]
      rfl
    rw [List.splitOn_append_cons_self, List.splitOn_append_cons_self] at hsplit
    have hmem : "classes".toList ∈ componentParts directory stem := by
      rw [← hsplit]
      exact List.mem_append_right _ (List.mem_append_left _ (by decide))
    cases directory with
    | classes => rfl
    | cycles =>
      obtain heq | hmem := List.mem_cons.mp hmem
      · exact absurd heq (by decide)
      obtain heq | hmem := List.mem_cons.mp hmem
      · exact absurd heq (by decide)
      exact absurd (List.mem_singleton.mp hmem).symm (stem_ne stem)
  · rintro rfl
    refine ⟨"generated_classes".toList, stem ++ ".zig".toList, ?_⟩
    rw [componentParts_path]
    rfl

theorem basename_component {directory : Directory} {stem : List Char} (h : '/' ∉ stem) :
    basename (pathOfParts (componentParts directory stem)) =
      pathOfParts [stem ++ ".zig".toList] := by
  have hfile : ∀ character ∈ (stem ++ ".zig".toList).reverse, decide (character ≠ '/') = true := by
    intro character hmem
    refine decide_eq_true fun hslash ↦ ?_
    subst hslash
    obtain hstem | hending := List.mem_append.mp (List.mem_reverse.mp hmem)
    · exact h hstem
    · exact absurd hending (by decide)
  have hreverse : (pathOfParts (componentParts directory stem)).toList.reverse =
      (stem ++ ".zig".toList).reverse ++
        '/' :: ("generated_classes".toList ++ '/' :: directory.part).reverse := by
    rw [componentParts_path]
    simp only [List.reverse_append, List.reverse_cons, List.append_assoc, List.nil_append,
      List.cons_append]
  rw [basename, hreverse, List.takeWhile_append_of_pos hfile,
    List.takeWhile_cons_of_neg (by decide),
    List.append_nil, List.reverse_reverse, pathOfParts, List.intercalate_singleton]

theorem upTo_eq {text : String} {directory : Directory} {file : List Char}
    (htext : text.toList = ['.', '.'] ++ '/' :: (directory.part ++ ['/'])) :
    text ++ pathOfParts [file] = pathOfParts [['.', '.'], directory.part, file] := by
  apply String.toList_injective
  rw [String.toList_append, htext, pathOfParts, pathOfParts, String.toList_ofList,
    String.toList_ofList, List.intercalate_cons_cons, List.intercalate_cons_cons,
    List.intercalate_singleton]
  simp only [List.append_assoc, List.cons_append, List.nil_append]

theorem relativeComponentPath_component {source target : Directory} {stem other : List Char}
    (h : '/' ∉ stem) (h' : '/' ∉ other) :
    relativeComponentPath (pathOfParts (componentParts source stem))
        (pathOfParts (componentParts target other)) =
      pathOfParts (if source = target then [other ++ ".zig".toList]
        else [['.', '.'], target.part, other ++ ".zig".toList]) := by
  have hsource : containsText (pathOfParts (componentParts source stem)) "/classes/" =
      decide (source = .classes) := by
    rw [Bool.eq_iff_iff, containsText_component h, decide_eq_true_iff]
  have htarget : containsText (pathOfParts (componentParts target other)) "/classes/" =
      decide (target = .classes) := by
    rw [Bool.eq_iff_iff, containsText_component h', decide_eq_true_iff]
  rw [relativeComponentPath, basename_component h', hsource, htarget]
  cases source with
  | classes =>
    cases target with
    | classes => rfl
    | cycles => exact upTo_eq (by decide)
  | cycles =>
    cases target with
    | classes => exact upTo_eq (by decide)
    | cycles => rfl

theorem followPart_file (directory : List (List Char)) (stem : List Char) :
    followPart directory (stem ++ ".zig".toList) = directory ++ [stem ++ ".zig".toList] := by
  refine if_neg fun h ↦ ?_
  have hlength := congrArg List.length h
  rw [List.length_append] at hlength
  have hending : ".zig".toList.length = 4 := by decide
  rw [hending] at hlength
  exact absurd hlength (by simp)

/-- The path from one component file to another leads to it. -/
theorem importTarget_relative {source target : Directory} {stem other : List Char}
    (h : '/' ∉ stem) (h' : '/' ∉ other) :
    importTarget (pathOfParts (componentParts source stem))
        (relativeComponentPath (pathOfParts (componentParts source stem))
          (pathOfParts (componentParts target other))) =
      pathOfParts (componentParts target other) := by
  have htarget : NoSlash (componentParts target other) := noSlash_component h'
  have hdirectory : '/' ∉ target.part :=
    htarget _ (List.mem_cons_of_mem _ List.mem_cons_self)
  have hfile : '/' ∉ other ++ ".zig".toList :=
    htarget _ (List.mem_cons_of_mem _ (List.mem_cons_of_mem _ List.mem_cons_self))
  rw [relativeComponentPath_component h h']
  split_ifs with hsame
  · subst hsame
    have hrelative : NoSlash [other ++ ".zig".toList] := List.forall_mem_singleton.mpr hfile
    rw [importTarget_pathOfParts (noSlash_component h) (List.cons_ne_nil _ _) hrelative
      (List.cons_ne_nil _ _), List.foldl_cons, followPart_file]
    rfl
  · have hrelative : NoSlash [['.', '.'], target.part, other ++ ".zig".toList] :=
      List.forall_mem_cons.mpr ⟨by decide,
        List.forall_mem_cons.mpr ⟨hdirectory, List.forall_mem_singleton.mpr hfile⟩⟩
    have hstep : followPart ["generated_classes".toList] target.part =
        ["generated_classes".toList, target.part] := by
      cases target with
      | classes => decide
      | cycles => decide
    rw [importTarget_pathOfParts (noSlash_component h) (List.cons_ne_nil _ _) hrelative
      (List.cons_ne_nil _ _), List.foldl_cons, List.foldl_cons, List.foldl_cons]
    change pathOfParts (followPart (followPart ["generated_classes".toList] target.part) _) = _
    rw [hstep, followPart_file]
    rfl

/-- The files beside the directories of components. -/
theorem importTarget_shared {directory : Directory} {stem : List Char} (h : '/' ∉ stem) :
    importTarget (pathOfParts (componentParts directory stem)) "../global_enums.zig" =
        "generated_classes/global_enums.zig" ∧
      importTarget (pathOfParts (componentParts directory stem)) "../../abi.zig" = "abi.zig" ∧
      importTarget (pathOfParts (componentParts directory stem)) "../../class_support.zig" =
        "class_support.zig" := by
  have hparts : NoSlash (componentParts directory stem) := noSlash_component h
  have hdirectory : ((pathOfParts (componentParts directory stem)).toList.splitOn '/').dropLast =
      ["generated_classes".toList, directory.part] := by
    rw [splitOn_pathOfParts hparts (List.cons_ne_nil _ _)]
    rfl
  rw [importTarget, importTarget, importTarget, hdirectory]
  cases directory with
  | classes => decide
  | cycles => decide

end Gzscript.Bindings.ImportPaths
