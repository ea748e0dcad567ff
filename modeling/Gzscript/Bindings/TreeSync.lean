import Gzscript.Library.Files
import Mathlib.Data.List.DropRight

/-!
# Synchronising the generated files

`syncTree` brings the files below the output directory to a list of generated ones, or checks that
they are so. What is not in the list is deleted if the manifest of the last run names it, or if it
is a source file directly in the directory of the generated files or below the two directories of
components in it. In a directory without the sentinel nothing is touched.

Paths in a list and in a manifest are texts, the ones in the tree are lists of names; a text that is
checked by `validateGeneratedPath` has the names of a path between its slashes.
-/

set_option autoImplicit false
set_option relaxedAutoImplicit false

namespace Gzscript.Bindings.TreeSync

open Library.Files

/-! ### Paths -/

abbrev Text : Type := List Char

/-- A name in a directory. -/
structure FileName where
  text : Text
  nonempty : text ≠ []
  noSlash : '/' ∉ text
  deriving DecidableEq

abbrev Path : Type := List FileName

/-- The files and directories below the output directory. -/
abbrev Tree : Type := FileTree FileName Text

def FileName.of? (part : Text) : Option FileName :=
  if h : part ≠ [] ∧ '/' ∉ part then some ⟨part, h.1, h.2⟩ else none

/-- The names between the slashes of a text. -/
def pathOf (text : Text) : Path := (text.splitOn '/').filterMap FileName.of?

/-- The text of a path. -/
def pathText (path : Path) : Text := List.intercalate ['/'] (path.map FileName.text)

def generatedClasses : FileName := ⟨"generated_classes".toList, by decide, by decide⟩

def sentinelName : FileName := ⟨".generated-bindings".toList, by decide, by decide⟩

def manifestName : FileName := ⟨"manifest.txt".toList, by decide, by decide⟩

def classesName : FileName := ⟨"classes".toList, by decide, by decide⟩

def cyclesName : FileName := ⟨"cycles".toList, by decide, by decide⟩

/-- What the sentinel has to contain. -/
def sentinelContents : Text := "Generated by tools/generate_bindings.zig. Do not edit.\n".toList

def validateGeneratedPath (path : Text) : Bool :=
  path ≠ [] && path.head? ≠ some '/' && '\\' ∉ path &&
    (path.splitOn '/').all fun part ↦ part ≠ [] && part ≠ ['.'] && part ≠ ['.', '.']

/-- A generated file, as it is written. -/
structure SyncFile where
  path : Text
  contents : Text
  deriving DecidableEq

/-- The files of the list in the directory of the generated ones, except for the sentinel and the
manifest, as texts below that directory. -/
def expectedPaths (files : List SyncFile) : List Text :=
  (files.filter fun file ↦ "generated_classes/".toList.isPrefixOf file.path &&
    file.path ≠ "generated_classes/.generated-bindings".toList &&
    file.path ≠ "generated_classes/manifest.txt".toList).map fun file ↦
      file.path.drop "generated_classes/".toList.length

/-! ### Outcomes -/

inductive SyncError
  | invalidGeneratedPath
  | unownedGeneratedDirectory
  | staleBindings
  | file (error : FileError)
  deriving DecidableEq

/-- The tree that is left, also if there was an error. -/
structure Outcome where
  error : Option SyncError
  tree : Tree

def Outcome.andThen (outcome : Outcome) (next : Tree → Outcome) : Outcome :=
  match outcome.error with
  | some _ => outcome
  | none => next outcome.tree

/-! ### Deleting -/

/-- The directory of the generated files is there with its sentinel, or is not there. -/
def checkOwned (tree : Tree) : Except SyncError Unit :=
  match tree.stat [generatedClasses] with
  | .error .fileNotFound => .ok ()
  | .error error => .error (.file error)
  | .ok () =>
    match tree.readFile [generatedClasses, sentinelName] with
    | .error .fileNotFound => .error .unownedGeneratedDirectory
    | .error error => .error (.file error)
    | .ok sentinel =>
      if sentinel = sentinelContents then .ok () else .error .unownedGeneratedDirectory

/-- A line of a manifest without the returns at its end. -/
def trimLine (line : Text) : Text := line.rdropWhile fun character ↦ character = '\r'

/-- The files that the lines of the last manifest name and the list has no more. -/
def deleteManifested (expected : List Text) : List Text → Tree → Outcome
  | [], tree => ⟨none, tree⟩
  | line :: lines, tree =>
    if trimLine line = [] ∨ trimLine line ∈ expected then deleteManifested expected lines tree
    else if !validateGeneratedPath (trimLine line) then ⟨some .invalidGeneratedPath, tree⟩
    else
      match tree.deleteFile (generatedClasses :: pathOf (trimLine line)) with
      | .ok next => deleteManifested expected lines next
      | .error .fileNotFound => deleteManifested expected lines tree
      | .error error => ⟨some (.file error), tree⟩

def deleteFromManifest (expected : List Text) (tree : Tree) : Outcome :=
  match tree.readFile [generatedClasses, manifestName] with
  | .error .fileNotFound => ⟨none, tree⟩
  | .error error => ⟨some (.file error), tree⟩
  | .ok manifest => deleteManifested expected (manifest.splitOn '\n') tree

/-- The name of a file ends as that of a source file does. -/
def isSource (path : Path) : Bool :=
  path.getLast?.any fun name ↦ ".zig".toList.isSuffixOf name.text

/-- What a file is called that is found from a directory on. -/
def below? (directory path : Path) : Option Path :=
  (path.dropPrefix? directory).filter fun rest ↦ rest ≠ []

/-- A source file directly in the directory, which the list does not have. One with a backslash in
its name is taken for one of a deeper directory. -/
def isStaleRootFile (expected : List Text) (rest : Path) : Bool :=
  isSource rest && '/' ∉ pathText rest && '\\' ∉ pathText rest && pathText rest ∉ expected

/-- A path as the list has it: a backslash separates names as well. -/
def withSlashes (text : Text) : Text :=
  text.map fun character ↦ if character = '\\' then '/' else character

/-- A source file below a directory of components, which the list does not have. -/
def isStaleComponent (expected : List Text) (directory : FileName) (rest : Path) : Bool :=
  isSource rest && withSlashes (directory.text ++ '/' :: pathText rest) ∉ expected

/-- The files found from a directory on that are stale. -/
def staleFiles (tree : Tree) (directory : Path) (stale : Path → Bool) : List Path :=
  (tree.files.map Prod.fst).filter fun path ↦ (below? directory path).any stale

def deleteFiles : List Path → Tree → Outcome
  | [], tree => ⟨none, tree⟩
  | path :: paths, tree =>
    match tree.deleteFile path with
    | .ok next => deleteFiles paths next
    | .error error => ⟨some (.file error), tree⟩

/-- The stale files from a directory on are deleted, or lead to an error when checking. -/
def reconcileDirectory (checking : Bool) (directory : Path) (stale : Path → Bool) (tree : Tree) :
    Outcome :=
  match tree.openDir directory with
  | .error .fileNotFound => ⟨none, tree⟩
  | .error error => ⟨some (.file error), tree⟩
  | .ok () =>
    if checking && staleFiles tree directory stale ≠ [] then ⟨some .staleBindings, tree⟩
    else deleteFiles (staleFiles tree directory stale) tree

def reconcileManagedFiles (expected : List Text) (checking : Bool) (tree : Tree) : Outcome :=
  match tree.openDir [generatedClasses] with
  | .error .fileNotFound => ⟨none, tree⟩
  | .error error => ⟨some (.file error), tree⟩
  | .ok () =>
    ((reconcileDirectory checking [generatedClasses] (isStaleRootFile expected) tree).andThen
      (reconcileDirectory checking [generatedClasses, classesName]
        (isStaleComponent expected classesName))).andThen
      (reconcileDirectory checking [generatedClasses, cyclesName]
        (isStaleComponent expected cyclesName))

/-! ### Writing and checking -/

/-- A file of the list is written, with the directories on the way to it. -/
def writeListed (file : SyncFile) (tree : Tree) : Outcome :=
  match tree.createDirPath (pathOf file.path).dropLast with
  | .error error => ⟨some (.file error), tree⟩
  | .ok next =>
    match next.writeFile (pathOf file.path) file.contents with
    | .error error => ⟨some (.file error), next⟩
    | .ok last => ⟨none, last⟩

def checkListed (file : SyncFile) (tree : Tree) : Outcome :=
  match tree.readFile (pathOf file.path) with
  | .error _ => ⟨some .staleBindings, tree⟩
  | .ok existing =>
    if existing = file.contents then ⟨none, tree⟩ else ⟨some .staleBindings, tree⟩

/-- The loop over the list. -/
def forEach (step : SyncFile → Tree → Outcome) : List SyncFile → Tree → Outcome
  | [], tree => ⟨none, tree⟩
  | file :: files, tree => (step file tree).andThen (forEach step files)

def syncTree (tree : Tree) (files : List SyncFile) (checking : Bool) : Outcome :=
  if files.any fun file ↦ !validateGeneratedPath file.path then ⟨some .invalidGeneratedPath, tree⟩
  else if checking then
    (reconcileManagedFiles (expectedPaths files) true tree).andThen (forEach checkListed files)
  else
    match checkOwned tree with
    | .error error => ⟨some error, tree⟩
    | .ok () =>
      ((deleteFromManifest (expectedPaths files) tree).andThen
        (reconcileManagedFiles (expectedPaths files) false)).andThen (forEach writeListed files)

end Gzscript.Bindings.TreeSync
