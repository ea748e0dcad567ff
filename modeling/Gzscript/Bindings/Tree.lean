import Gzscript.Bindings.Components

/-!
# The generated tree

Each component of classes is a file, which imports the classes of other components and the global
enums that its classes use. Besides there is a file with the global enums, an index of all classes
and enums, a facade over it, and a manifest of the files. `renderTree` makes them all of an API and
a profile.
-/

set_option autoImplicit false
set_option relaxedAutoImplicit false

namespace Gzscript.Bindings.Tree

open Library.Fallible Library.Sorting Api Selection Resolve Rendering Components

/-! ### Paths -/

/-- A word starts at a character of a name that stands between two others. -/
def wordStart (previous : Option Char) (character : Char) (next : Option Char) : Bool :=
  match previous with
  | none => false
  | some previous =>
    character.isUpper && (previous.isLower || previous.isUpper && next.any Char.isLower) ||
      character.isDigit && previous.isAlpha && next.all Char.isUpper

def fileStemFrom (previous : Option Char) : List Char → List Char
  | [] => []
  | character :: rest =>
    (if wordStart previous character rest.head? then ['_'] else []) ++
      character.toLower :: fileStemFrom (some character) rest

def fileStem (name : String) : List Char := fileStemFrom none name.toList

def classPath (member : String) : String :=
  "generated_classes/classes/" ++ String.ofList (fileStem member) ++ ".zig"

def cyclePath (members : List String) : String :=
  "generated_classes/cycles/" ++
    String.ofList (List.intercalate ['_', '_'] (members.map fileStem)) ++ ".zig"

/-- `componentPath`, from the members of a component. -/
def componentPath (members : List String) : String :=
  match members with
  | [member] => classPath member
  | _ => cyclePath members

/-- What follows the last slash of a path. -/
def basename (path : String) : String :=
  String.ofList (path.toList.reverse.takeWhile fun character ↦ character ≠ '/').reverse

def relativeComponentPath (source target : String) : String :=
  let sourceIsClass := containsText source "/classes/"
  let targetIsClass := containsText target "/classes/"
  if sourceIsClass = targetIsClass then basename target
  else if targetIsClass then "../classes/" ++ basename target
  else "../cycles/" ++ basename target

/-! ### Files -/

structure ClassComponent where
  members : List String
  path : String
  deriving DecidableEq

/-- A line that binds a name to the declaration of the same name in a file. -/
structure ImportLine where
  name : String
  path : String
  deriving DecidableEq

structure ComponentFile where
  usesAbi : Bool
  globalEnums : List ImportLine
  classes : List ImportLine
  structs : List ClassStruct
  deriving DecidableEq

inductive Contents
  | sentinel
  | globalEnums (enums : List ApiEnum)
  | component (file : ComponentFile)
  /-- The lines of the enums, and those of the classes. -/
  | index (enums classes : List ImportLine)
  /-- The names from the ABI, and those from the index. -/
  | facade (fromAbi enums classes : List String)
  | manifest (paths : List String)
  deriving DecidableEq

structure GeneratedFile where
  path : String
  contents : Contents
  deriving DecidableEq

/-- The types of the methods of some classes. -/
def memberTypes (bindings : ResolvedBindings) (members : List String) : List TypeRef :=
  members.flatMap fun name ↦ ((bindings.methodsByClass name).getD []).flatMap methodTypes

def componentUsesAbi (bindings : ResolvedBindings) (members : List String) : Bool :=
  (memberTypes bindings members).any fun typeRef ↦
    typeRef.name ∈ ["Vector2", "Vector3", "Color", "Transform2D", "Transform3D", "Rect2"]

def typeUsesGlobalEnum (typeName enumName : String) : Bool :=
  match enumReference typeName with
  | some ⟨none, name⟩ => name = enumName
  | _ => false

def componentUsesGlobalEnum (bindings : ResolvedBindings) (members : List String)
    (enumName : String) : Bool :=
  (memberTypes bindings members).any fun typeRef ↦ typeUsesGlobalEnum typeRef.name enumName

/-- The component of a class. -/
def componentOf (components : List ClassComponent) (name : String) : Option ℕ :=
  components.findIdx? fun component ↦ name ∈ component.members

/-- The classes of other components that one class depends on. -/
def classTargets (bindings : ResolvedBindings) (components : List ClassComponent) (own : ℕ)
    (dependencies : Matrix) (sourceName : String) : List String :=
  bindings.collected.generatedNames.filter fun targetName ↦
    componentOf components targetName ≠ some own &&
      match classIndex bindings.collected.generatedNames sourceName,
        classIndex bindings.collected.generatedNames targetName with
      | some source, some target => dependencies source target
      | _, _ => false

/-- The classes that a component imports, each once. -/
def importedClasses (bindings : ResolvedBindings) (components : List ClassComponent) (own : ℕ)
    (dependencies : Matrix) (members : List String) : List String :=
  members.foldl (fun imported sourceName ↦
    imported ++ (classTargets bindings components own dependencies sourceName).filter fun target ↦
      target ∉ imported) []

/-- The path of the component of a class. -/
def pathOf (components : List ClassComponent) (name : String) : String :=
  match (componentOf components name).bind fun index ↦ components[index]? with
  | some component => component.path
  | none => ""

def renderClassComponent (bindings : ResolvedBindings) (components : List ClassComponent)
    (dependencies : Matrix) (own : ℕ) (component : ClassComponent) :
    Except Error ComponentFile := do
  let structs ← component.members.mapM (renderResolvedClass bindings)
  return {
    usesAbi := componentUsesAbi bindings component.members
    globalEnums :=
      (bindings.collected.globalEnums.filter fun entry ↦
        componentUsesGlobalEnum bindings component.members entry.name).map fun entry ↦
          ⟨entry.name, "../global_enums.zig"⟩
    classes :=
      (importedClasses bindings components own dependencies component.members).map fun name ↦
        ⟨name, relativeComponentPath component.path (pathOf components name)⟩
    structs := structs }

/-- A path without the directory of the generated files. -/
def withoutRoot (path : String) : String :=
  String.ofList (path.toList.drop "generated_classes/".length)

def renderGeneratedIndex (bindings : ResolvedBindings) (components : List ClassComponent) :
    Contents :=
  .index
    (bindings.collected.globalEnums.map fun entry ↦ ⟨entry.name, "global_enums.zig"⟩)
    (bindings.collected.generatedNames.map fun name ↦
      ⟨name, withoutRoot (pathOf components name)⟩)

/-- The names that the facade passes on from `abi.zig`. -/
def abiExports : List String := ["Vector", "Color", "Transform2D", "Transform3D", "Rect2"]

def renderClassFacade (bindings : ResolvedBindings) : Contents :=
  .facade abiExports (bindings.collected.globalEnums.map ApiEnum.name)
    bindings.collected.generatedNames

/-! ### The tree -/

/-- The components with the names of their members. -/
def classComponents (generatedNames : List String) (reachability : Matrix) :
    List ClassComponent :=
  (assignComponents reachability generatedNames.length (List.range generatedNames.length) []).map
    fun indices ↦
      let members := sortNames (indices.filterMap fun index ↦ generatedNames[index]?)
      ⟨members, componentPath members⟩

def sortFiles (files : List GeneratedFile) : List GeneratedFile :=
  stableSort (fun first second ↦ decide (first.path.toList < second.path.toList)) files

/-- The paths that the manifest lists. -/
def manifestPaths (files : List GeneratedFile) : List String :=
  (files.filter fun file ↦ "generated_classes/".toList.isPrefixOf file.path.toList &&
    file.path ≠ "generated_classes/.generated-bindings").map fun file ↦ withoutRoot file.path

def renderResolvedTree (bindings : ResolvedBindings) : Except Error (List GeneratedFile) := do
  let dependencies ← dependencyMatrix bindings
  let reachability := reachabilityMatrix bindings.collected.generatedNames.length dependencies
  let components := classComponents bindings.collected.generatedNames reachability
  let componentFiles ← components.zipIdx.mapM fun (component, index) ↦ do
    let file ← renderClassComponent bindings components dependencies index component
    return (⟨component.path, .component file⟩ : GeneratedFile)
  let files := sortFiles
    ([⟨"generated_classes/.generated-bindings", .sentinel⟩,
        ⟨"generated_classes/global_enums.zig", .globalEnums bindings.collected.globalEnums⟩] ++
      componentFiles ++
      [⟨"generated_classes/index.zig", renderGeneratedIndex bindings components⟩,
        ⟨"class.zig", renderClassFacade bindings⟩])
  return sortFiles (files ++
    [⟨"generated_classes/manifest.txt", .manifest (manifestPaths files)⟩])

/-- `renderTree`, of a parsed API and the roots of a parsed profile. -/
def renderTree (api : ExtensionApi) (profile : Option (List (Option String))) :
    Except Error (List GeneratedFile) :=
  if api.header.versionMajor ≠ 4 ∨ api.header.versionMinor ≠ 7 then
    .error .unsupportedGodotVersion
  else if api.header.precision ≠ "single" then .error .unsupportedPrecision
  else
    match profile with
    | none => .error .missingRoots
    | some roots => do
      let bindings ← resolveBindings api roots
      renderResolvedTree bindings

end Gzscript.Bindings.Tree
