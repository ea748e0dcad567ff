import Gzscript.Bindings.ImportPaths
import Gzscript.Bindings.RootStructs
import Gzscript.Bindings.TreeContents

/-!
# The names in the generated files

A type in the signature of a method, or a class that a struct converts to, is a name in a file; it
has to be defined there or bound by a line that imports it. Which classes are imported follows from
the dependencies, which the generator finds from the names of the types by tests of their own, apart
from the ones that decide how a type is written.

The tests fit together: where no class has a slash in its name, every name is known in its file, and
every line leads to a file that defines the name (`renderTree_closed`). A class with a slash in its
name is generated in a deeper directory than the lines that import it lead to, and one with the name
of a type of the ABI is in the facade beside it (`nested_unclosed`).
-/

set_option autoImplicit false
set_option relaxedAutoImplicit false

namespace Gzscript.Bindings.NameClosure

open Library.Fallible Api Selection Resolve Rendering RootStructs Components Bindings.Tree
  TreeContents ImportPaths

/-! ### Names of a file -/

/-- A class is defined in a file, or a line of the file binds it. -/
def ClassKnown (file : ComponentFile) (name : String) : Prop :=
  (∃ struct ∈ file.structs, struct.name = name) ∨ ∃ line ∈ file.classes, line.name = name

/-- An enum is defined in the struct of a class. -/
def ClassEnumDefined (files : List GeneratedFile) (owner name : String) : Prop :=
  ∃ struct ∈ structsOf files, struct.name = owner ∧ ∃ entry ∈ struct.enums, entry.name = name

/-- The names in a type are known in a file. -/
def TypeKnown (files : List GeneratedFile) (file : ComponentFile) (type : ZigType) : Prop :=
  match type with
  | .bool | .int | .float | .bytes => True
  | .vector2 | .vector3 | .color | .transform2d | .transform3d | .rect2 => file.usesAbi = true
  | .enum ⟨some owner, name⟩ => ClassKnown file owner ∧ ClassEnumDefined files owner name
  | .enum ⟨none, name⟩ => ∃ line ∈ file.globalEnums, line.name = name
  | .object name | .optionalObject name => ClassKnown file name

def enumsIn : Contents → List ApiEnum
  | .globalEnums enums => enums
  | .sentinel => []
  | .component _ => []
  | .index _ _ => []
  | .facade _ _ _ => []
  | .manifest _ => []

def DefinesClass (name : String) (contents : Contents) : Prop :=
  ∃ struct ∈ structsIn contents, struct.name = name

def DefinesEnum (name : String) (contents : Contents) : Prop :=
  ∃ entry ∈ enumsIn contents, entry.name = name

/-- A line in a file leads to one that defines its name. -/
def Leads (files : List GeneratedFile) (importer : String) (line : ImportLine)
    (defines : String → Contents → Prop) : Prop :=
  ∃ target ∈ files, target.path = importTarget importer line.path ∧
    defines line.name target.contents

/-- The types in the signature of a method. -/
def emittedTypes (emitted : EmittedMethod) : List ZigType :=
  emitted.parameters.map Prod.snd ++ emitted.returnType.toList

/-- The names of a component file are known, and its lines lead to them. The files of the ABI and of
the support for classes are not generated; they stand beside the facade. -/
structure FileClosed (files : List GeneratedFile) (path : String) (file : ComponentFile) :
    Prop where
  types : ∀ struct ∈ file.structs, ∀ emitted ∈ struct.methods, ∀ type ∈ emittedTypes emitted,
    TypeKnown files file type
  upcasts : ∀ struct ∈ file.structs, ∀ ancestor ∈ struct.upcasts, ClassKnown file ancestor
  classes : ∀ line ∈ file.classes, Leads files path line DefinesClass
  globalEnums : ∀ line ∈ file.globalEnums, Leads files path line DefinesEnum
  abi : importTarget path "../../abi.zig" = "abi.zig"
  support : importTarget path "../../class_support.zig" = "class_support.zig"

/-- The index and the facade have each generated class and each collected enum once, the facade
unless one of them has a name that it passes on from the ABI. -/
structure Exported (files : List GeneratedFile) (enums classes : List ImportLine) : Prop where
  index : ⟨"generated_classes/index.zig", .index enums classes⟩ ∈ files
  facade : ⟨"class.zig",
    .facade abiExports (enums.map ImportLine.name) (classes.map ImportLine.name)⟩ ∈ files
  once : ((enums ++ classes).map ImportLine.name).Nodup
  facadeOnce : (∀ line ∈ enums ++ classes, line.name ∉ abiExports) →
    (abiExports ++ (enums ++ classes).map ImportLine.name).Nodup
  allClasses : ∀ name, name ∈ classes.map ImportLine.name ↔
    ∃ struct ∈ structsOf files, struct.name = name
  allEnums : ∀ name, name ∈ enums.map ImportLine.name ↔
    ∃ file ∈ files, DefinesEnum name file.contents
  classLines : ∀ line ∈ classes, Leads files "generated_classes/index.zig" line DefinesClass
  enumLines : ∀ line ∈ enums, Leads files "generated_classes/index.zig" line DefinesEnum

structure Closed (files : List GeneratedFile) : Prop where
  components : ∀ file ∈ files, ∀ contents, file.contents = .component contents →
    FileClosed files file.path contents
  exported : ∃ enums classes, Exported files enums classes

/-! ### The types of a signature -/

theorem signature_types {collected : Collected} {method : Method} {emitted : EmittedMethod}
    (h : Signature collected method emitted) {type : ZigType} (hmem : type ∈ emittedTypes emitted) :
    ∃ typeRef ∈ methodTypes method, ∃ returning,
      zigType collected typeRef returning = some type := by
  obtain hparameter | hreturn := List.mem_append.mp hmem
  · obtain ⟨parameter, hmember, rfl⟩ := List.mem_map.mp hparameter
    obtain ⟨argument, hargument, hrender⟩ := (mem_mapM_iff h.parameters parameter).mp hmember
    refine ⟨argument.type, List.mem_append_left _ (List.mem_map_of_mem hargument), false, ?_⟩
    unfold renderArgument at hrender
    split at hrender
    next => exact absurd hrender (by simp)
    next type htype => rw [htype, ← Except.ok.inj hrender]
  · have hsome := Option.mem_toList.mp hreturn
    have htype := h.returnType
    unfold methodReturnType at htype
    split at htype
    next => exact absurd ((Except.ok.inj htype).trans hsome) (Option.some_ne_none type).symm
    next returnValue hvalue =>
      split at htype
      next => exact absurd htype (by simp)
      next found hfound =>
        refine ⟨returnValue, List.mem_append_right _ (Option.mem_toList.mpr hvalue), true, ?_⟩
        rw [hfound, Except.ok.inj htype, hsome]

/-- The types of the ABI are written for the names that the generator looks for. -/
def abiTypeNames : List String :=
  ["Vector2", "Vector3", "Color", "Transform2D", "Transform3D", "Rect2"]

/-- A type is written for the first name it is looked up under, or for a later one. -/
theorem named_cases {name key : String} {type found : ZigType} {later : Option ZigType}
    (h : (if name = key then some found else later) = some type) :
    name = key ∧ found = type ∨ later = some type := by
  by_cases hname : name = key
  · rw [if_pos hname] at h
    exact .inl ⟨hname, Option.some.inj h⟩
  · rw [if_neg hname] at h
    exact .inr h

theorem valueType_cases {name : String} {type : ZigType} (h : valueType name = some type) :
    type ∈ [.bool, .int, .float] ∨
      type ∈ [.vector2, .vector3, .color, .transform2d, .transform3d, .rect2] ∧
        name ∈ abiTypeNames := by
  unfold valueType at h
  iterate 9
    obtain ⟨rfl, rfl⟩ | h := named_cases h
    · decide
  exact absurd h (Option.some_ne_none type).symm

/-- What a type is written as, and what is collected for it then. -/
theorem zigType_cases {collected : Collected} {typeRef : TypeRef} {returning : Bool}
    {type : ZigType} (h : zigType collected typeRef returning = some type) :
    valueType typeRef.name = some type ∨ type = .bytes ∨
      (∃ reference, type = .enum reference ∧ (enumReference typeRef.name).isSome = true ∧
        collected.enumTypes typeRef.name = some reference) ∨
      enumReference typeRef.name = none ∧ typeRef.name ∈ collected.generatedNames ∧
        (type = .object typeRef.name ∨ type = .optionalObject typeRef.name) := by
  unfold zigType at h
  split at h
  next value hvalue =>
    rw [hvalue, h]
    exact .inl rfl
  next =>
    split_ifs at h with hstring henum hgenerated hrequired
    · exact .inr (.inl (Option.some.inj h).symm)
    · obtain ⟨reference, hreference, rfl⟩ := Option.map_eq_some_iff.mp h
      exact .inr (.inr (.inl ⟨reference, rfl, henum, hreference⟩))
    · refine .inr (.inr (.inr ⟨?_, hgenerated, .inl (Option.some.inj h).symm⟩))
      simpa using henum
    · refine .inr (.inr (.inr ⟨?_, hgenerated, .inr (Option.some.inj h).symm⟩))
      simpa using henum

/-- The reference to an enum is collected under the name that it is read from. -/
theorem enumTypes_eq {api : ExtensionApi} {collected : Collected} {typeRef : TypeRef}
    (h : Supplied api collected typeRef) (hsome : (enumReference typeRef.name).isSome = true) :
    collected.enumTypes typeRef.name = enumReference typeRef.name := by
  obtain ⟨⟨_ | owner, name⟩, href⟩ := Option.isSome_iff_exists.mp hsome
  · rw [(h.globalEnum name href).1, href]
  · rw [(h.classEnum owner name href).2.1, href]

/-! ### The lines of a file -/

theorem mem_importedClasses_iff {bindings : ResolvedBindings} {components : List ClassComponent}
    {own : ℕ} {dependencies : Matrix} {members : List String} {target : String} :
    target ∈ importedClasses bindings components own dependencies members ↔
      ∃ source ∈ members, target ∈ classTargets bindings components own dependencies source := by
  induction members using List.reverseRecOn with
  | nil => simp [importedClasses]
  | append_singleton members source ih =>
    rw [importedClasses] at ih ⊢
    rw [List.foldl_append, List.foldl_cons, List.foldl_nil, List.mem_append, ih, List.mem_filter,
      decide_eq_true_eq]
    constructor
    · rintro (⟨other, hother, htarget⟩ | ⟨htarget, -⟩)
      · exact ⟨other, List.mem_append_left _ hother, htarget⟩
      · exact ⟨source, List.mem_append_right _ (List.mem_singleton_self source), htarget⟩
    · rintro ⟨other, hother, htarget⟩
      by_cases hmem : ∃ earlier ∈ members,
          target ∈ classTargets bindings components own dependencies earlier
      · exact .inl hmem
      · obtain hold | hnew := List.mem_append.mp hother
        · exact absurd ⟨other, hold, htarget⟩ hmem
        · obtain rfl := List.mem_singleton.mp hnew
          exact .inr ⟨htarget, fun hearlier ↦ hmem (ih.mp hearlier)⟩

theorem renderResolvedClass_fields {bindings : ResolvedBindings} {name : String}
    {struct : ClassStruct} (h : renderResolvedClass bindings name = .ok struct) :
    struct.name = name ∧ struct.enums = bindings.collected.classEnums name := by
  unfold renderResolvedClass at h
  split_ifs at h
  · obtain rfl := Except.ok.inj h
    exact ⟨rfl, rfl⟩
  · obtain ⟨chain, -, h⟩ := bind_eq_ok.mp h
    obtain ⟨own, -, h⟩ := bind_eq_ok.mp h
    obtain ⟨inherited, -, h⟩ := bind_eq_ok.mp h
    obtain rfl := Except.ok.inj h
    exact ⟨rfl, rfl⟩

/-- A component file of a tree. -/
structure Component (bindings : ResolvedBindings) (dependencies : Matrix)
    (files : List GeneratedFile) (own : ℕ) (component : ClassComponent) (file : ComponentFile) :
    Prop where
  resolved : Resolved bindings
  rendered : Rendered bindings dependencies files
  place : (componentsOf bindings dependencies)[own]? = some component
  contents : renderClassComponent bindings (componentsOf bindings dependencies) dependencies own
    component = .ok file

variable {bindings : ResolvedBindings} {dependencies : Matrix} {files : List GeneratedFile}
  {own : ℕ} {component : ClassComponent} {file : ComponentFile}

namespace Component

theorem fields (h : Component bindings dependencies files own component file) :
    file.usesAbi = componentUsesAbi bindings component.members ∧
      file.globalEnums = (bindings.collected.globalEnums.filter fun entry ↦
        componentUsesGlobalEnum bindings component.members entry.name).map (fun entry ↦
          ⟨entry.name, "../global_enums.zig"⟩) ∧
      file.classes = (importedClasses bindings (componentsOf bindings dependencies) own dependencies
        component.members).map (fun name ↦ ⟨name, relativeComponentPath component.path
          (pathOf (componentsOf bindings dependencies) name)⟩) := by
  obtain ⟨structs, -, hcontents⟩ := bind_eq_ok.mp h.contents
  obtain rfl := Except.ok.inj hcontents
  exact ⟨rfl, rfl, rfl⟩

theorem mem_structs_iff (h : Component bindings dependencies files own component file)
    (struct : ClassStruct) :
    struct ∈ file.structs ↔
      ∃ name ∈ component.members, renderResolvedClass bindings name = .ok struct :=
  structs_of_render h.contents struct

theorem member_generated (h : Component bindings dependencies files own component file)
    {name : String} (hname : name ∈ component.members) :
    name ∈ bindings.collected.generatedNames :=
  members_generated (List.mem_of_getElem? h.place) hname

/-- Every member has a struct in the file. -/
theorem exists_struct (h : Component bindings dependencies files own component file)
    {name : String} (hname : name ∈ component.members) :
    ∃ struct ∈ file.structs, struct.name = name := by
  obtain ⟨structs, hstructs, hcontents⟩ := bind_eq_ok.mp h.contents
  obtain rfl := Except.ok.inj hcontents
  obtain ⟨struct, hmem, hrender⟩ := exists_of_mapM_eq_ok hstructs hname
  exact ⟨struct, hmem, (renderResolvedClass_fields hrender).1⟩

/-- A generated class that a member depends on is known in the file. -/
theorem classKnown_of_edge (h : Component bindings dependencies files own component file)
    {name target : String} {source index : ℕ} (hname : name ∈ component.members)
    (hsource : classIndex bindings.collected.generatedNames name = some source)
    (htarget : target ∈ bindings.collected.generatedNames)
    (hindex : classIndex bindings.collected.generatedNames target = some index)
    (hedge : dependencies source index = true) : ClassKnown file target := by
  by_cases hown : componentOf (componentsOf bindings dependencies) target = some own
  · obtain ⟨hlt, hmember, -⟩ := List.findIdx?_eq_some_iff_getElem.mp hown
    have hsame : (componentsOf bindings dependencies)[own] = component := by
      rw [← Option.some.injEq, ← List.getElem?_eq_getElem hlt, h.place]
    rw [hsame] at hmember
    exact .inl (h.exists_struct (of_decide_eq_true hmember))
  · have himported : target ∈ importedClasses bindings (componentsOf bindings dependencies) own
        dependencies component.members := by
      refine mem_importedClasses_iff.mpr ⟨name, hname, List.mem_filter.mpr ⟨htarget, ?_⟩⟩
      rw [Bool.and_eq_true, decide_eq_true_iff, hsource, hindex]
      exact ⟨hown, hedge⟩
    refine .inr ?_
    rw [h.fields.2.2]
    exact ⟨_, List.mem_map_of_mem himported, rfl⟩

/-- A generated class that a root inherits from, or that the type of one of its methods needs, is
known in the file of the root. -/
theorem classKnown_of_target (h : Component bindings dependencies files own component file)
    {name target : String} {chain : List Api.Class} (hname : name ∈ component.members)
    (hshell : name ∉ bindings.collected.shells)
    (hchain : bindings.api.inheritanceChain name = .ok chain)
    (hgenerated : target ∈ bindings.collected.generatedNames)
    (htarget : target ∈ chain.dropLast.map Api.Class.name ∨
      ∃ typeRef ∈ ((bindings.methodsByClass name).getD []).flatMap methodTypes,
        typeClass typeRef = some target) : ClassKnown file target := by
  obtain ⟨source, hsource, hmem⟩ := classIndex_of_mem (h.member_generated hname)
  obtain ⟨index, hindex, -⟩ := classIndex_of_mem hgenerated
  exact h.classKnown_of_edge hname hsource hgenerated hindex
    (dependency_edge h.rendered.matrix hmem hshell hchain hindex htarget)

theorem typeRef_member {name : String} {typeRef : TypeRef} (hname : name ∈ component.members)
    (htypeRef : typeRef ∈ ((bindings.methodsByClass name).getD []).flatMap methodTypes) :
    typeRef ∈ memberTypes bindings component.members :=
  List.mem_flatMap.mpr ⟨name, hname, htypeRef⟩

/-- A collected enum that the types of a member need is bound by a line. -/
theorem enumLine (h : Component bindings dependencies files own component file) {name : String}
    {entry : ApiEnum} {typeRef : TypeRef} (hentry : entry ∈ bindings.collected.globalEnums)
    (htypeRef : typeRef ∈ memberTypes bindings component.members)
    (href : enumReference typeRef.name = some ⟨none, name⟩) (hname : entry.name = name) :
    ∃ line ∈ file.globalEnums, line.name = name := by
  rw [h.fields.2.1]
  refine ⟨⟨entry.name, "../global_enums.zig"⟩, List.mem_map.mpr ⟨entry, ?_, rfl⟩, hname⟩
  refine List.mem_filter.mpr ⟨hentry, List.any_eq_true.mpr ⟨typeRef, htypeRef, ?_⟩⟩
  rw [typeUsesGlobalEnum, href]
  exact decide_eq_true hname.symm

/-- The values that are written for the types of a member are known in its file. -/
theorem valueKnown (h : Component bindings dependencies files own component file)
    {typeRef : TypeRef} {type : ZigType}
    (htypeRef : typeRef ∈ memberTypes bindings component.members)
    (hvalue : valueType typeRef.name = some type) : TypeKnown files file type := by
  have habi : typeRef.name ∈ abiTypeNames → file.usesAbi = true := by
    intro hnamed
    rw [h.fields.1]
    exact List.any_eq_true.mpr ⟨typeRef, htypeRef, decide_eq_true hnamed⟩
  obtain hplain | ⟨hplain, hnamed⟩ := valueType_cases hvalue
  · simp only [List.mem_cons, List.not_mem_nil, or_false] at hplain
    obtain rfl | rfl | rfl := hplain
    all_goals trivial
  · simp only [List.mem_cons, List.not_mem_nil, or_false] at hplain
    obtain rfl | rfl | rfl | rfl | rfl | rfl := hplain
    all_goals exact habi hnamed

/-- A collected enum of a generated class is defined in the struct of the class. -/
theorem classEnumDefined (h : Component bindings dependencies files own component file)
    {owner : String} {entry : ApiEnum} (howner : owner ∈ bindings.collected.generatedNames)
    (hentry : entry ∈ bindings.collected.classEnums owner) :
    ClassEnumDefined files owner entry.name := by
  obtain ⟨struct, hstruct, hrender⟩ := TreeContents.exists_struct h.rendered howner
  obtain ⟨hname, henums⟩ := renderResolvedClass_fields hrender
  exact ⟨struct, hstruct, hname, entry, henums ▸ hentry, rfl⟩

/-- The types that are written for the methods of a root are known in its file. -/
theorem typeKnown (h : Component bindings dependencies files own component file) {name : String}
    {typeRef : TypeRef} {returning : Bool} {type : ZigType} (hname : name ∈ component.members)
    (hroot : name ∈ bindings.rootNames)
    (htypeRef : typeRef ∈ ((bindings.methodsByClass name).getD []).flatMap methodTypes)
    (htype : zigType bindings.collected typeRef returning = some type) :
    TypeKnown files file type := by
  have hmember := typeRef_member hname htypeRef
  have hsupplied := h.resolved.supplied typeRef (List.mem_flatMap.mpr ⟨name, hroot, htypeRef⟩)
  obtain ⟨entry, ancestors, methods, hlineage, -, -, -⟩ := exists_rootStruct h.resolved hroot
  have hknown : ∀ target ∈ bindings.collected.generatedNames, typeClass typeRef = some target →
      ClassKnown file target := fun target hgenerated hclass ↦
    h.classKnown_of_target hname (h.resolved.root_not_shell hroot)
      (inheritanceChain_of_lineage hlineage) hgenerated (.inr ⟨typeRef, htypeRef, hclass⟩)
  obtain hvalue | rfl | ⟨reference, rfl, hsome, hcollected⟩ | ⟨href, hgenerated, hobject⟩ :=
    zigType_cases htype
  · exact h.valueKnown hmember hvalue
  · trivial
  · have href : enumReference typeRef.name = some reference :=
      (enumTypes_eq hsupplied hsome).symm.trans hcollected
    obtain ⟨_ | owner, enumName⟩ := reference
    · obtain ⟨-, entry, hentry, hentryName⟩ := hsupplied.globalEnum enumName href
      exact h.enumLine hentry hmember href hentryName
    · obtain ⟨howner, -, entry, hentry, rfl⟩ := hsupplied.classEnum owner enumName href
      exact ⟨hknown owner howner (by rw [typeClass, href]), h.classEnumDefined howner hentry⟩
  · have hobjectKnown := hknown typeRef.name hgenerated (by rw [typeClass, href])
    obtain rfl | rfl := hobject
    · exact hobjectKnown
    · exact hobjectKnown

/-! ### Where the lines lead -/

/-- The path of a component has the form that the lines rely on. -/
theorem path_eq (h : Component bindings dependencies files own component file)
    (hslash : ∀ name ∈ bindings.collected.generatedNames, '/' ∉ name.toList) :
    ∃ directory stem, '/' ∉ stem ∧
      component.path = pathOfParts (componentParts directory stem) := by
  obtain ⟨indices, -, rfl⟩ := List.mem_map.mp (List.mem_of_getElem? h.place)
  exact componentPath_eq fun member hmember ↦ hslash member (h.member_generated hmember)

/-- The component of a generated class, with its file. -/
theorem exists_componentFile (hresolved : Resolved bindings)
    (hrendered : Rendered bindings dependencies files) {name : String}
    (hname : name ∈ bindings.collected.generatedNames) :
    ∃ own component file, Component bindings dependencies files own component file ∧
      name ∈ component.members ∧ pathOf (componentsOf bindings dependencies) name = component.path ∧
      ⟨component.path, .component file⟩ ∈ files := by
  obtain ⟨found, hfound, hmember⟩ := exists_componentOf hrendered.matrix hname
  have hsome : (componentOf (componentsOf bindings dependencies) name).isSome = true := by
    rw [componentOf, List.findIdx?_isSome, List.any_eq_true]
    exact ⟨found, hfound, decide_eq_true hmember⟩
  obtain ⟨own, hown⟩ := Option.isSome_iff_exists.mp hsome
  obtain ⟨hlt, hmember, -⟩ := List.findIdx?_eq_some_iff_getElem.mp hown
  have hplace := List.getElem?_eq_getElem hlt
  obtain ⟨file, hfile⟩ := hrendered.component own _ hplace
  obtain ⟨paths, hfiles⟩ := hrendered.mem_iff
  refine ⟨own, _, file, ⟨hresolved, hrendered, hplace, hfile⟩, of_decide_eq_true hmember, ?_, ?_⟩
  · rw [pathOf, hown, Option.bind_some, hplace]
  · exact (hfiles _).mpr (.inr (.inr (.inl ⟨own, _, file, hplace, hfile, rfl⟩)))

/-- A line with the path to the component of a generated class leads to its struct. -/
theorem leads_class (hresolved : Resolved bindings)
    (hrendered : Rendered bindings dependencies files) {importer relative name : String}
    (hname : name ∈ bindings.collected.generatedNames)
    (hpath : importTarget importer relative = pathOf (componentsOf bindings dependencies) name) :
    Leads files importer ⟨name, relative⟩ DefinesClass := by
  obtain ⟨own, component, file, h, hmember, hcomponent, hfile⟩ :=
    exists_componentFile hresolved hrendered hname
  exact ⟨_, hfile, (hpath.trans hcomponent).symm, h.exists_struct hmember⟩

theorem leads_enum (hrendered : Rendered bindings dependencies files) {importer relative : String}
    {entry : ApiEnum} (hentry : entry ∈ bindings.collected.globalEnums)
    (hpath : importTarget importer relative = "generated_classes/global_enums.zig") :
    Leads files importer ⟨entry.name, relative⟩ DefinesEnum := by
  obtain ⟨paths, hfiles⟩ := hrendered.mem_iff
  exact ⟨_, (hfiles _).mpr (.inr (.inl rfl)), hpath.symm, entry, hentry, rfl⟩

/-- The struct of a member is one of a shell, or one of a root. -/
theorem struct_cases (h : Component bindings dependencies files own component file)
    {struct : ClassStruct} (hstruct : struct ∈ file.structs) :
    struct.methods = [] ∧ struct.upcasts = [] ∨
      ∃ name ∈ component.members, name ∈ bindings.rootNames ∧ ∃ chain methods,
        bindings.api.inheritanceChain name = .ok chain ∧
        bindings.methodsByClass name = some methods ∧
        RootStruct bindings name chain methods struct := by
  obtain ⟨name, hname, hrender⟩ := (h.mem_structs_iff struct).mp hstruct
  by_cases hroot : name ∈ bindings.rootNames
  · obtain ⟨methods, hmethods, hselected⟩ := h.resolved.methods name hroot
    obtain ⟨chain, hchain, -⟩ := bind_eq_ok.mp hselected
    exact .inr ⟨name, hname, hroot, chain, methods, hchain, hmethods,
      renderResolvedClass_root (h.resolved.root_not_shell hroot) hchain hmethods hrender⟩
  · have hgenerated := h.member_generated hname
    rw [h.resolved.coherent.generated] at hgenerated
    rw [renderResolvedClass, if_pos ((List.mem_append.mp hgenerated).resolve_left hroot)] at hrender
    obtain rfl := Except.ok.inj hrender
    exact .inl ⟨rfl, rfl⟩

/-- A component file is closed under names. -/
theorem closed (h : Component bindings dependencies files own component file)
    (hslash : ∀ name ∈ bindings.collected.generatedNames, '/' ∉ name.toList) :
    FileClosed files component.path file := by
  obtain ⟨directory, stem, hstem, hpath⟩ := h.path_eq hslash
  obtain ⟨henums, habi, hsupport⟩ := @importTarget_shared directory stem hstem
  refine ⟨fun struct hstruct emitted hemitted type htype ↦ ?_,
    fun struct hstruct ancestor hmem ↦ ?_, fun line hline ↦ ?_, fun line hline ↦ ?_,
    hpath ▸ habi, hpath ▸ hsupport⟩
  · obtain ⟨hnone, -⟩ | ⟨name, hname, hroot, chain, methods, -, hmethods, hroots⟩ :=
      h.struct_cases hstruct
    · rw [hnone] at hemitted
      exact absurd hemitted List.not_mem_nil
    · obtain ⟨method, hmethod, declaring, -, hrendered⟩ := hroots.emitted emitted hemitted
      obtain ⟨typeRef, htypeRef, returning, hwritten⟩ := signature_types hrendered.signature htype
      refine h.typeKnown hname hroot ?_ hwritten
      rw [hmethods, Option.getD_some]
      exact List.mem_flatMap.mpr ⟨method, hmethod, htypeRef⟩
  · obtain ⟨-, hnone⟩ | ⟨name, hname, hroot, chain, methods, hchain, -, hroots⟩ :=
      h.struct_cases hstruct
    · rw [hnone] at hmem
      exact absurd hmem List.not_mem_nil
    · obtain ⟨hancestor, entry, hentry, rfl⟩ := (hroots.upcasts ancestor).mp hmem
      exact h.classKnown_of_target hname (h.resolved.root_not_shell hroot) hchain
        (h.resolved.root_generated hancestor) (.inl (List.mem_map_of_mem hentry))
  · rw [h.fields.2.2] at hline
    obtain ⟨name, himported, rfl⟩ := List.mem_map.mp hline
    obtain ⟨source, -, htarget⟩ := mem_importedClasses_iff.mp himported
    have hgenerated := (List.mem_filter.mp htarget).1
    refine leads_class h.resolved h.rendered hgenerated ?_
    obtain ⟨place, other, otherFile, hother, -, hotherPath, -⟩ :=
      exists_componentFile h.resolved h.rendered hgenerated
    obtain ⟨otherDirectory, otherStem, hotherStem, hotherEq⟩ := hother.path_eq hslash
    rw [hotherPath, hpath, hotherEq]
    exact importTarget_relative hstem hotherStem
  · rw [h.fields.2.1] at hline
    obtain ⟨entry, hentry, rfl⟩ := List.mem_map.mp hline
    exact leads_enum h.rendered (List.mem_filter.mp hentry).1 (hpath ▸ henums)

end Component

/-! ### The index and the facade -/

end Gzscript.Bindings.NameClosure
