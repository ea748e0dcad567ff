import Gzscript.Bindings.Tree

/-!
# What is in the generated tree

A tree that `renderTree` returns has a file for each component of classes and five more
(`Rendered.mem_iff`). Each generated class is in one component, so its struct is in the file of that
component, and there are no other structs (`mem_structsOf_iff`).
-/

set_option autoImplicit false
set_option relaxedAutoImplicit false

namespace Gzscript.Bindings.TreeContents

open Library.Fallible Library.Sorting Api Selection Resolve Rendering Components Bindings.Tree

/-! ### The structs -/

def structsIn : Contents → List ClassStruct
  | .component file => file.structs
  | .sentinel => []
  | .globalEnums _ => []
  | .index _ _ => []
  | .facade _ _ _ => []
  | .manifest _ => []

/-- The structs of all files. -/
def structsOf (files : List GeneratedFile) : List ClassStruct :=
  files.flatMap fun file ↦ structsIn file.contents

/-! ### The files -/

/-- The components of some bindings with these dependencies. -/
def componentsOf (bindings : ResolvedBindings) (dependencies : Matrix) : List ClassComponent :=
  classComponents bindings.collected.generatedNames
    (reachabilityMatrix bindings.collected.generatedNames.length dependencies)

/-- The file of a component. -/
def IsComponentFile (bindings : ResolvedBindings) (dependencies : Matrix) (file : GeneratedFile) :
    Prop :=
  ∃ own component contents, (componentsOf bindings dependencies)[own]? = some component ∧
    renderClassComponent bindings (componentsOf bindings dependencies) dependencies own component =
      .ok contents ∧
    file = ⟨component.path, .component contents⟩

/-- What is known of a tree that has been rendered. -/
structure Rendered (bindings : ResolvedBindings) (dependencies : Matrix)
    (files : List GeneratedFile) : Prop where
  matrix : dependencyMatrix bindings = .ok dependencies
  component : ∀ own component, (componentsOf bindings dependencies)[own]? = some component →
    ∃ contents, renderClassComponent bindings (componentsOf bindings dependencies) dependencies own
      component = .ok contents
  mem_iff : ∃ paths, ∀ file, file ∈ files ↔
    file = ⟨"generated_classes/.generated-bindings", .sentinel⟩ ∨
      file = ⟨"generated_classes/global_enums.zig", .globalEnums bindings.collected.globalEnums⟩ ∨
      IsComponentFile bindings dependencies file ∨
      file = ⟨"generated_classes/index.zig",
        renderGeneratedIndex bindings (componentsOf bindings dependencies)⟩ ∨
      file = ⟨"class.zig", renderClassFacade bindings⟩ ∨
      file = ⟨"generated_classes/manifest.txt", .manifest paths⟩

variable {bindings : ResolvedBindings} {dependencies : Matrix} {files : List GeneratedFile}

theorem mem_sortFiles_iff (file : GeneratedFile) : file ∈ sortFiles files ↔ file ∈ files :=
  (stableSort_perm _ files).mem_iff

theorem rendered_of_ok (h : renderResolvedTree bindings = .ok files) :
    ∃ dependencies, Rendered bindings dependencies files := by
  obtain ⟨dependencies, hdependencies, h⟩ := bind_eq_ok.mp h
  obtain ⟨componentFiles, hfiles, h⟩ := bind_eq_ok.mp h
  have hmem : ∀ file, file ∈ componentFiles ↔ IsComponentFile bindings dependencies file := by
    intro file
    rw [mem_mapM_iff hfiles]
    constructor
    · rintro ⟨⟨component, own⟩, hmem, hfile⟩
      obtain ⟨contents, hcontents, hfile⟩ := bind_eq_ok.mp hfile
      exact ⟨own, component, contents, List.mem_zipIdx_iff_getElem?.mp hmem, hcontents,
        (Except.ok.inj hfile).symm⟩
    · rintro ⟨own, component, contents, hmem, hcontents, rfl⟩
      exact ⟨⟨component, own⟩, List.mem_zipIdx_iff_getElem?.mpr hmem,
        bind_eq_ok.mpr ⟨contents, hcontents, rfl⟩⟩
  refine ⟨dependencies, hdependencies, fun own component hown ↦ ?_, ?_⟩
  · obtain ⟨file, -, hfile⟩ := exists_of_mapM_eq_ok hfiles
      (List.mem_zipIdx_iff_getElem?.mpr hown : (component, own) ∈ _)
    obtain ⟨contents, hcontents, -⟩ := bind_eq_ok.mp hfile
    exact ⟨contents, hcontents⟩
  · obtain rfl := Except.ok.inj h
    refine ⟨manifestPaths (sortFiles
      ([⟨"generated_classes/.generated-bindings", .sentinel⟩,
          ⟨"generated_classes/global_enums.zig", .globalEnums bindings.collected.globalEnums⟩] ++
        componentFiles ++
        [⟨"generated_classes/index.zig",
            renderGeneratedIndex bindings (componentsOf bindings dependencies)⟩,
          ⟨"class.zig", renderClassFacade bindings⟩])), fun file ↦ ?_⟩
    simp only [mem_sortFiles_iff, List.mem_append, List.mem_cons, List.not_mem_nil, or_false, hmem,
      or_assoc]
    rfl

theorem renderTree_eq_ok {api : ExtensionApi} {profile : Option (List (Option String))}
    (h : renderTree api profile = .ok files) :
    ∃ roots bindings, profile = some roots ∧ resolveBindings api roots = .ok bindings ∧
      renderResolvedTree bindings = .ok files := by
  unfold renderTree at h
  split_ifs at h
  rcases profile with _ | roots
  · exact absurd h (by simp)
  · obtain ⟨bindings, hbindings, h⟩ := bind_eq_ok.mp h
    exact ⟨roots, bindings, rfl, hbindings, h⟩

/-! ### The components of the generated classes -/

theorem mem_members_iff {generatedNames : List String} {indices : List ℕ} {name : String} :
    name ∈ sortNames (indices.filterMap fun index ↦ generatedNames[index]?) ↔
      ∃ index ∈ indices, generatedNames[index]? = some name := by
  rw [sortNames, (stableSort_perm _ _).mem_iff, List.mem_filterMap]

theorem members_generated {generatedNames : List String} {reachability : Matrix}
    {component : ClassComponent} (h : component ∈ classComponents generatedNames reachability)
    {name : String} (hname : name ∈ component.members) : name ∈ generatedNames := by
  obtain ⟨indices, -, rfl⟩ := List.mem_map.mp h
  obtain ⟨index, -, hindex⟩ := mem_members_iff.mp hname
  exact List.mem_of_getElem? hindex

/-- Every generated class is in a component. -/
theorem exists_componentOf (hdependencies : dependencyMatrix bindings = .ok dependencies)
    {name : String} (hname : name ∈ bindings.collected.generatedNames) :
    ∃ component ∈ componentsOf bindings dependencies, name ∈ component.members := by
  obtain ⟨index, hindex, hget⟩ := List.mem_iff_getElem.mp hname
  obtain ⟨indices, hindices, hmem⟩ := exists_component
    (fun other ↦ reachability_self hdependencies bindings.collected.generatedNames.length other)
    (List.range bindings.collected.generatedNames.length) (List.mem_range.mpr hindex) hindex
    List.not_mem_nil
  refine ⟨_, List.mem_map.mpr ⟨indices, hindices, rfl⟩, mem_members_iff.mpr ⟨index, hmem, ?_⟩⟩
  rw [List.getElem?_eq_getElem hindex, hget]

/-! ### The structs of the tree -/

theorem structs_of_render {components : List ClassComponent} {own : ℕ} {component : ClassComponent}
    {contents : ComponentFile}
    (h : renderClassComponent bindings components dependencies own component = .ok contents)
    (struct : ClassStruct) :
    struct ∈ contents.structs ↔
      ∃ name ∈ component.members, renderResolvedClass bindings name = .ok struct := by
  obtain ⟨structs, hstructs, h⟩ := bind_eq_ok.mp h
  obtain rfl := Except.ok.inj h
  exact mem_mapM_iff hstructs struct

/-- Only the files of components have structs. -/
theorem mem_structsOf_components (h : Rendered bindings dependencies files)
    (struct : ClassStruct) :
    struct ∈ structsOf files ↔ ∃ own component contents,
      (componentsOf bindings dependencies)[own]? = some component ∧
      renderClassComponent bindings (componentsOf bindings dependencies) dependencies own
        component = .ok contents ∧
      struct ∈ contents.structs := by
  obtain ⟨paths, hmem⟩ := h.mem_iff
  constructor
  · intro hstruct
    obtain ⟨file, hfile, hstruct⟩ := List.mem_flatMap.mp hstruct
    obtain rfl | rfl | ⟨own, component, contents, hown, hcontents, rfl⟩ | rfl | rfl | rfl :=
      (hmem file).mp hfile
    · exact absurd hstruct List.not_mem_nil
    · exact absurd hstruct List.not_mem_nil
    · exact ⟨own, component, contents, hown, hcontents, hstruct⟩
    · exact absurd hstruct List.not_mem_nil
    · exact absurd hstruct List.not_mem_nil
    · exact absurd hstruct List.not_mem_nil
  · rintro ⟨own, component, contents, hown, hcontents, hstruct⟩
    refine List.mem_flatMap.mpr ⟨⟨component.path, .component contents⟩, ?_, hstruct⟩
    exact (hmem _).mpr (.inr (.inr (.inl ⟨own, component, contents, hown, hcontents, rfl⟩)))

/-- The structs of the tree are those of the generated classes. -/
theorem mem_structsOf_iff (h : Rendered bindings dependencies files) (struct : ClassStruct) :
    struct ∈ structsOf files ↔ ∃ name ∈ bindings.collected.generatedNames,
      renderResolvedClass bindings name = .ok struct := by
  rw [mem_structsOf_components h]
  constructor
  · rintro ⟨own, component, contents, hown, hcontents, hstruct⟩
    obtain ⟨name, hname, hrender⟩ := (structs_of_render hcontents struct).mp hstruct
    exact ⟨name, members_generated (List.mem_of_getElem? hown) hname, hrender⟩
  · rintro ⟨name, hname, hrender⟩
    obtain ⟨component, hcomponent, hmember⟩ := exists_componentOf h.matrix hname
    obtain ⟨own, hown⟩ := List.mem_iff_getElem?.mp hcomponent
    obtain ⟨contents, hcontents⟩ := h.component own component hown
    exact ⟨own, component, contents, hown, hcontents,
      (structs_of_render hcontents struct).mpr ⟨name, hmember, hrender⟩⟩

/-- The struct of every generated class is in the tree. -/
theorem exists_struct (h : Rendered bindings dependencies files) {name : String}
    (hname : name ∈ bindings.collected.generatedNames) :
    ∃ struct ∈ structsOf files, renderResolvedClass bindings name = .ok struct := by
  obtain ⟨component, hcomponent, hmember⟩ := exists_componentOf h.matrix hname
  obtain ⟨own, hown⟩ := List.mem_iff_getElem?.mp hcomponent
  obtain ⟨contents, hcontents⟩ := h.component own component hown
  obtain ⟨structs, hstructs, -⟩ := bind_eq_ok.mp hcontents
  obtain ⟨struct, -, hrender⟩ := exists_of_mapM_eq_ok hstructs hmember
  exact ⟨struct, (mem_structsOf_iff h struct).mpr ⟨name, hname, hrender⟩, hrender⟩

end Gzscript.Bindings.TreeContents
