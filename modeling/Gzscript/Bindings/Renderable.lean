import Gzscript.Bindings.RootStructs
import Gzscript.Bindings.TreeContents

/-!
# What is selected can be rendered

Three tests look at the name of a type: whether the bindings support it, what has to be collected
for it, and how it is written. A type that is supported is collected without an error, and is
written from then on; no other type is (`supported_iff`). Since only methods with supported types
are selected, and the chain of every root has been followed before, what has been resolved is
rendered without an error (`exists_files`).
-/

set_option autoImplicit false
set_option relaxedAutoImplicit false

namespace Gzscript.Bindings.Renderable

open Library.Fallible Api Selection Resolve Rendering RootStructs Components Bindings.Tree
  TreeContents

/-! ### Supported types -/

variable {api : ExtensionApi} {collected : Collected}

theorem enumReference_valueTypes {name : String} (h : name ∈ valueTypes) :
    enumReference name = none := by
  have hall : ∀ other ∈ valueTypes, enumReference other = none := by decide
  exact hall name h

theorem enumReference_stringTypes {name : String} (h : name ∈ stringTypes) :
    enumReference name = none := by
  have hall : ∀ other ∈ stringTypes, enumReference other = none := by decide
  exact hall name h

theorem valueType_isSome_iff (name : String) :
    (valueType name).isSome = true ↔ name ∈ valueTypes := by
  simp only [valueTypes, List.mem_cons, List.not_mem_nil, or_false]
  unfold valueType
  split_ifs <;> simp_all

theorem collect_of_no_enum {typeRef : TypeRef} (h : enumReference typeRef.name = none)
    (collected : Collected) : ∃ next, collectTypeDependencies api collected typeRef = .ok next := by
  unfold collectTypeDependencies
  rw [h]
  split_ifs
  · exact ⟨_, rfl⟩
  · exact ⟨_, rfl⟩

/-- An enum is supported exactly if it can be collected. -/
theorem supported_enum_iff {typeRef : TypeRef} (returning : Bool)
    (h : (enumReference typeRef.name).isSome = true) (collected : Collected) :
    typeSupported api typeRef returning = true ↔
      ∃ next, collectTypeDependencies api collected typeRef = .ok next := by
  have hvalue : typeRef.name ∉ valueTypes := fun hmem ↦ by
    rw [enumReference_valueTypes hmem] at h
    exact absurd h Bool.false_ne_true
  have hstring : typeRef.name ∉ stringTypes := fun hmem ↦ by
    rw [enumReference_stringTypes hmem] at h
    exact absurd h Bool.false_ne_true
  unfold typeSupported collectTypeDependencies
  rw [if_neg hvalue, if_neg fun hboth ↦ hstring hboth.2]
  obtain ⟨⟨_ | owner, name⟩, href⟩ := Option.isSome_iff_exists.mp h
  · rw [href]
    rcases hentry : api.globalEnum name with _ | entry
    · simp [hentry]
    · simp [hentry]
  · rw [href]
    rcases hclass : api.class? owner with _ | entry
    · simp [hclass]
    · rcases hentry : entry.apiEnum name with _ | found
      · simp [hclass, hentry]
      · simp [hclass, hentry]

/-- Why a type is supported. -/
theorem supported_cases (typeRef : TypeRef) (returning : Bool) (collected : Collected) :
    typeSupported api typeRef returning = true ↔
      typeRef.name ∈ valueTypes ∨ returning = false ∧ typeRef.name ∈ stringTypes ∨
        ((enumReference typeRef.name).isSome = true ∧
          ∃ next, collectTypeDependencies api collected typeRef = .ok next) ∨
        enumReference typeRef.name = none ∧ (api.class? typeRef.name).isSome = true := by
  by_cases henum : (enumReference typeRef.name).isSome = true
  · rw [supported_enum_iff returning henum collected]
    constructor
    · exact fun h ↦ .inr (.inr (.inl ⟨henum, h⟩))
    · rintro (hvalue | ⟨-, hstring⟩ | ⟨-, hnext⟩ | ⟨href, -⟩)
      · exact collect_of_no_enum (enumReference_valueTypes hvalue) collected
      · exact collect_of_no_enum (enumReference_stringTypes hstring) collected
      · exact hnext
      · exact collect_of_no_enum href collected
  · have href : enumReference typeRef.name = none := by simpa using henum
    unfold typeSupported
    rw [href]
    split_ifs with hvalue hstring
    · exact iff_of_true rfl (.inl hvalue)
    · exact iff_of_true rfl (.inr (.inl (by simpa using hstring)))
    · have hboth : ¬ (returning = false ∧ typeRef.name ∈ stringTypes) := by simpa using hstring
      simp [hvalue, hboth]

/-- When a type is written. -/
theorem zigType_isSome_iff (collected : Collected) (typeRef : TypeRef) (returning : Bool) :
    (zigType collected typeRef returning).isSome = true ↔
      typeRef.name ∈ valueTypes ∨ returning = false ∧ typeRef.name ∈ stringTypes ∨
        ((enumReference typeRef.name).isSome = true ∧
          (collected.enumTypes typeRef.name).isSome = true) ∨
        enumReference typeRef.name = none ∧ typeRef.name ∈ collected.generatedNames := by
  rw [← valueType_isSome_iff]
  unfold zigType
  split
  next type htype => simp [htype]
  next htype =>
    split_ifs with hstring henum hgenerated hrequired
    · exact iff_of_true rfl (.inr (.inl (by simpa using hstring)))
    · have hboth : ¬ (returning = false ∧ typeRef.name ∈ stringTypes) := by simpa using hstring
      have hnone : enumReference typeRef.name ≠ none := Option.isSome_iff_ne_none.mp henum
      simp [htype, hboth, henum, hnone]
    all_goals
      have hboth : ¬ (returning = false ∧ typeRef.name ∈ stringTypes) := by simpa using hstring
      have hnone : enumReference typeRef.name = none := by simpa using henum
      simp [htype, hboth, hnone, hgenerated]

/-- A type is supported exactly if it can be collected and is written then. -/
theorem supported_iff {roots : List String} (hcoherent : Coherent roots collected)
    (hfound : Found api collected) (typeRef : TypeRef) (returning : Bool) :
    typeSupported api typeRef returning = true ↔
      ∃ next, collectTypeDependencies api collected typeRef = .ok next ∧
        (zigType next typeRef returning).isSome = true := by
  rw [supported_cases typeRef returning collected]
  simp only [zigType_isSome_iff]
  constructor
  · rintro (hvalue | ⟨hreturning, hstring⟩ | ⟨henum, next, hnext⟩ | ⟨href, hclass⟩)
    · obtain ⟨next, hnext⟩ := collect_of_no_enum (enumReference_valueTypes hvalue) collected
      exact ⟨next, hnext, .inl hvalue⟩
    · obtain ⟨next, hnext⟩ := collect_of_no_enum (enumReference_stringTypes hstring) collected
      exact ⟨next, hnext, .inr (.inl ⟨hreturning, hstring⟩)⟩
    · have hsupplied := (collectTypeDependencies_supplied hcoherent hnext).2
      refine ⟨next, hnext, .inr (.inr (.inl ⟨henum, ?_⟩))⟩
      obtain ⟨⟨_ | owner, name⟩, href⟩ := Option.isSome_iff_exists.mp henum
      · rw [(hsupplied.globalEnum name href).1, Option.isSome_some]
      · rw [(hsupplied.classEnum owner name href).2.1, Option.isSome_some]
    · obtain ⟨next, hnext⟩ := collect_of_no_enum href collected
      have hsupplied := (collectTypeDependencies_supplied hcoherent hnext).2
      exact ⟨next, hnext, .inr (.inr (.inr ⟨href, hsupplied.object href hclass⟩))⟩
  · rintro ⟨next, hnext, hvalue | hstring | ⟨henum, -⟩ | ⟨href, hgenerated⟩⟩
    · exact .inl hvalue
    · exact .inr (.inl hstring)
    · exact .inr (.inr (.inl ⟨henum, next, hnext⟩))
    · exact .inr (.inr (.inr ⟨href, (found_collect hfound hnext).classes _ hgenerated⟩))

/-- What is supplied for a supported type lets it be written. -/
theorem zigType_of_supplied {typeRef : TypeRef} {returning : Bool}
    (h : typeSupported api typeRef returning = true) (hsupplied : Supplied api collected typeRef) :
    ∃ type, zigType collected typeRef returning = some type := by
  rw [← Option.isSome_iff_exists, zigType_isSome_iff]
  obtain hvalue | hstring | ⟨henum, -⟩ | ⟨href, hclass⟩ :=
    (supported_cases typeRef returning collected).mp h
  · exact .inl hvalue
  · exact .inr (.inl hstring)
  · refine .inr (.inr (.inl ⟨henum, ?_⟩))
    obtain ⟨⟨_ | owner, name⟩, href⟩ := Option.isSome_iff_exists.mp henum
    · rw [(hsupplied.globalEnum name href).1, Option.isSome_some]
    · rw [(hsupplied.classEnum owner name href).2.1, Option.isSome_some]
  · exact .inr (.inr (.inr ⟨href, hsupplied.object href hclass⟩))

/-! ### Selected methods -/

/-- Every selected method is supported. -/
theorem selected_supported {root : String} {roots : List String} {methods : List Method}
    (h : automaticMethods api root roots = .ok methods) {method : Method}
    (hmethod : method ∈ methods) : methodSupported api method = true := by
  obtain ⟨chain, -, h⟩ := bind_eq_ok.mp h
  obtain rfl := Except.ok.inj h
  have hlast := ((mem_selected_iff (offeredMethods api roots chain)).2 method).mp hmethod
  have hoffered := List.mem_reverse.mp (List.mem_of_find?_eq_some hlast)
  obtain ⟨entry, -, hentry⟩ := List.mem_flatMap.mp hoffered
  exact (List.mem_filter.mp hentry).2

/-- What a supported method is. -/
structure Callable (api : ExtensionApi) (method : Method) : Prop where
  kind : (method.isVirtual || method.isStatic || method.isVararg) = false
  arguments : ∀ argument ∈ method.arguments, typeSupported api argument.type false = true
  returnValue : ∀ typeRef ∈ method.returnValue, typeSupported api typeRef true = true

theorem callable_of_supported {method : Method} (h : methodSupported api method = true) :
    Callable api method := by
  unfold methodSupported at h
  split_ifs at h with hkind
  obtain ⟨harguments, hreturn⟩ := Bool.and_eq_true_iff.mp h
  refine ⟨by simpa using hkind, List.all_eq_true.mp harguments, fun typeRef htype ↦ ?_⟩
  rw [Option.mem_def.mp htype] at hreturn
  exact hreturn

/-- Each type of a supported method is supported, as an argument or as what is returned. -/
theorem Callable.supported {method : Method} (h : Callable api method) {typeRef : TypeRef}
    (htype : typeRef ∈ methodTypes method) :
    ∃ returning, typeSupported api typeRef returning = true := by
  obtain hargument | hreturn := List.mem_append.mp htype
  · obtain ⟨argument, hmem, rfl⟩ := List.mem_map.mp hargument
    exact ⟨false, h.arguments argument hmem⟩
  · exact ⟨true, h.returnValue typeRef (Option.mem_toList.mp hreturn)⟩

/-- The methods of the roots have supported types, so collecting them goes well. -/
theorem collects_rootTypes {roots : List String} {methods : String → Option (List Method)}
    (h : methodsOfRoots api roots = .ok methods) {typeRef : TypeRef}
    (htype : typeRef ∈ rootTypes roots methods) (collected : Collected) :
    ∃ next, collectTypeDependencies api collected typeRef = .ok next := by
  obtain ⟨root, hroot, htype⟩ := List.mem_flatMap.mp htype
  obtain ⟨method, hmethod, htype⟩ := List.mem_flatMap.mp htype
  obtain ⟨selected, hselected, hmethods⟩ := (addMethods_loop h).1 root hroot
  rw [hselected, Option.getD_some] at hmethod
  obtain ⟨returning, hsupported⟩ :=
    (callable_of_supported (selected_supported hmethods hmethod)).supported htype
  obtain hvalue | ⟨-, hstring⟩ | ⟨-, hnext⟩ | ⟨href, -⟩ :=
    (supported_cases typeRef returning collected).mp hsupported
  · exact collect_of_no_enum (enumReference_valueTypes hvalue) collected
  · exact collect_of_no_enum (enumReference_stringTypes hstring) collected
  · exact hnext
  · exact collect_of_no_enum href collected

/-- A class that is followed upwards runs into itself or into a class that is not there. -/
theorem climb_error {passes : ℕ} {visited : List String} {name : String} {error : Error}
    (h : api.climb passes visited name = .error error) :
    error = .inheritanceCycle ∨ error = .inheritedClassNotFound := by
  induction passes generalizing visited name with
  | zero => exact .inl (Except.error.inj h).symm
  | succ passes ih =>
    rw [ExtensionApi.climb] at h
    split_ifs at h
    · exact .inl (Except.error.inj h).symm
    · split at h
      next => exact .inr (Except.error.inj h).symm
      next entry _ =>
        split at h
        next => exact absurd h (by simp)
        next parent _ =>
          obtain hrest | ⟨rest, -, hrest⟩ := bind_eq_error.mp h
          · exact ih hrest
          · exact absurd hrest (by simp [pure, Except.pure])

theorem automaticMethods_error {root : String} {roots : List String} {error : Error}
    (h : automaticMethods api root roots = .error error) :
    error = .inheritanceCycle ∨ error = .inheritedClassNotFound := by
  obtain hchain | ⟨chain, -, hchain⟩ := bind_eq_error.mp h
  · obtain hlineage | ⟨classes, -, hlineage⟩ := bind_eq_error.mp hchain
    · exact climb_error hlineage
    · exact absurd hlineage (by simp [pure, Except.pure])
  · exact absurd hchain (by simp [pure, Except.pure])

/-- Resolving fails for its roots or for the classes that they inherit from, and not for a type. -/
theorem resolveBindings_error {profile : List (Option String)} {error : Error}
    (h : resolveBindings api profile = .error error) :
    error ∈ [.expectedString, .duplicateProfileClass, .profileClassNotFound, .inheritanceCycle,
      .inheritedClassNotFound] := by
  obtain hroots | ⟨roots, -, h⟩ := bind_eq_error.mp h
  · obtain ⟨state, entry, -, hentry⟩ := foldlM_eq_error hroots
    unfold addRoot at hentry
    split at hentry
    next => simp [← Except.error.inj hentry]
    next name =>
      split_ifs at hentry
      · simp [← Except.error.inj hentry]
      · simp [← Except.error.inj hentry]
  obtain hmethods | ⟨methods, hmethods, h⟩ := bind_eq_error.mp h
  · obtain ⟨state, root, -, hroot⟩ := foldlM_eq_error hmethods
    obtain hselected | ⟨selected, -, hselected⟩ := bind_eq_error.mp hroot
    · obtain rfl | rfl := automaticMethods_error hselected
      · simp
      · simp
    · exact absurd hselected (by simp [pure, Except.pure])
  obtain hcollected | ⟨collected, -, h⟩ := bind_eq_error.mp h
  · obtain ⟨last, hlast⟩ := foldlM_succeeds
      (fun state _ htype ↦ collects_rootTypes hmethods htype state) (initialCollected roots)
    exact absurd (hlast.symm.trans hcollected) (by simp)
  · exact absurd h (by simp [pure, Except.pure])

/-! ### Rendering -/

/-- A method all of whose types are written. -/
structure Writable (collected : Collected) (method : Method) : Prop where
  kind : (method.isVirtual || method.isStatic || method.isVararg) = false
  arguments : ∀ argument ∈ method.arguments, ∃ type,
    zigType collected argument.type false = some type
  returnValue : ∀ typeRef ∈ method.returnValue, ∃ type, zigType collected typeRef true = some type

theorem writable_of_callable {method : Method} (h : Callable api method)
    (hsupplied : ∀ typeRef ∈ methodTypes method, Supplied api collected typeRef) :
    Writable collected method where
  kind := h.kind
  arguments argument hargument := zigType_of_supplied (h.arguments argument hargument)
    (hsupplied argument.type (List.mem_append_left _ (List.mem_map_of_mem hargument)))
  returnValue typeRef htype := zigType_of_supplied (h.returnValue typeRef htype)
    (hsupplied typeRef (List.mem_append_right _ (Option.mem_toList.mpr htype)))

variable {method : Method}

theorem Writable.parameters (h : Writable collected method) :
    ∃ parameters, method.arguments.mapM (renderArgument collected) = .ok parameters := by
  refine mapM_succeeds fun argument hargument ↦ ?_
  obtain ⟨type, htype⟩ := h.arguments argument hargument
  refine ⟨(identifier argument.name, type), ?_⟩
  rw [renderArgument, htype]

theorem Writable.returnType (h : Writable collected method) :
    ∃ type, methodReturnType collected method = .ok type := by
  unfold methodReturnType
  split
  next => exact ⟨none, rfl⟩
  next returnValue hvalue =>
    obtain ⟨type, htype⟩ := h.returnValue returnValue hvalue
    rw [htype]
    exact ⟨some type, rfl⟩

theorem Writable.ptrcall (h : Writable collected method) (className : String) :
    ∃ ptrcall, methodUsesPtrcall collected method className = .ok ptrcall := by
  obtain ⟨type, htype⟩ := h.returnType
  unfold methodUsesPtrcall
  split_ifs
  · exact ⟨false, rfl⟩
  · exact ⟨false, rfl⟩
  · rw [htype]
    show ∃ ptrcall, (if !isPtrcallSafe type then pure false else pure _) = Except.ok ptrcall
    split_ifs
    · exact ⟨false, rfl⟩
    · exact ⟨_, rfl⟩

theorem Writable.rendered (h : Writable collected method) (className : String) :
    ∃ emitted, renderMethod collected method className = .ok emitted := by
  obtain ⟨parameters, hparameters⟩ := h.parameters
  obtain ⟨type, htype⟩ := h.returnType
  obtain ⟨ptrcall, hptrcall⟩ := h.ptrcall className
  rw [renderMethod, if_neg (by simp [h.kind])]
  exact ⟨_, bind_eq_ok.mpr ⟨parameters, hparameters,
    bind_eq_ok.mpr ⟨type, htype, bind_eq_ok.mpr ⟨ptrcall, hptrcall, rfl⟩⟩⟩⟩

theorem Writable.forwarded (h : Writable collected method) (declaring : String) :
    ∃ emitted, renderForwardedMethod collected method declaring = .ok emitted := by
  obtain ⟨parameters, hparameters⟩ := h.parameters
  obtain ⟨type, htype⟩ := h.returnType
  exact ⟨_, bind_eq_ok.mpr ⟨parameters, hparameters, bind_eq_ok.mpr ⟨type, htype, rfl⟩⟩⟩

/-- The chain of a class shows where a method is declared. -/
theorem findDeclaringClass_succeeds {name : String} {chain : List Api.Class}
    (h : api.inheritanceChain name = .ok chain) (method : Method) :
    ∃ declaring, api.findDeclaringClass method name = .ok declaring := by
  rcases hfind : chain.reverse.find? fun entry ↦ (entry.method method.name).isSome with _ | entry
  · refine ⟨name, bind_eq_ok.mpr ⟨chain, h, ?_⟩⟩
    simp only [hfind]
    rfl
  · refine ⟨entry.name, bind_eq_ok.mpr ⟨chain, h, ?_⟩⟩
    simp only [hfind]
    rfl

variable {bindings : ResolvedBindings}

/-- The methods of a root are written. -/
theorem root_writable (h : Resolved bindings) {root : String} (hroot : root ∈ bindings.rootNames)
    {methods : List Method} (hmethods : bindings.methodsByClass root = some methods) :
    ∀ method ∈ methods, Writable bindings.collected method := by
  intro method hmethod
  obtain ⟨selected, hselected, hautomatic⟩ := h.methods root hroot
  obtain rfl := Option.some.inj (hmethods.symm.trans hselected)
  refine writable_of_callable (callable_of_supported (selected_supported hautomatic hmethod)) ?_
  intro typeRef htype
  refine h.supplied typeRef (List.mem_flatMap.mpr ⟨root, hroot, ?_⟩)
  rw [hmethods, Option.getD_some]
  exact List.mem_flatMap.mpr ⟨method, hmethod, htype⟩

/-- The chain of a root has been followed when its methods were selected. -/
theorem root_chain (h : Resolved bindings) {root : String} (hroot : root ∈ bindings.rootNames) :
    ∃ chain, bindings.api.inheritanceChain root = .ok chain := by
  obtain ⟨methods, -, hselected⟩ := h.methods root hroot
  obtain ⟨chain, hchain, -⟩ := bind_eq_ok.mp hselected
  exact ⟨chain, hchain⟩

/-- A generated class is a root or a shell. -/
theorem root_or_shell (h : Resolved bindings) {name : String}
    (hname : name ∈ bindings.collected.generatedNames) :
    name ∈ bindings.rootNames ∨ name ∈ bindings.collected.shells := by
  rw [h.coherent.generated] at hname
  exact List.mem_append.mp hname

theorem renderResolvedClass_succeeds (h : Resolved bindings) {name : String}
    (hname : name ∈ bindings.collected.generatedNames) :
    ∃ struct, renderResolvedClass bindings name = .ok struct := by
  unfold renderResolvedClass
  split_ifs with hshell
  · exact ⟨_, rfl⟩
  have hroot := (root_or_shell h hname).resolve_right hshell
  obtain ⟨chain, hchain⟩ := root_chain h hroot
  obtain ⟨methods, hmethods, -⟩ := h.methods name hroot
  have hwritable := root_writable h hroot hmethods
  rw [hmethods, Option.getD_some]
  have hown : ∃ own, methods.mapM (renderOwn bindings name) = .ok own := by
    refine mapM_succeeds fun method hmethod ↦ ?_
    obtain ⟨declaring, hdeclaring⟩ := findDeclaringClass_succeeds hchain method
    obtain ⟨emitted, hemitted⟩ := (hwritable method hmethod).rendered name
    by_cases hsame : declaring = name
    · refine ⟨[emitted], bind_eq_ok.mpr ⟨declaring, hdeclaring, ?_⟩⟩
      rw [if_neg (not_not.mpr hsame)]
      exact bind_eq_ok.mpr ⟨emitted, hemitted, rfl⟩
    · exact ⟨[], bind_eq_ok.mpr ⟨declaring, hdeclaring, if_pos hsame⟩⟩
  have hinherited : ∃ inherited, methods.mapM (renderInherited bindings name) = .ok inherited := by
    refine mapM_succeeds fun method hmethod ↦ ?_
    obtain ⟨declaring, hdeclaring⟩ := findDeclaringClass_succeeds hchain method
    obtain ⟨emitted, hemitted⟩ := (hwritable method hmethod).forwarded declaring
    by_cases hsame : declaring = name
    · exact ⟨[], bind_eq_ok.mpr ⟨declaring, hdeclaring, if_pos hsame⟩⟩
    · refine ⟨[emitted], bind_eq_ok.mpr ⟨declaring, hdeclaring, ?_⟩⟩
      rw [if_neg hsame]
      exact bind_eq_ok.mpr ⟨emitted, hemitted, rfl⟩
  obtain ⟨own, hown⟩ := hown
  obtain ⟨inherited, hinherited⟩ := hinherited
  exact ⟨_, bind_eq_ok.mpr ⟨chain, hchain,
    bind_eq_ok.mpr ⟨own, hown, bind_eq_ok.mpr ⟨inherited, hinherited, rfl⟩⟩⟩⟩

theorem dependencyMatrix_succeeds (h : Resolved bindings) :
    ∃ dependencies, dependencyMatrix bindings = .ok dependencies := by
  refine foldlM_succeeds (fun matrix entry hentry ↦ ?_) diagonal
  have hname : entry.1 ∈ bindings.collected.generatedNames :=
    List.mem_of_getElem? (List.mem_zipIdx_iff_getElem?.mp hentry)
  unfold addClassEdges
  split_ifs with hshell
  · exact ⟨matrix, rfl⟩
  · obtain ⟨chain, hchain⟩ := root_chain h ((root_or_shell h hname).resolve_right hshell)
    exact ⟨_, bind_eq_ok.mpr ⟨chain, hchain, rfl⟩⟩

/-- What has been resolved is rendered. -/
theorem exists_files (h : Resolved bindings) :
    ∃ files, renderResolvedTree bindings = .ok files := by
  obtain ⟨dependencies, hdependencies⟩ := dependencyMatrix_succeeds h
  have hcomponents : ∀ entry ∈ (componentsOf bindings dependencies).zipIdx, ∃ file,
      (do
        let file ← renderClassComponent bindings (componentsOf bindings dependencies) dependencies
          entry.2 entry.1
        return (⟨entry.1.path, .component file⟩ : GeneratedFile)) = Except.ok file := by
    intro entry hentry
    have hcomponent := List.mem_of_getElem? (List.mem_zipIdx_iff_getElem?.mp hentry)
    have hstructs : ∃ structs,
        entry.1.members.mapM (renderResolvedClass bindings) = .ok structs :=
      mapM_succeeds fun name hname ↦
        renderResolvedClass_succeeds h (members_generated hcomponent hname)
    obtain ⟨structs, hstructs⟩ := hstructs
    exact ⟨_, bind_eq_ok.mpr ⟨_, bind_eq_ok.mpr ⟨structs, hstructs, rfl⟩, rfl⟩⟩
  obtain ⟨componentFiles, hfiles⟩ := mapM_succeeds hcomponents
  exact ⟨_, bind_eq_ok.mpr ⟨dependencies, hdependencies,
    bind_eq_ok.mpr ⟨componentFiles, hfiles, rfl⟩⟩⟩

/-- Whatever is resolved is rendered, no type makes resolving fail, and at every point of it a type
is supported exactly if it is collected and can be written then. -/
theorem resolved_renderable (api : ExtensionApi) (profile : List (Option String)) :
    (∀ bindings, resolveBindings api profile = .ok bindings →
        ∃ files, renderResolvedTree bindings = .ok files) ∧
      resolveBindings api profile ≠ .error .enumOwnerNotGenerated ∧
      resolveBindings api profile ≠ .error .enumNotFound ∧
      ∀ roots, profile.foldlM (addRoot api) [] = .ok roots → ∀ (types : List TypeRef) collected,
        types.foldlM (collectTypeDependencies api) (initialCollected roots) = .ok collected →
          ∀ typeRef returning, typeSupported api typeRef returning = true ↔
            ∃ next, collectTypeDependencies api collected typeRef = .ok next ∧
              (zigType next typeRef returning).isSome = true := by
  refine ⟨fun bindings hbindings ↦ exists_files (resolved_of_ok hbindings).1, fun herror ↦ ?_,
    fun herror ↦ ?_, fun roots hroots types collected hcollected typeRef returning ↦ ?_⟩
  · exact absurd (resolveBindings_error herror) (by decide)
  · exact absurd (resolveBindings_error herror) (by decide)
  · obtain ⟨hdistinct, hclasses⟩ := roots_of_ok hroots
    exact supported_iff (collect_supplied (coherent_initial hdistinct) hcollected).1
      (found_of_collect hclasses hcollected) typeRef returning

end Gzscript.Bindings.Renderable
