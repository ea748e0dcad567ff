import Gzscript.Bindings.NameClosure
import Gzscript.Bindings.Renderable

/-!
# What an API and a profile say of the generated methods

Which methods a root is generated with, which classes are generated, and which methods are called by
their hash can be read off the API and the roots of the profile: `Offered`, `Needed` and
`CalledByHash` mention nothing that the generator has computed. It computes just these
(`mem_automaticMethods_iff_offered`, `mem_generatedNames_iff`, `methodUsesPtrcall_iff`).
-/

set_option autoImplicit false
set_option relaxedAutoImplicit false

namespace Gzscript.Bindings.OfferedMethods

open Library.Fallible Api Selection Resolve Rendering RootStructs NameClosure Renderable

/-! ### What is offered -/

/-- The class has this method, and no supported one under its name behind it. -/
def LastSupported (api : ExtensionApi) (entry : Api.Class) (method : Method) : Prop :=
  ∃ before after, entry.methods = before ++ method :: after ∧
    methodSupported api method = true ∧
    ∀ later ∈ after, later.name = method.name → methodSupported api later = false

/-- Of a class and those it inherits from, the nearest root with a supported method under the name
has this one. -/
inductive Offered (api : ExtensionApi) (isRoot : String → Prop) (method : Method) :
    List Api.Class → Prop
  | own {entry : Api.Class} {ancestors : List Api.Class} (hroot : isRoot entry.name)
      (hlast : LastSupported api entry method) : Offered api isRoot method (entry :: ancestors)
  | inherited {entry : Api.Class} {ancestors : List Api.Class}
      (hnone : isRoot entry.name → ∀ own ∈ entry.methods, own.name = method.name →
        methodSupported api own = false)
      (hoffered : Offered api isRoot method ancestors) :
      Offered api isRoot method (entry :: ancestors)

/-- A type names a class, itself or as the owner of an enum. -/
def NamesClass (api : ExtensionApi) (typeRef : TypeRef) (name : String) : Prop :=
  (∃ enumName, enumReference typeRef.name = some ⟨some name, enumName⟩) ∨
    enumReference typeRef.name = none ∧ typeRef.name = name ∧ (api.class? name).isSome = true

/-- A class is a root, or a type of a method that is offered to a root names it. -/
def Needed (api : ExtensionApi) (isRoot : String → Prop) (name : String) : Prop :=
  isRoot name ∨ ∃ root classes method, isRoot root ∧ api.lineage root = .ok classes ∧
    Offered api isRoot method classes ∧ ∃ typeRef ∈ methodTypes method, NamesClass api typeRef name

/-! ### What is called by its hash -/

/-- What may not be in the text of a type that is passed directly. -/
def indirectTexts : List String := ["Array", "Dictionary", "[]", "?"]

/-- A type is passed as it is: it is no generated class and no text, its width is that of the ABI,
and an enum is not named after a collection. -/
structure DirectType (needed : String → Prop) (typeRef : TypeRef) (returning : Bool) : Prop where
  plain : ¬needed typeRef.name
  string : returning = false → typeRef.name ∉ stringTypes
  int : typeRef.name = "int" → ∀ typeMeta, typeRef.typeMeta = some typeMeta → typeMeta = "int64"
  float : typeRef.name = "float" → ∀ typeMeta, typeRef.typeMeta = some typeMeta →
    typeMeta = "double"
  enum : ∀ reference, enumReference typeRef.name = some reference → ∀ text ∈ indirectTexts,
    containsText (referenceText reference) text = false

/-- A method of a class is called by its hash. -/
structure CalledByHash (needed : String → Prop) (className : String) (method : Method) : Prop where
  named : className ≠ ""
  hash : method.hash ≠ 0
  returnValue : ∀ typeRef, method.returnValue = some typeRef → DirectType needed typeRef true
  arguments : ∀ argument ∈ method.arguments, DirectType needed argument.type false

/-! ### The methods that are selected -/

variable {api : ExtensionApi}

theorem offeredMethods_append (roots : List String) (first second : List Api.Class) :
    offeredMethods api roots (first ++ second) =
      offeredMethods api roots first ++ offeredMethods api roots second := by
  rw [offeredMethods, List.filter_append, List.flatMap_append]
  rfl

theorem offeredMethods_singleton (roots : List String) (entry : Api.Class) :
    offeredMethods api roots [entry] =
      if entry.name ∈ roots then entry.methods.filter (methodSupported api) else [] := by
  rw [offeredMethods]
  split_ifs with hroot
  · simp [hroot]
  · simp [hroot]

theorem lastNamed_append {first second : List Method} {name : String} :
    lastNamed (first ++ second) name =
      (lastNamed second name).or (lastNamed first name) := by
  rw [lastNamed, List.reverse_append, List.find?_append]
  rfl

/-- The last of the supported methods of a class under a name. -/
theorem lastNamed_filter_iff {entry : Api.Class} {method : Method} :
    lastNamed (entry.methods.filter (methodSupported api)) method.name = some method ↔
      LastSupported api entry method := by
  rw [lastNamed, ← List.filter_reverse, List.find?_filter, List.find?_eq_some_iff_append]
  simp only [decide_eq_true_eq, and_true, Bool.not_eq_true', decide_eq_false_iff_not, not_and]
  constructor
  · rintro ⟨hsupported, after, before, hsplit, hafter⟩
    refine ⟨before.reverse, after.reverse, ?_, hsupported, fun later hlater hname ↦ ?_⟩
    · rw [← List.reverse_reverse entry.methods, hsplit]
      simp
    · by_contra hother
      exact hafter later (List.mem_reverse.mp hlater) (by simpa using hother) hname
  · rintro ⟨before, after, hsplit, hsupported, hafter⟩
    refine ⟨hsupported, after.reverse, before.reverse, ?_, fun later hlater hother hname ↦ ?_⟩
    · rw [hsplit]
      simp
    · rw [hafter later (List.mem_reverse.mp hlater) hname] at hother
      exact Bool.false_ne_true hother

theorem lastNamed_own_iff {roots : List String} {entry : Api.Class} {method : Method} :
    lastNamed (offeredMethods api roots [entry]) method.name = some method ↔
      entry.name ∈ roots ∧ LastSupported api entry method := by
  rw [offeredMethods_singleton]
  split_ifs with hroot
  · rw [lastNamed_filter_iff]
    exact (and_iff_right hroot).symm
  · exact iff_of_false (Option.some_ne_none method).symm fun h ↦ hroot h.1

theorem lastNamed_own_eq_none_iff {roots : List String} {entry : Api.Class} {name : String} :
    lastNamed (offeredMethods api roots [entry]) name = none ↔
      (entry.name ∈ roots → ∀ own ∈ entry.methods, own.name = name →
        methodSupported api own = false) := by
  rw [offeredMethods_singleton]
  split_ifs with hroot
  · rw [lastNamed, List.find?_eq_none]
    simp only [List.mem_reverse, List.mem_filter, decide_eq_true_eq, and_imp]
    constructor
    · intro hnone _ own hown hname
      by_contra hsupported
      exact hnone own hown (by simpa using hsupported) hname
    · intro hnone own hown hsupported hname
      rw [hnone hroot own hown hname] at hsupported
      exact Bool.false_ne_true hsupported
  · exact iff_of_true rfl fun hmem ↦ absurd hmem hroot

theorem lastNamed_offered_iff {roots : List String} {classes : List Api.Class} {method : Method} :
    lastNamed (offeredMethods api roots classes.reverse) method.name = some method ↔
      Offered api (· ∈ roots) method classes := by
  induction classes with
  | nil => exact iff_of_false (Option.some_ne_none method).symm fun h ↦ nomatch h
  | cons entry ancestors ih =>
    rw [List.reverse_cons, offeredMethods_append, lastNamed_append, Option.or_eq_some_iff, ih,
      lastNamed_own_iff, lastNamed_own_eq_none_iff]
    constructor
    · rintro (⟨hroot, hlast⟩ | ⟨hnone, hoffered⟩)
      · exact .own hroot hlast
      · exact .inherited hnone hoffered
    · intro h
      cases h with
      | own hroot hlast => exact .inl ⟨hroot, hlast⟩
      | inherited hnone hoffered => exact .inr ⟨hnone, hoffered⟩

/-- A method is selected for a class exactly when it is offered. -/
theorem mem_automaticMethods_iff_offered {root : String} {roots : List String}
    {classes : List Api.Class} {methods : List Method} (hlineage : api.lineage root = .ok classes)
    (h : automaticMethods api root roots = .ok methods) (method : Method) :
    method ∈ methods ↔ Offered api (· ∈ roots) method classes := by
  obtain ⟨chain, hchain, h⟩ := bind_eq_ok.mp h
  obtain rfl := Except.ok.inj ((inheritanceChain_of_lineage hlineage).symm.trans hchain)
  obtain rfl := Except.ok.inj h
  rw [(mem_selected_iff _).2 method, lastNamed_offered_iff]

/-! ### The classes that are generated -/

/-- The profile has the class among its roots. -/
def IsRoot (profile : List (Option String)) (name : String) : Prop := some name ∈ profile

theorem mem_roots_iff {profile : List (Option String)} {start roots : List String}
    (h : profile.foldlM (addRoot api) start = .ok roots) (name : String) :
    name ∈ roots ↔ name ∈ start ∨ IsRoot profile name := by
  induction profile generalizing start with
  | nil =>
    rw [List.foldlM_nil] at h
    obtain rfl := Except.ok.inj h
    exact (or_iff_left List.not_mem_nil).symm
  | cons entry profile ih =>
    rw [List.foldlM_cons] at h
    obtain ⟨next, hnext, h⟩ := bind_eq_ok.mp h
    obtain ⟨first, rfl, -, -, rfl⟩ := addRoot_eq_ok hnext
    rw [ih h, IsRoot, IsRoot, List.mem_append, List.mem_singleton, List.mem_cons,
      Option.some_inj, or_assoc]

theorem generated_of_collectOne {typeRef : TypeRef} {collected next : Collected}
    (h : collectTypeDependencies api collected typeRef = .ok next) :
    ∀ name ∈ next.generatedNames,
      name ∈ collected.generatedNames ∨ NamesClass api typeRef name := by
  have hadded : ∀ owner, ∀ name ∈ (addShell owner collected).generatedNames,
      name ∈ collected.generatedNames ∨ name = owner := by
    intro owner name hname
    unfold addShell at hname
    split_ifs at hname with hknown
    · exact .inl hname
    · exact (List.mem_append.mp hname).imp_right List.mem_singleton.mp
  obtain ⟨owner, enumName, entry, href, -, -, rfl⟩ | ⟨enumName, entry, href, -, -, rfl⟩ |
    ⟨href, hclass, rfl⟩ | ⟨-, -, rfl⟩ := collectTypeDependencies_eq_ok h
  · intro name hname
    have hshell : name ∈ (addShell owner collected).generatedNames := by
      rw [← addClassEnum_generatedNames owner ⟨some owner, enumName⟩ entry]
      exact hname
    refine (hadded owner name hshell).imp_right ?_
    rintro rfl
    exact .inl ⟨enumName, href⟩
  · intro name hname
    unfold putEnumType addGlobalEnum at hname
    split_ifs at hname
    · exact .inl hname
    · exact .inl hname
  · intro name hname
    refine (hadded typeRef.name name hname).imp_right ?_
    rintro rfl
    exact .inr ⟨href, rfl, hclass⟩
  · exact fun _ hname ↦ .inl hname

/-- The loop over some types generates the classes that they name. -/
theorem generated_of_collect {types : List TypeRef} {start last : Collected}
    (h : types.foldlM (collectTypeDependencies api) start = .ok last) :
    ∀ name ∈ last.generatedNames,
      name ∈ start.generatedNames ∨ ∃ typeRef ∈ types, NamesClass api typeRef name := by
  induction types generalizing start with
  | nil =>
    rw [List.foldlM_nil] at h
    obtain rfl := Except.ok.inj h
    exact fun _ hname ↦ .inl hname
  | cons typeRef types ih =>
    rw [List.foldlM_cons] at h
    obtain ⟨next, hnext, h⟩ := bind_eq_ok.mp h
    intro name hname
    obtain hbetween | ⟨other, hother, hnames⟩ := ih h name hname
    · refine (generated_of_collectOne hnext name hbetween).imp_right fun hnames ↦ ?_
      exact ⟨typeRef, List.mem_cons_self, hnames⟩
    · exact .inr ⟨other, List.mem_cons_of_mem typeRef hother, hnames⟩

variable {profile : List (Option String)} {bindings : ResolvedBindings}

theorem rootNames_eq (h : resolveBindings api profile = .ok bindings) :
    (fun name ↦ name ∈ bindings.rootNames) = IsRoot profile := by
  obtain ⟨roots, hroots, h⟩ := bind_eq_ok.mp h
  obtain ⟨methods, -, h⟩ := bind_eq_ok.mp h
  obtain ⟨collected, -, h⟩ := bind_eq_ok.mp h
  obtain rfl := Except.ok.inj h
  funext name
  exact propext ((mem_roots_iff hroots name).trans (or_iff_right List.not_mem_nil))

/-- A method is selected for a root exactly when the profile offers it one. -/
theorem mem_selected_iff_offered (h : resolveBindings api profile = .ok bindings) {root : String}
    {classes : List Api.Class} {methods : List Method} (hlineage : api.lineage root = .ok classes)
    (hmethods : automaticMethods api root bindings.rootNames = .ok methods) (method : Method) :
    method ∈ methods ↔ Offered api (IsRoot profile) method classes := by
  rw [mem_automaticMethods_iff_offered hlineage hmethods, rootNames_eq h]

/-- What is collected comes from the roots and the types of their methods. -/
theorem generated_cases (h : resolveBindings api profile = .ok bindings) {name : String}
    (hname : name ∈ bindings.collected.generatedNames) :
    name ∈ bindings.rootNames ∨
      ∃ typeRef ∈ rootTypes bindings.rootNames bindings.methodsByClass,
        NamesClass api typeRef name := by
  obtain ⟨roots, -, h⟩ := bind_eq_ok.mp h
  obtain ⟨methods, -, h⟩ := bind_eq_ok.mp h
  obtain ⟨collected, hcollected, h⟩ := bind_eq_ok.mp h
  obtain rfl := Except.ok.inj h
  exact generated_of_collect hcollected name hname

/-- A type of a method that is offered to a root is one of those that are collected. -/
theorem mem_rootTypes_iff (h : resolveBindings api profile = .ok bindings) (typeRef : TypeRef) :
    typeRef ∈ rootTypes bindings.rootNames bindings.methodsByClass ↔
      ∃ root classes method, IsRoot profile root ∧ api.lineage root = .ok classes ∧
        Offered api (IsRoot profile) method classes ∧ typeRef ∈ methodTypes method := by
  obtain ⟨hresolved, rfl⟩ := resolved_of_ok h
  have hroots : ∀ name, name ∈ bindings.rootNames ↔ IsRoot profile name := fun name ↦
    iff_of_eq (congrFun (rootNames_eq h) name)
  rw [rootTypes, List.mem_flatMap]
  constructor
  · rintro ⟨root, hroot, htype⟩
    obtain ⟨methods, hmethods, hselected⟩ := hresolved.methods root hroot
    obtain ⟨chain, hchain, -⟩ := bind_eq_ok.mp hselected
    obtain ⟨classes, hlineage, -⟩ := bind_eq_ok.mp hchain
    rw [hmethods, Option.getD_some, List.mem_flatMap] at htype
    obtain ⟨method, hmethod, htype⟩ := htype
    exact ⟨root, classes, method, (hroots root).mp hroot, hlineage,
      (mem_selected_iff_offered h hlineage hselected method).mp hmethod, htype⟩
  · rintro ⟨root, classes, method, hroot, hlineage, hoffered, htype⟩
    have hmem := (hroots root).mpr hroot
    obtain ⟨methods, hmethods, hselected⟩ := hresolved.methods root hmem
    refine ⟨root, hmem, ?_⟩
    rw [hmethods, Option.getD_some, List.mem_flatMap]
    exact ⟨method, (mem_selected_iff_offered h hlineage hselected method).mpr hoffered, htype⟩

/-- The generated classes are those that the API and the profile need. -/
theorem mem_generatedNames_iff (h : resolveBindings api profile = .ok bindings) (name : String) :
    name ∈ bindings.collected.generatedNames ↔ Needed api (IsRoot profile) name := by
  obtain ⟨hresolved, hapi⟩ := resolved_of_ok h
  have hroots : name ∈ bindings.rootNames ↔ IsRoot profile name :=
    iff_of_eq (congrFun (rootNames_eq h) name)
  constructor
  · intro hname
    refine (generated_cases h hname).imp hroots.mp ?_
    rintro ⟨typeRef, htype, hnames⟩
    obtain ⟨root, classes, method, hroot, hlineage, hoffered, hmem⟩ :=
      (mem_rootTypes_iff h typeRef).mp htype
    exact ⟨root, classes, method, hroot, hlineage, hoffered, typeRef, hmem, hnames⟩
  · rintro (hroot | ⟨root, classes, method, hroot, hlineage, hoffered, typeRef, hmem, hnames⟩)
    · exact hresolved.root_generated (hroots.mpr hroot)
    · have hsupplied := hresolved.supplied typeRef ((mem_rootTypes_iff h typeRef).mpr
        ⟨root, classes, method, hroot, hlineage, hoffered, hmem⟩)
      obtain ⟨enumName, href⟩ | ⟨href, rfl, hclass⟩ := hnames
      · exact (hsupplied.classEnum name enumName href).1
      · exact hsupplied.object href (hapi ▸ hclass)

/-! ### Methods that are called by their hash -/

variable {collected : Collected} {needed : String → Prop} {typeRef : TypeRef} {returning : Bool}

theorem isPtrcallSafe_some_iff (type : ZigType) :
    isPtrcallSafe (some type) = true ↔
      ∀ text ∈ indirectTexts, containsText type.text text = false := by
  simp only [isPtrcallSafe, indirectTexts, List.forall_mem_cons, List.not_mem_nil, false_imp_iff,
    implies_true, and_true, Bool.and_eq_true, Bool.not_eq_true', Bool.or_eq_false_iff, and_assoc]

theorem isPtrcallSafe_valueType {name : String} {type : ZigType}
    (h : valueType name = some type) : isPtrcallSafe (some type) = true := by
  have hsafe : ∀ other ∈ [ZigType.bool, .int, .float, .vector2, .vector3, .color, .transform2d,
      .transform3d, .rect2], isPtrcallSafe (some other) = true := by decide +kernel
  refine hsafe type ?_
  obtain hmem | ⟨hmem, -⟩ := valueType_cases h
  · exact List.mem_append_left _ hmem
  · exact List.mem_append_right [ZigType.bool, .int, .float] hmem

theorem typeUsesPtrcall_iff :
    typeUsesPtrcall collected typeRef = true ↔ typeRef.name ∉ collected.generatedNames ∧
      (typeRef.name = "int" → ∀ typeMeta, typeRef.typeMeta = some typeMeta → typeMeta = "int64") ∧
      (typeRef.name = "float" → ∀ typeMeta, typeRef.typeMeta = some typeMeta →
        typeMeta = "double") := by
  unfold typeUsesPtrcall
  by_cases hgenerated : typeRef.name ∈ collected.generatedNames
  · rw [if_pos hgenerated]
    exact iff_of_false Bool.false_ne_true fun h ↦ h.1 hgenerated
  · rw [if_neg hgenerated, and_iff_right hgenerated]
    rcases typeRef.typeMeta with _ | typeMeta
    · simp
    · by_cases hint : typeRef.name = "int"
      · simp [hint]
      · by_cases hfloat : typeRef.name = "float"
        · simp [hfloat]
        · simp [hint, hfloat]

/-- A supplied type that is no generated class is written directly, unless it is a text or an enum
that is named after a collection. -/
theorem isPtrcallSafe_zigType_iff (hsupplied : Supplied api collected typeRef)
    (hplain : typeRef.name ∉ collected.generatedNames) :
    isPtrcallSafe (zigType collected typeRef returning) = true ↔
      (returning = false → typeRef.name ∉ stringTypes) ∧
        ∀ reference, enumReference typeRef.name = some reference → ∀ text ∈ indirectTexts,
          containsText (referenceText reference) text = false := by
  unfold zigType
  split
  next type hvalue =>
    -- A value is safe, and its name is neither that of a text nor of an enum.
    have hmem : typeRef.name ∈ valueTypes := by
      rw [← valueType_isSome_iff, hvalue, Option.isSome_some]
    have hapart : ∀ name ∈ valueTypes, name ∉ stringTypes := by decide
    refine iff_of_true (isPtrcallSafe_valueType hvalue) ⟨fun _ ↦ hapart _ hmem, ?_⟩
    intro reference href
    rw [enumReference_valueTypes hmem] at href
    exact absurd href.symm (Option.some_ne_none reference)
  next hvalue =>
    split_ifs with htext henum
    · have htext : returning = false ∧ typeRef.name ∈ stringTypes := by simpa using htext
      exact iff_of_false (by decide) fun h ↦ h.1 htext.1 htext.2
    · have htext : ¬(returning = false ∧ typeRef.name ∈ stringTypes) := by simpa using htext
      obtain ⟨reference, href⟩ := Option.isSome_iff_exists.mp henum
      rw [enumTypes_eq hsupplied henum, href, Option.map_some, isPtrcallSafe_some_iff]
      simp only [Option.some_inj, forall_eq', ZigType.text]
      exact (and_iff_right fun hreturning hname ↦ htext ⟨hreturning, hname⟩).symm
    · have htext : ¬(returning = false ∧ typeRef.name ∈ stringTypes) := by simpa using htext
      refine iff_of_true rfl ⟨fun hreturning hname ↦ htext ⟨hreturning, hname⟩, ?_⟩
      intro reference href
      exact absurd (by rw [href, Option.isSome_some]) henum

/-- A type is passed directly under the two tests of the generator. -/
theorem directType_iff (hsupplied : Supplied api collected typeRef)
    (hneeded : typeRef.name ∈ collected.generatedNames ↔ needed typeRef.name) :
    (typeUsesPtrcall collected typeRef = true ∧
        isPtrcallSafe (zigType collected typeRef returning) = true) ↔
      DirectType needed typeRef returning := by
  rw [typeUsesPtrcall_iff]
  constructor
  · rintro ⟨⟨hplain, hint, hfloat⟩, hsafe⟩
    obtain ⟨hstring, henum⟩ := (isPtrcallSafe_zigType_iff hsupplied hplain).mp hsafe
    exact ⟨fun h ↦ hplain (hneeded.mpr h), hstring, hint, hfloat, henum⟩
  · intro h
    have hplain : typeRef.name ∉ collected.generatedNames := fun hmem ↦ h.plain (hneeded.mp hmem)
    exact ⟨⟨hplain, h.int, h.float⟩,
      (isPtrcallSafe_zigType_iff hsupplied hplain).mpr ⟨h.string, h.enum⟩⟩

/-- What is returned is passed directly, if anything is. -/
theorem returnValue_direct_iff {method : Method} {type : Option ZigType}
    (htype : methodReturnType collected method = .ok type)
    (hdirect : ∀ typeRef, method.returnValue = some typeRef →
      ((typeUsesPtrcall collected typeRef = true ∧
        isPtrcallSafe (zigType collected typeRef true) = true) ↔ DirectType needed typeRef true)) :
    ((method.returnValue.any fun typeRef ↦ !typeUsesPtrcall collected typeRef) = false ∧
        isPtrcallSafe type = true) ↔
      ∀ typeRef, method.returnValue = some typeRef → DirectType needed typeRef true := by
  unfold methodReturnType at htype
  rcases hvalue : method.returnValue with _ | typeRef
  · rw [hvalue] at htype
    obtain rfl := Except.ok.inj htype
    exact iff_of_true ⟨rfl, rfl⟩ fun typeRef h ↦ absurd h.symm (Option.some_ne_none typeRef)
  · rw [hvalue] at htype
    simp only at htype
    split at htype
    next => exact absurd htype (by simp)
    next found hfound =>
      obtain rfl := Except.ok.inj htype
      simp only [Option.any_some, Bool.not_eq_false', Option.some_inj, forall_eq']
      rw [← hdirect typeRef hvalue, hfound]

/-- A method all of whose types can be written uses the call by its hash exactly if it may. -/
theorem methodUsesPtrcall_iff {method : Method} (hwritable : Writable collected method)
    (hsupplied : ∀ typeRef ∈ methodTypes method, Supplied api collected typeRef)
    (hneeded : ∀ name, name ∈ collected.generatedNames ↔ needed name) (className : String) :
    methodUsesPtrcall collected method className = .ok true ↔
      CalledByHash needed className method := by
  have harguments : ∀ argument ∈ method.arguments,
      (typeUsesPtrcall collected argument.type = true ∧
        isPtrcallSafe (zigType collected argument.type false) = true ↔
          DirectType needed argument.type false) := fun argument hargument ↦
    directType_iff (hsupplied _ (List.mem_append_left _ (List.mem_map_of_mem hargument)))
      (hneeded _)
  obtain ⟨type, htype⟩ := hwritable.returnType
  have hreturn := returnValue_direct_iff htype fun typeRef hvalue ↦
    directType_iff (hsupplied _ (List.mem_append_right _ (Option.mem_toList.mpr hvalue)))
      (hneeded _)
  unfold methodUsesPtrcall
  rw [htype]
  split_ifs with hnone hindirect
  · refine iff_of_false (by simp) fun h ↦ ?_
    exact hnone.elim h.named h.hash
  · refine iff_of_false (by simp) fun h ↦ ?_
    rw [(hreturn.mpr h.returnValue).1] at hindirect
    exact Bool.false_ne_true hindirect
  · have hdirect := Bool.eq_false_iff.mpr hindirect
    obtain ⟨hnamed, hhash⟩ := not_or.mp hnone
    show (if !isPtrcallSafe type then pure false else pure _) = Except.ok true ↔ _
    split_ifs with hsafe
    · refine iff_of_false (by simp [pure, Except.pure]) fun h ↦ ?_
      rw [(hreturn.mpr h.returnValue).2] at hsafe
      exact Bool.false_ne_true hsafe
    · have hvalue := hreturn.mp ⟨hdirect, by simpa using hsafe⟩
      have hall : (pure (method.arguments.all fun argument ↦
          typeUsesPtrcall collected argument.type &&
            isPtrcallSafe (zigType collected argument.type false)) : Except Error Bool) =
              .ok true ↔ ∀ argument ∈ method.arguments, DirectType needed argument.type false := by
        simp only [pure, Except.pure, Except.ok.injEq, List.all_eq_true, Bool.and_eq_true]
        exact forall₂_congr harguments
      rw [hall]
      exact ⟨fun h ↦ ⟨hnamed, hhash, hvalue, h⟩, fun h ↦ h.arguments⟩

/-- A selected method of a root is called by its hash exactly if the API and the profile say so. -/
theorem selected_calledByHash_iff (h : resolveBindings api profile = .ok bindings) {root : String}
    (hroot : root ∈ bindings.rootNames) {methods : List Method}
    (hselected : automaticMethods bindings.api root bindings.rootNames = .ok methods)
    {method : Method} (hmethod : method ∈ methods) (className : String) :
    methodUsesPtrcall bindings.collected method className = .ok true ↔
      CalledByHash (Needed api (IsRoot profile)) className method := by
  obtain ⟨hresolved, rfl⟩ := resolved_of_ok h
  obtain ⟨found, hmethods, hfound⟩ := hresolved.methods root hroot
  obtain rfl := Except.ok.inj (hselected.symm.trans hfound)
  have hsupplied : ∀ typeRef ∈ methodTypes method,
      Supplied bindings.api bindings.collected typeRef := by
    intro typeRef htype
    refine hresolved.supplied typeRef (List.mem_flatMap.mpr ⟨root, hroot, ?_⟩)
    rw [hmethods, Option.getD_some]
    exact List.mem_flatMap.mpr ⟨method, hmethod, htype⟩
  exact methodUsesPtrcall_iff (root_writable hresolved hroot hmethods method hmethod) hsupplied
    (mem_generatedNames_iff h) className

end Gzscript.Bindings.OfferedMethods
