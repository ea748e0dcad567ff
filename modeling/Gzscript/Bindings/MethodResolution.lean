import Gzscript.Bindings.OfferedMethods

/-!
# What the generated methods refer to

A method that calls the engine names a class, a method of it and a hash; a method that is forwarded
converts to a class and calls a method of its struct. Which method is generated under a name, and
which class is named as declaring it, is found by two walks along the classes that a class inherits
from: the first looks at the supported methods of roots only, the second at every method of every
class.

The names resolve exactly if the API and the profile make the walks agree for each method that is
offered to a root (`renderTree_methodsResolve_iff`): the nearest class with a method under the name
is a root, or it is the class itself, and then it has a supported one, or the method is not called
by its hash, or has the hash of one of its own. A class between two roots that is none itself, with
a method of its own under the name, breaks this (`shadowed_unresolved`).
-/

set_option autoImplicit false
set_option relaxedAutoImplicit false

namespace Gzscript.Bindings.MethodResolution

open Library.Fallible Api Selection Resolve Rendering RootStructs Components Bindings.Tree
  TreeContents OfferedMethods

/-! ### What resolves -/

/-- The types of a method in the bindings. -/
def SameTypes (emitted other : EmittedMethod) : Prop :=
  other.parameters.map Prod.snd = emitted.parameters.map Prod.snd ∧
    other.returnType = emitted.returnType

/-- The body of a method of a struct refers to what is there. -/
def Resolves (api : ExtensionApi) (files : List GeneratedFile) (struct : ClassStruct)
    (emitted : EmittedMethod) : Prop :=
  match emitted.body with
  | .ptrcallMethod className name hash =>
    ∃ entry, api.class? className = some entry ∧
      ∃ method ∈ entry.methods, method.name = name ∧ method.hash = hash
  | .call _ => True
  | .forward declaring name =>
    declaring ∈ struct.upcasts ∧ ∃ target ∈ structsOf files, target.name = declaring ∧
      ∃ other ∈ target.methods, other.name = name ∧ SameTypes emitted other

def MethodsResolve (api : ExtensionApi) (files : List GeneratedFile) : Prop :=
  ∀ struct ∈ structsOf files, ∀ emitted ∈ struct.methods, Resolves api files struct emitted

/-- A class has a method under a name, supported or not. -/
def declares (name : String) (entry : Api.Class) : Bool := (entry.method name).isSome

/-- The class that is named as declaring an offered method has it. The class itself is named once it
has a method under the name: one that is not supported is passed over when the methods are selected,
and the one that is offered in its place must then be called by name, or have the same hash. -/
def WellDeclared (api : ExtensionApi) (profile : List (Option String)) (entry : Api.Class)
    (ancestors : List Api.Class) (method : Method) : Prop :=
  if declares method.name entry = true then
    (∃ own ∈ entry.methods, own.name = method.name ∧ methodSupported api own = true) ∨
      ¬CalledByHash (Needed api (IsRoot profile)) entry.name method ∨
      ∃ own ∈ entry.methods, own.name = method.name ∧ own.hash = method.hash
  else
    ∀ nearest, ancestors.find? (declares method.name) = some nearest →
      IsRoot profile nearest.name

/-- The two walks agree for each method that is offered to a root of the profile. -/
def WalksAgree (api : ExtensionApi) (profile : List (Option String)) : Prop :=
  ∀ root, IsRoot profile root → ∀ entry ancestors,
    api.lineage root = .ok (entry :: ancestors) →
      ∀ method, Offered api (IsRoot profile) method (entry :: ancestors) →
        WellDeclared api profile entry ancestors method

/-! ### The walks -/

variable {api : ExtensionApi}

theorem declares_iff {name : String} {entry : Api.Class} :
    declares name entry = true ↔ ∃ method ∈ entry.methods, method.name = name := by
  rw [declares, Api.Class.method, List.find?_isSome]
  simp only [decide_eq_true_eq]

/-- The class that is named as declaring a method is the nearest one that has it. -/
theorem findDeclaringClass_of_find {name : String} {classes : List Api.Class} {nearest : Api.Class}
    {method : Method} (h : api.lineage name = .ok classes)
    (hnearest : classes.find? (declares method.name) = some nearest) :
    api.findDeclaringClass method name = .ok nearest.name := by
  refine bind_eq_ok.mpr ⟨classes.reverse, inheritanceChain_of_lineage h, ?_⟩
  have hfind : (classes.find? fun entry ↦ (entry.method method.name).isSome) = some nearest :=
    hnearest
  rw [List.reverse_reverse, hfind]
  rfl

theorem mem_offeredMethods_iff {roots : List String} {classes : List Api.Class} {method : Method} :
    method ∈ offeredMethods api roots classes ↔
      ∃ entry ∈ classes, entry.name ∈ roots ∧ method ∈ entry.methods ∧
        methodSupported api method = true := by
  simp only [offeredMethods, List.mem_flatMap, List.mem_filter, decide_eq_true_eq, and_assoc]

theorem lastNamed_some {methods : List Method} {name : String} {method : Method}
    (h : lastNamed methods name = some method) : method ∈ methods ∧ method.name = name :=
  ⟨List.mem_reverse.mp (List.mem_of_find?_eq_some h), by simpa using List.find?_some h⟩

theorem mem_automaticMethods_iff {root : String} {roots : List String} {classes : List Api.Class}
    {methods : List Method} (hlineage : api.lineage root = .ok classes)
    (h : automaticMethods api root roots = .ok methods) (method : Method) :
    method ∈ methods ↔
      lastNamed (offeredMethods api roots classes.reverse) method.name = some method := by
  obtain ⟨chain, hchain, h⟩ := bind_eq_ok.mp h
  obtain rfl := Except.ok.inj ((inheritanceChain_of_lineage hlineage).symm.trans hchain)
  obtain rfl := Except.ok.inj h
  exact (mem_selected_iff _).2 method

/-- A selected method is one of a root on the way, so some class has a method under its name. -/
theorem exists_nearest {root : String} {roots : List String} {classes : List Api.Class}
    {methods : List Method} (hlineage : api.lineage root = .ok classes)
    (h : automaticMethods api root roots = .ok methods) {method : Method}
    (hmem : method ∈ methods) :
    ∃ nearest, classes.find? (declares method.name) = some nearest := by
  have hlast := (mem_automaticMethods_iff hlineage h method).mp hmem
  obtain ⟨entry, hentry, -, hmethod, -⟩ := mem_offeredMethods_iff.mp (lastNamed_some hlast).1
  refine Option.isSome_iff_exists.mp (List.find?_isSome.mpr ⟨entry, ?_, ?_⟩)
  · exact List.mem_reverse.mp hentry
  · exact declares_iff.mpr ⟨method, hmethod, rfl⟩

/-- Past classes without a method under the name, the same method is selected. -/
theorem automaticMethods_ancestor {root : String} {roots : List String}
    {before after : List Api.Class} {nearest : Api.Class} {methods others : List Method}
    {method : Method}
    (hlineage : api.lineage root = .ok (before ++ nearest :: after))
    (hbefore : ∀ entry ∈ before, declares method.name entry = false)
    (h : automaticMethods api root roots = .ok methods)
    (h' : automaticMethods api nearest.name roots = .ok others) (hmem : method ∈ methods) :
    method ∈ others := by
  rw [mem_automaticMethods_iff hlineage h, List.reverse_append, offeredMethods_append,
    lastNamed_append_of_none] at hmem
  · exact (mem_automaticMethods_iff (lineage_ancestor hlineage) h' method).mpr hmem
  · intro other hother hname
    obtain ⟨entry, hentry, -, hdeclared, -⟩ := mem_offeredMethods_iff.mp hother
    have hnone := hbefore entry (List.mem_reverse.mp hentry)
    rw [← Bool.not_eq_true] at hnone
    exact hnone (declares_iff.mpr ⟨other, hdeclared, hname⟩)

/-- A root with a supported method under the name has the selected one itself. -/
theorem selected_own {root : String} {roots : List String} {entry : Api.Class}
    {ancestors : List Api.Class} {methods : List Method} {method own : Method}
    (hlineage : api.lineage root = .ok (entry :: ancestors)) (hroot : entry.name ∈ roots)
    (h : automaticMethods api root roots = .ok methods) (hmem : method ∈ methods)
    (hown : own ∈ entry.methods) (hname : own.name = method.name)
    (hsupported : methodSupported api own = true) : method ∈ entry.methods := by
  rw [mem_automaticMethods_iff hlineage h, List.reverse_cons, offeredMethods_append,
    lastNamed_append] at hmem
  have hoffered : own ∈ offeredMethods api roots [entry] :=
    mem_offeredMethods_iff.mpr ⟨entry, List.mem_singleton_self entry, hroot, hown, hsupported⟩
  have hsome : (lastNamed (offeredMethods api roots [entry]) method.name).isSome = true :=
    List.find?_isSome.mpr ⟨own, List.mem_reverse.mpr hoffered, decide_eq_true hname⟩
  obtain ⟨last, hlast⟩ := Option.isSome_iff_exists.mp hsome
  rw [hlast, Option.some_or] at hmem
  obtain rfl := Option.some.inj hmem
  obtain ⟨found, hfound, -, hdeclared, -⟩ := mem_offeredMethods_iff.mp (lastNamed_some hlast).1
  obtain rfl := List.mem_singleton.mp hfound
  exact hdeclared

/-! ### The two walks agree -/

variable {profile : List (Option String)} {bindings : ResolvedBindings} {dependencies : Matrix}

theorem sameTypes_of_signature {collected : Collected} {method : Method}
    {emitted other : EmittedMethod} (h : Signature collected method emitted)
    (h' : Signature collected method other) : SameTypes emitted other := by
  constructor
  · rw [Except.ok.inj (h'.parameters.symm.trans h.parameters)]
  · exact Except.ok.inj (h'.returnType.symm.trans h.returnType)

/-- The nearest class with a method under a name is the class itself or one it inherits from. -/
theorem nearest_cases {name : String} {entry nearest : Api.Class} {ancestors : List Api.Class}
    (h : (entry :: ancestors).find? (declares name) = some nearest) :
    declares name entry = true ∧ nearest = entry ∨
      declares name entry = false ∧ ancestors.find? (declares name) = some nearest := by
  cases hentry : declares name entry with
  | true =>
    rw [List.find?_cons_of_pos hentry] at h
    exact .inl ⟨rfl, (Option.some.inj h).symm⟩
  | false =>
    rw [List.find?_cons_of_neg (Bool.not_eq_true _ ▸ hentry)] at h
    exact .inr ⟨rfl, h⟩

/-- No class inherits from one of its own name. -/
theorem ancestor_name_ne {name : String} {entry other : Api.Class} {ancestors : List Api.Class}
    (h : api.lineage name = .ok (entry :: ancestors)) (hother : other ∈ ancestors) :
    other.name ≠ name := by
  obtain ⟨first, rest, hfirst, heq⟩ := lineage_eq_cons h
  obtain ⟨rfl, rfl⟩ := List.cons.inj heq
  have hnodup := (climb_names h).1
  rw [List.map_cons, List.nodup_cons, class?_name hfirst] at hnodup
  exact fun hsame ↦ hnodup.1 (List.mem_map.mpr ⟨other, hother, hsame⟩)

/-- If what the methods of a root refer to is there, the walks agree for the root. -/
theorem wellDeclared_of_resolves (hbindings : resolveBindings bindings.api profile = .ok bindings)
    {files : List GeneratedFile} {struct : ClassStruct} {root : String} {entry : Api.Class}
    {ancestors : List Api.Class} {methods : List Method} {method : Method}
    (hroot : root ∈ bindings.rootNames)
    (hlineage : bindings.api.lineage root = .ok (entry :: ancestors))
    (hentry : bindings.api.class? root = some entry)
    (hselected : automaticMethods bindings.api root bindings.rootNames = .ok methods)
    (hstruct : RootStruct bindings root (entry :: ancestors).reverse methods struct)
    (hresolves : ∀ emitted ∈ struct.methods, Resolves bindings.api files struct emitted)
    (hmethod : method ∈ methods) :
    WellDeclared bindings.api profile entry ancestors method := by
  have hname := class?_name hentry
  unfold WellDeclared
  split_ifs with hdeclares
  · have hfind : (entry :: ancestors).find? (declares method.name) = some entry :=
      List.find?_cons_of_pos hdeclares
    obtain ⟨emitted, hmem, hemitted⟩ :=
      hstruct.rendered method hmethod _ (findDeclaringClass_of_find hlineage hfind)
    rw [IsEmitted, if_pos hname] at hemitted
    obtain ⟨-, ⟨-, hbody⟩ | ⟨hcall, -⟩⟩ := renderMethod_eq_ok hemitted
    · have hresolved := hresolves emitted hmem
      rw [Resolves, hbody] at hresolved
      obtain ⟨found, hfound, own, hown, hownName, hhash⟩ := hresolved
      obtain rfl := Option.some.inj (hentry.symm.trans hfound)
      exact .inr (.inr ⟨own, hown, hownName, hhash⟩)
    · refine .inr (.inl fun hdirect ↦ ?_)
      have hptrcall :=
        (selected_calledByHash_iff hbindings hroot hselected hmethod entry.name).mpr hdirect
      rw [hname, hcall] at hptrcall
      exact Bool.false_ne_true (Except.ok.inj hptrcall)
  · intro nearest hnearest
    have hfind : (entry :: ancestors).find? (declares method.name) = some nearest := by
      rw [List.find?_cons_of_neg hdeclares, hnearest]
    obtain ⟨emitted, hmem, hemitted⟩ :=
      hstruct.rendered method hmethod _ (findDeclaringClass_of_find hlineage hfind)
    have hother := ancestor_name_ne hlineage (List.mem_of_find?_eq_some hnearest)
    rw [IsEmitted, if_neg hother] at hemitted
    have hresolved := hresolves emitted hmem
    rw [Resolves, (renderForwardedMethod_eq_ok hemitted).2] at hresolved
    have hnearestRoot := ((hstruct.mem_upcasts_iff nearest.name).mp hresolved.1).1
    exact (congrFun (rootNames_eq hbindings) nearest.name).mp hnearestRoot

/-- A root that is the nearest class with a method under a name has the method that is selected for
the classes that inherit from it. -/
theorem exists_target {files : List GeneratedFile} (hresolved : Resolved bindings)
    (hrendered : Rendered bindings dependencies files) {root : String}
    {before after : List Api.Class} {nearest : Api.Class} {methods : List Method}
    {method : Method} (hlineage : bindings.api.lineage root = .ok (before ++ nearest :: after))
    (hbefore : ∀ entry ∈ before, declares method.name entry = false)
    (hdeclares : declares method.name nearest = true)
    (hnearest : nearest.name ∈ bindings.rootNames)
    (hselected : automaticMethods bindings.api root bindings.rootNames = .ok methods)
    (hmethod : method ∈ methods) :
    ∃ target ∈ structsOf files, target.name = nearest.name ∧
      ∃ other ∈ target.methods, Signature bindings.collected method other := by
  obtain ⟨target, htarget, hrender⟩ :=
    exists_struct hrendered (hresolved.root_generated hnearest)
  obtain ⟨first, rest, others, -, -, hothers, hstruct⟩ := exists_rootStruct hresolved hnearest
  have hsame := automaticMethods_ancestor hlineage hbefore hselected hothers hmethod
  have hfind : (nearest :: after).find? (declares method.name) = some nearest :=
    List.find?_cons_of_pos hdeclares
  obtain ⟨other, hother, hemitted⟩ := (hstruct target hrender).rendered method hsame nearest.name
    (findDeclaringClass_of_find (lineage_ancestor hlineage) hfind)
  exact ⟨target, htarget, (hstruct target hrender).name, other, hother, hemitted.signature⟩

/-- If the walks agree for a root, what its methods refer to is there. -/
theorem resolves_of_wellDeclared (hbindings : resolveBindings bindings.api profile = .ok bindings)
    {files : List GeneratedFile} (hresolved : Resolved bindings)
    (hrendered : Rendered bindings dependencies files) {struct : ClassStruct} {root : String}
    {entry : Api.Class} {ancestors : List Api.Class} {methods : List Method}
    {emitted : EmittedMethod}
    (hroot : root ∈ bindings.rootNames)
    (hlineage : bindings.api.lineage root = .ok (entry :: ancestors))
    (hentry : bindings.api.class? root = some entry)
    (hselected : automaticMethods bindings.api root bindings.rootNames = .ok methods)
    (hstruct : RootStruct bindings root (entry :: ancestors).reverse methods struct)
    (hdeclared : ∀ method ∈ methods, WellDeclared bindings.api profile entry ancestors method)
    (hmem : emitted ∈ struct.methods) : Resolves bindings.api files struct emitted := by
  have hname := class?_name hentry
  obtain ⟨method, hmethod, declaring, hdeclaring, hemitted⟩ := hstruct.emitted emitted hmem
  obtain ⟨nearest, hnearest⟩ := exists_nearest hlineage hselected hmethod
  obtain rfl := Except.ok.inj
    ((findDeclaringClass_of_find hlineage hnearest).symm.trans hdeclaring)
  have hwell := hdeclared method hmethod
  obtain ⟨hdeclares, rfl⟩ | ⟨hdeclares, hancestor⟩ := nearest_cases hnearest
  · rw [IsEmitted, if_pos hname] at hemitted
    rw [WellDeclared, if_pos hdeclares] at hwell
    obtain ⟨-, ⟨hptrcall, hbody⟩ | ⟨-, hbody⟩⟩ := renderMethod_eq_ok hemitted
    · rw [Resolves, hbody]
      refine ⟨nearest, hentry, ?_⟩
      obtain ⟨own, hown, hownName, hsupported⟩ | hcall | ⟨own, hown, hownName, hhash⟩ := hwell
      · have hrootName : nearest.name ∈ bindings.rootNames := hname ▸ hroot
        exact ⟨method, selected_own hlineage hrootName hselected hmethod hown hownName hsupported,
          rfl, rfl⟩
      · refine absurd ?_ hcall
        rw [← selected_calledByHash_iff hbindings hroot hselected hmethod, hname]
        exact hptrcall
      · exact ⟨own, hown, hownName, hhash⟩
    · rw [Resolves, hbody]
      trivial
  · rw [WellDeclared, if_neg (Bool.not_eq_true _ ▸ hdeclares)] at hwell
    have hnearestRoot : nearest.name ∈ bindings.rootNames :=
      (congrFun (rootNames_eq hbindings) nearest.name).mpr (hwell nearest hancestor)
    have hnearestMem := List.mem_of_find?_eq_some hancestor
    have hother := ancestor_name_ne hlineage hnearestMem
    rw [IsEmitted, if_neg hother] at hemitted
    obtain ⟨hsignature, hbody⟩ := renderForwardedMethod_eq_ok hemitted
    rw [Resolves, hbody]
    have hupcast := (hstruct.mem_upcasts_iff nearest.name).mpr
      ⟨hnearestRoot, nearest, hnearestMem, rfl⟩
    obtain ⟨hdeclaresNearest, before, after, hsplit, hbefore⟩ :=
      List.find?_eq_some_iff_append.mp hnearest
    have hnone : ∀ entry ∈ before, declares method.name entry = false := fun entry hentry ↦ by
      simpa using hbefore entry hentry
    obtain ⟨target, htarget, htargetName, other, hotherMem, hotherSignature⟩ :=
      exists_target hresolved hrendered (hsplit ▸ hlineage) hnone hdeclaresNearest hnearestRoot
        hselected hmethod
    exact ⟨hupcast, target, htarget, htargetName, other, hotherMem, hotherSignature.name,
      sameTypes_of_signature hsignature hotherSignature⟩

/-- What the generated methods refer to is there if and only if the two walks agree. -/
theorem renderTree_methodsResolve_iff {profile : List (Option String)} {files : List GeneratedFile}
    (h : renderTree api (some profile) = .ok files) :
    MethodsResolve api files ↔ WalksAgree api profile := by
  obtain ⟨roots, bindings, hroots, hbindings, hfiles⟩ := renderTree_eq_ok h
  obtain rfl := Option.some.inj hroots
  obtain ⟨hresolved, rfl⟩ := resolved_of_ok hbindings
  obtain ⟨dependencies, hrendered⟩ := rendered_of_ok hfiles
  have hmemRoots : ∀ name, name ∈ bindings.rootNames ↔ IsRoot profile name := fun name ↦
    iff_of_eq (congrFun (rootNames_eq hbindings) name)
  constructor
  · intro hresolves root hroot entry ancestors hlineage method hoffered
    replace hroot := (hmemRoots root).mpr hroot
    obtain ⟨first, rest, methods, hlineage', hentry, hselected, hstructs⟩ :=
      exists_rootStruct hresolved hroot
    obtain ⟨rfl, rfl⟩ := List.cons.inj (Except.ok.inj (hlineage.symm.trans hlineage'))
    have hmethod := (mem_selected_iff_offered hbindings hlineage hselected method).mpr hoffered
    obtain ⟨struct, hstruct, hrender⟩ :=
      exists_struct hrendered (hresolved.root_generated hroot)
    exact wellDeclared_of_resolves hbindings hroot hlineage hentry hselected
      (hstructs struct hrender) (hresolves struct hstruct) hmethod
  · intro hwalks struct hstruct emitted hemitted
    obtain ⟨name, hname, hrender⟩ := (mem_structsOf_iff hrendered struct).mp hstruct
    rw [hresolved.coherent.generated] at hname
    by_cases hroot : name ∈ bindings.rootNames
    · obtain ⟨entry, ancestors, methods, hlineage, hentry, hselected, hstructs⟩ :=
        exists_rootStruct hresolved hroot
      refine resolves_of_wellDeclared hbindings hresolved hrendered hroot hlineage hentry hselected
        (hstructs struct hrender) (fun method hmethod ↦ ?_) hemitted
      exact hwalks name ((hmemRoots name).mp hroot) entry ancestors hlineage method
        ((mem_selected_iff_offered hbindings hlineage hselected method).mp hmethod)
    · have hshell := (List.mem_append.mp hname).resolve_left hroot
      rw [renderResolvedClass, if_pos hshell] at hrender
      obtain rfl := Except.ok.inj hrender
      exact absurd hemitted List.not_mem_nil

/-! ### A class between two roots -/

/-- A method of some class that counts the children of a node. -/
def getChildCount (hash : ℤ) : Method where
  name := "get_child_count"
  returnValue := some ⟨"int", some "int64"⟩
  arguments := []
  isVararg := false
  isStatic := false
  isVirtual := false
  hash := hash

/-- A control declares the method of a node once more, and a button inherits it. -/
def shadowedApi : ExtensionApi where
  header := ⟨4, 7, "single"⟩
  globalEnums := []
  classes :=
    [⟨"Node", none, [getChildCount 1], []⟩, ⟨"Control", some "Node", [getChildCount 2], []⟩,
      ⟨"Button", some "Control", [], []⟩]

theorem renderTree_methodsResolve_iff_shadowed :
    ∃ files, renderTree shadowedApi (some [some "Node", some "Control", some "Button"]) =
        .ok files ∧
      (MethodsResolve shadowedApi files ↔
        WalksAgree shadowedApi [some "Node", some "Control", some "Button"]) := by
  have hany : (renderTree shadowedApi
      (some [some "Node", some "Control", some "Button"])).toOption.any (fun _ ↦ true) = true := by
    decide
  obtain ⟨files, hfiles, -⟩ := exists_of_any hany
  exact ⟨files, hfiles, renderTree_methodsResolve_iff hfiles⟩

/-- Without the control among the roots, the button has no conversion to it, but forwards to it. -/
theorem shadowed_unresolved :
    ∃ files, renderTree shadowedApi (some [some "Node", some "Button"]) = .ok files ∧
      ¬ MethodsResolve shadowedApi files := by
  have hany : (renderTree shadowedApi (some [some "Node", some "Button"])).toOption.any
      (fun files ↦ (structsOf files).any fun struct ↦ struct.methods.any fun emitted ↦
        decide (emitted.body = .forward "Control" "getChildCount" ∧ "Control" ∉ struct.upcasts)) =
      true := by decide
  obtain ⟨files, hfiles, hforward⟩ := exists_of_any hany
  obtain ⟨struct, hstruct, hforward⟩ := List.any_eq_true.mp hforward
  obtain ⟨emitted, hemitted, hforward⟩ := List.any_eq_true.mp hforward
  obtain ⟨hbody, hupcast⟩ := of_decide_eq_true hforward
  refine ⟨files, hfiles, fun hresolves ↦ hupcast ?_⟩
  have hresolved := hresolves struct hstruct emitted hemitted
  rw [Resolves, hbody] at hresolved
  exact hresolved.1

end Gzscript.Bindings.MethodResolution
