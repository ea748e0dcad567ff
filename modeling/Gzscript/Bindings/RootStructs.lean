import Gzscript.Bindings.Rendering

/-!
# The structs of the roots

A root is rendered with one method for each that is selected for it, and with a conversion to each
root that it inherits from (`exists_rootStruct`). Whether the method calls the engine or is
forwarded, it has the name and the types of the one it is made for (`IsEmitted.signature`).
-/

set_option autoImplicit false
set_option relaxedAutoImplicit false

namespace Gzscript.Bindings.RootStructs

open Library.Fallible Api Selection Resolve Rendering

theorem inheritanceChain_of_lineage {api : ExtensionApi} {name : String} {classes : List Api.Class}
    (h : api.lineage name = .ok classes) : api.inheritanceChain name = .ok classes.reverse :=
  bind_eq_ok.mpr ⟨classes, h, rfl⟩

/-! ### The emitted methods -/

variable {bindings : ResolvedBindings}

/-- An emitted method has the name and the types of the method it is generated for. -/
structure Signature (collected : Collected) (method : Method) (emitted : EmittedMethod) : Prop where
  name : emitted.name = methodId method
  parameters : method.arguments.mapM (renderArgument collected) = .ok emitted.parameters
  returnType : methodReturnType collected method = .ok emitted.returnType

theorem renderMethod_eq_ok {collected : Collected} {method : Method} {className : String}
    {emitted : EmittedMethod} (h : renderMethod collected method className = .ok emitted) :
    Signature collected method emitted ∧
      (methodUsesPtrcall collected method className = .ok true ∧
          emitted.body = .ptrcallMethod className method.name method.hash ∨
        methodUsesPtrcall collected method className = .ok false ∧
          emitted.body = .call method.name) := by
  unfold renderMethod at h
  split_ifs at h
  obtain ⟨parameters, hparameters, h⟩ := bind_eq_ok.mp h
  obtain ⟨returnType, hreturnType, h⟩ := bind_eq_ok.mp h
  obtain ⟨ptrcall, hptrcall, h⟩ := bind_eq_ok.mp h
  obtain rfl := Except.ok.inj h
  refine ⟨⟨rfl, hparameters, hreturnType⟩, ?_⟩
  cases ptrcall with
  | true => exact .inl ⟨hptrcall, rfl⟩
  | false => exact .inr ⟨hptrcall, rfl⟩

theorem renderForwardedMethod_eq_ok {collected : Collected} {method : Method} {declaring : String}
    {emitted : EmittedMethod} (h : renderForwardedMethod collected method declaring = .ok emitted) :
    Signature collected method emitted ∧ emitted.body = .forward declaring (methodId method) := by
  obtain ⟨parameters, hparameters, h⟩ := bind_eq_ok.mp h
  obtain ⟨returnType, hreturnType, h⟩ := bind_eq_ok.mp h
  obtain rfl := Except.ok.inj h
  exact ⟨⟨rfl, hparameters, hreturnType⟩, rfl⟩

/-- The method that is emitted for a selected one whose declaring class is known. -/
def IsEmitted (collected : Collected) (className declaring : String) (method : Method)
    (emitted : EmittedMethod) : Prop :=
  if declaring = className then renderMethod collected method className = .ok emitted
  else renderForwardedMethod collected method declaring = .ok emitted

theorem IsEmitted.signature {collected : Collected} {className declaring : String} {method : Method}
    {emitted : EmittedMethod} (h : IsEmitted collected className declaring method emitted) :
    Signature collected method emitted := by
  unfold IsEmitted at h
  split_ifs at h
  · exact (renderMethod_eq_ok h).1
  · exact (renderForwardedMethod_eq_ok h).1

theorem renderOwn_eq_ok {className : String} {method : Method} {rendered : List EmittedMethod}
    (h : renderOwn bindings className method = .ok rendered) :
    ∃ declaring, bindings.api.findDeclaringClass method className = .ok declaring ∧
      (declaring = className ∧ (∃ emitted, renderMethod bindings.collected method className =
          .ok emitted ∧ rendered = [emitted]) ∨
        declaring ≠ className ∧ rendered = []) := by
  obtain ⟨declaring, hdeclaring, h⟩ := bind_eq_ok.mp h
  refine ⟨declaring, hdeclaring, ?_⟩
  split_ifs at h with hsame
  · exact .inr ⟨hsame, (Except.ok.inj h).symm⟩
  · obtain ⟨emitted, hemitted, h⟩ := bind_eq_ok.mp h
    exact .inl ⟨not_not.mp hsame, emitted, hemitted, (Except.ok.inj h).symm⟩

theorem renderInherited_eq_ok {className : String} {method : Method}
    {rendered : List EmittedMethod} (h : renderInherited bindings className method = .ok rendered) :
    ∃ declaring, bindings.api.findDeclaringClass method className = .ok declaring ∧
      (declaring ≠ className ∧
          (∃ emitted, renderForwardedMethod bindings.collected method declaring = .ok emitted ∧
            rendered = [emitted]) ∨
        declaring = className ∧ rendered = []) := by
  obtain ⟨declaring, hdeclaring, h⟩ := bind_eq_ok.mp h
  refine ⟨declaring, hdeclaring, ?_⟩
  split_ifs at h with hsame
  · exact .inr ⟨hsame, (Except.ok.inj h).symm⟩
  · obtain ⟨emitted, hemitted, h⟩ := bind_eq_ok.mp h
    exact .inl ⟨hsame, emitted, hemitted, (Except.ok.inj h).symm⟩

/-! ### The structs -/

/-- What the struct of a root has. -/
structure RootStruct (bindings : ResolvedBindings) (className : String) (chain : List Api.Class)
    (methods : List Method) (struct : ClassStruct) : Prop where
  name : struct.name = className
  upcasts : ∀ ancestor, ancestor ∈ struct.upcasts ↔
    ancestor ∈ bindings.rootNames ∧ ∃ entry ∈ chain.dropLast, entry.name = ancestor
  emitted : ∀ emitted ∈ struct.methods, ∃ method ∈ methods, ∃ declaring,
    bindings.api.findDeclaringClass method className = .ok declaring ∧
      IsEmitted bindings.collected className declaring method emitted
  rendered : ∀ method ∈ methods, ∀ declaring,
    bindings.api.findDeclaringClass method className = .ok declaring →
      ∃ emitted ∈ struct.methods, IsEmitted bindings.collected className declaring method emitted

/-- A class that is no shell is rendered with its methods. -/
theorem renderResolvedClass_root {className : String} {methods : List Method}
    {chain : List Api.Class} {struct : ClassStruct} (hshell : className ∉ bindings.collected.shells)
    (hchain : bindings.api.inheritanceChain className = .ok chain)
    (hmethods : bindings.methodsByClass className = some methods)
    (h : renderResolvedClass bindings className = .ok struct) :
    RootStruct bindings className chain methods struct := by
  rw [renderResolvedClass, if_neg hshell] at h
  obtain ⟨found, hfound, h⟩ := bind_eq_ok.mp h
  obtain rfl := Except.ok.inj (hchain.symm.trans hfound)
  rw [hmethods, Option.getD_some] at h
  obtain ⟨own, hown, h⟩ := bind_eq_ok.mp h
  obtain ⟨inherited, hinherited, h⟩ := bind_eq_ok.mp h
  obtain rfl := Except.ok.inj h
  refine ⟨rfl, fun ancestor ↦ ?_, fun emitted hemitted ↦ ?_,
    fun method hmethod declaring hfind ↦ ?_⟩
  · simp only [List.mem_map, List.mem_filter, decide_eq_true_eq]
    constructor
    · rintro ⟨entry, ⟨hentry, hroot⟩, rfl⟩
      exact ⟨hroot, entry, hentry, rfl⟩
    · rintro ⟨hroot, entry, hentry, rfl⟩
      exact ⟨entry, ⟨hentry, hroot⟩, rfl⟩
  · obtain hmem | hmem := List.mem_append.mp hemitted
    · obtain ⟨rendered, hrendered, hmem⟩ := List.mem_flatten.mp hmem
      obtain ⟨method, hmethod, hrender⟩ := (mem_mapM_iff hown rendered).mp hrendered
      obtain ⟨declaring, hfind, ⟨hsame, other, hother, rfl⟩ | ⟨-, rfl⟩⟩ := renderOwn_eq_ok hrender
      · obtain rfl := List.mem_singleton.mp hmem
        exact ⟨method, hmethod, declaring, hfind, (if_pos hsame).mpr hother⟩
      · exact absurd hmem List.not_mem_nil
    · obtain ⟨rendered, hrendered, hmem⟩ := List.mem_flatten.mp hmem
      obtain ⟨method, hmethod, hrender⟩ := (mem_mapM_iff hinherited rendered).mp hrendered
      obtain ⟨declaring, hfind, ⟨hother, other, hforwarded, rfl⟩ | ⟨-, rfl⟩⟩ :=
        renderInherited_eq_ok hrender
      · obtain rfl := List.mem_singleton.mp hmem
        exact ⟨method, hmethod, declaring, hfind, (if_neg hother).mpr hforwarded⟩
      · exact absurd hmem List.not_mem_nil
  · by_cases hsame : declaring = className
    · obtain ⟨rendered, hrendered, hrender⟩ := exists_of_mapM_eq_ok hown hmethod
      obtain ⟨other, hfound, ⟨-, emitted, hemitted, rfl⟩ | ⟨hne, -⟩⟩ := renderOwn_eq_ok hrender
      · refine ⟨emitted, List.mem_append_left _ ?_, (if_pos hsame).mpr hemitted⟩
        exact List.mem_flatten.mpr ⟨_, hrendered, List.mem_singleton_self emitted⟩
      · exact absurd ((Except.ok.inj (hfound.symm.trans hfind)).trans hsame) hne
    · obtain ⟨rendered, hrendered, hrender⟩ := exists_of_mapM_eq_ok hinherited hmethod
      obtain ⟨other, hfound, hcases⟩ := renderInherited_eq_ok hrender
      obtain rfl := Except.ok.inj (hfound.symm.trans hfind)
      obtain ⟨-, emitted, hemitted, rfl⟩ | ⟨heq, -⟩ := hcases
      · refine ⟨emitted, List.mem_append_right _ ?_, (if_neg hsame).mpr hemitted⟩
        exact List.mem_flatten.mpr ⟨_, hrendered, List.mem_singleton_self emitted⟩
      · exact absurd heq hsame

/-- A root is rendered with its methods and with a conversion to each root it inherits from. -/
theorem exists_rootStruct (h : Resolved bindings) {root : String}
    (hroot : root ∈ bindings.rootNames) :
    ∃ entry ancestors methods, bindings.api.lineage root = .ok (entry :: ancestors) ∧
      bindings.api.class? root = some entry ∧
      automaticMethods bindings.api root bindings.rootNames = .ok methods ∧
      ∀ struct, renderResolvedClass bindings root = .ok struct →
        RootStruct bindings root (entry :: ancestors).reverse methods struct := by
  obtain ⟨methods, hmethods, hselected⟩ := h.methods root hroot
  obtain ⟨chain, hchain, -⟩ := bind_eq_ok.mp hselected
  obtain ⟨classes, hlineage, -⟩ := bind_eq_ok.mp hchain
  obtain ⟨entry, ancestors, hentry, rfl⟩ := lineage_eq_cons hlineage
  exact ⟨entry, ancestors, methods, hlineage, hentry, hselected, fun struct hstruct ↦
    renderResolvedClass_root (h.root_not_shell hroot) (inheritanceChain_of_lineage hlineage)
      hmethods hstruct⟩

theorem RootStruct.mem_upcasts_iff {className : String} {entry : Api.Class}
    {ancestors : List Api.Class} {methods : List Method} {struct : ClassStruct}
    (h : RootStruct bindings className (entry :: ancestors).reverse methods struct)
    (ancestor : String) :
    ancestor ∈ struct.upcasts ↔
      ancestor ∈ bindings.rootNames ∧ ∃ other ∈ ancestors, other.name = ancestor := by
  rw [h.upcasts, List.reverse_cons, List.dropLast_concat]
  simp only [List.mem_reverse]

end Gzscript.Bindings.RootStructs
