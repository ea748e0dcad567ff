import Gzscript.Bindings.Selection
import Mathlib.Logic.Function.Basic

/-!
# What the bindings are generated of

The roots of the profile are generated, and each class that the type of a selected method needs: a
class that is no root is a shell, without methods. The enums of those types are collected on the
way, with the class they belong to if there is one.

`Supplied` says what a collection has for one type. Collecting the type brings it about
(`collectTypeDependencies_supplied`), and whatever is collected later leaves it so
(`Supplied.mono`).
-/

set_option autoImplicit false
set_option relaxedAutoImplicit false

namespace Gzscript.Bindings.Resolve

open Library.Fallible Api Selection

/-- The collections that are filled while the types of the methods are visited. A class is generated
once it is in `generatedNames`, the set of them being the same. -/
structure Collected where
  generatedNames : List String
  shells : List String
  /-- The enum in the bindings that a type stands for. -/
  enumTypes : String → Option EnumReference
  globalEnums : List ApiEnum
  globalEnumSet : List String
  classEnums : String → List ApiEnum
  classEnumSet : List EnumReference

def addShell (name : String) (collected : Collected) : Collected :=
  if name ∈ collected.generatedNames then collected
  else
    { collected with
      generatedNames := collected.generatedNames ++ [name]
      shells := collected.shells ++ [name] }

/-- An enum that a type stands for. -/
def putEnumType (typeName : String) (reference : EnumReference) (collected : Collected) :
    Collected :=
  { collected with
    enumTypes := Function.update collected.enumTypes typeName (some reference) }

/-- An enum of a class, once. -/
def addClassEnum (owner : String) (reference : EnumReference) (entry : ApiEnum)
    (collected : Collected) : Collected :=
  if reference ∈ collected.classEnumSet then collected
  else
    { collected with
      classEnumSet := reference :: collected.classEnumSet
      classEnums :=
        Function.update collected.classEnums owner (collected.classEnums owner ++ [entry]) }

/-- An enum of no class, once. -/
def addGlobalEnum (name : String) (entry : ApiEnum) (collected : Collected) : Collected :=
  if name ∈ collected.globalEnumSet then collected
  else
    { collected with
      globalEnumSet := name :: collected.globalEnumSet
      globalEnums := collected.globalEnums ++ [entry] }

def collectTypeDependencies (api : ExtensionApi) (collected : Collected) (typeRef : TypeRef) :
    Except Error Collected :=
  match enumReference typeRef.name with
  | some ⟨some owner, name⟩ =>
    match api.class? owner with
    | none => .error .enumOwnerNotGenerated
    | some classEntry =>
      match classEntry.apiEnum name with
      | none => .error .enumNotFound
      | some entry =>
        .ok (putEnumType typeRef.name ⟨some owner, name⟩
          (addClassEnum owner ⟨some owner, name⟩ entry (addShell owner collected)))
  | some ⟨none, name⟩ =>
    match api.globalEnum name with
    | none => .error .enumNotFound
    | some entry =>
      .ok (putEnumType typeRef.name ⟨none, name⟩ (addGlobalEnum name entry collected))
  | none =>
    if (api.class? typeRef.name).isSome then .ok (addShell typeRef.name collected)
    else .ok collected

/-- The types of a method, in the order in which they are visited. -/
def methodTypes (method : Method) : List TypeRef :=
  method.arguments.map Argument.type ++ method.returnValue.toList

/-- What is generated. `methodsByClass` has an entry for each root. -/
structure ResolvedBindings where
  api : ExtensionApi
  rootNames : List String
  methodsByClass : String → Option (List Method)
  collected : Collected

/-- One root of the profile. An entry that is no string has no name. -/
def addRoot (api : ExtensionApi) (roots : List String) (entry : Option String) :
    Except Error (List String) :=
  match entry with
  | none => .error .expectedString
  | some name =>
    if name ∈ roots then .error .duplicateProfileClass
    else if (api.class? name).isNone then .error .profileClassNotFound
    else .ok (roots ++ [name])

/-- The methods of one root. -/
def addMethods (api : ExtensionApi) (roots : List String) (methods : String → Option (List Method))
    (name : String) : Except Error (String → Option (List Method)) := do
  let selected ← automaticMethods api name roots
  return Function.update methods name (some selected)

/-- The methods of the roots. -/
def methodsOfRoots (api : ExtensionApi) (roots : List String) :
    Except Error (String → Option (List Method)) :=
  roots.foldlM (addMethods api roots) fun _ ↦ none

/-- Nothing is collected yet, and the roots are generated. -/
def initialCollected (roots : List String) : Collected where
  generatedNames := roots
  shells := []
  enumTypes _ := none
  globalEnums := []
  globalEnumSet := []
  classEnums _ := []
  classEnumSet := []

/-- The types of all methods of the roots. -/
def rootTypes (roots : List String) (methods : String → Option (List Method)) : List TypeRef :=
  roots.flatMap fun name ↦ ((methods name).getD []).flatMap methodTypes

def resolveBindings (api : ExtensionApi) (profile : List (Option String)) :
    Except Error ResolvedBindings := do
  let roots ← profile.foldlM (addRoot api) []
  let methods ← methodsOfRoots api roots
  let collected ← (rootTypes roots methods).foldlM (collectTypeDependencies api)
    (initialCollected roots)
  return ⟨api, roots, methods, collected⟩

/-! ### Coherent collections -/

/-- What the collections have to do with one another. -/
structure Coherent (roots : List String) (collected : Collected) : Prop where
  generated : collected.generatedNames = roots ++ collected.shells
  distinct : collected.generatedNames.Nodup
  classEnums : ∀ owner name, ⟨some owner, name⟩ ∈ collected.classEnumSet →
    ∃ entry ∈ collected.classEnums owner, entry.name = name
  globalEnums : collected.globalEnums.map ApiEnum.name = collected.globalEnumSet.reverse
  globalDistinct : collected.globalEnumSet.Nodup

theorem coherent_initial {roots : List String} (h : roots.Nodup) :
    Coherent roots (initialCollected roots) where
  generated := (List.append_nil roots).symm
  distinct := h
  classEnums _ _ hmem := absurd hmem List.not_mem_nil
  globalEnums := rfl
  globalDistinct := List.nodup_nil

variable {roots : List String} {collected : Collected}

theorem coherent_addShell (h : Coherent roots collected) (name : String) :
    Coherent roots (addShell name collected) := by
  unfold addShell
  split_ifs with hgenerated
  · exact h
  · refine ⟨?_, ?_, h.classEnums, h.globalEnums, h.globalDistinct⟩
    · show collected.generatedNames ++ [name] = roots ++ (collected.shells ++ [name])
      rw [h.generated, List.append_assoc]
    · refine List.nodup_append.mpr ⟨h.distinct, List.nodup_singleton name, ?_⟩
      intro other hother added hadded heq
      obtain rfl := List.mem_singleton.mp hadded
      exact hgenerated (heq ▸ hother)

theorem coherent_putEnumType (h : Coherent roots collected) (typeName : String)
    (reference : EnumReference) : Coherent roots (putEnumType typeName reference collected) :=
  ⟨h.generated, h.distinct, h.classEnums, h.globalEnums, h.globalDistinct⟩

theorem coherent_addClassEnum (h : Coherent roots collected) {owner name : String} {entry : ApiEnum}
    (hname : entry.name = name) :
    Coherent roots (addClassEnum owner ⟨some owner, name⟩ entry collected) := by
  unfold addClassEnum
  split_ifs with hknown
  · exact h
  · refine ⟨h.generated, h.distinct, fun other otherName hmem ↦ ?_, h.globalEnums,
      h.globalDistinct⟩
    show ∃ found ∈ Function.update collected.classEnums owner
      (collected.classEnums owner ++ [entry]) other, found.name = otherName
    obtain heq | hold := List.mem_cons.mp hmem
    · obtain ⟨hother, rfl⟩ := EnumReference.mk.inj heq
      obtain rfl := Option.some.inj hother
      rw [Function.update_self]
      exact ⟨entry, List.mem_append_right _ List.mem_cons_self, hname⟩
    · obtain ⟨found, hfound, hfoundName⟩ := h.classEnums other otherName hold
      by_cases hsame : other = owner
      · subst hsame
        rw [Function.update_self]
        exact ⟨found, List.mem_append_left _ hfound, hfoundName⟩
      · rw [Function.update_of_ne hsame]
        exact ⟨found, hfound, hfoundName⟩

theorem coherent_addGlobalEnum (h : Coherent roots collected) {name : String} {entry : ApiEnum}
    (hname : entry.name = name) : Coherent roots (addGlobalEnum name entry collected) := by
  unfold addGlobalEnum
  split_ifs with hknown
  · exact h
  · refine ⟨h.generated, h.distinct, h.classEnums, ?_, List.nodup_cons.mpr ⟨hknown,
      h.globalDistinct⟩⟩
    show (collected.globalEnums ++ [entry]).map ApiEnum.name =
      (name :: collected.globalEnumSet).reverse
    rw [List.map_append, List.reverse_cons, h.globalEnums, List.map_singleton, hname]

/-- What collecting one type does, if it succeeds. -/
theorem collectTypeDependencies_eq_ok {api : ExtensionApi} {typeRef : TypeRef} {next : Collected}
    (h : collectTypeDependencies api collected typeRef = .ok next) :
    (∃ owner name entry, enumReference typeRef.name = some ⟨some owner, name⟩ ∧ entry.name = name ∧
        (api.class? owner).isSome = true ∧
        next = putEnumType typeRef.name ⟨some owner, name⟩
          (addClassEnum owner ⟨some owner, name⟩ entry (addShell owner collected))) ∨
      (∃ name entry, enumReference typeRef.name = some ⟨none, name⟩ ∧ entry.name = name ∧
        entry ∈ api.globalEnums ∧
        next = putEnumType typeRef.name ⟨none, name⟩ (addGlobalEnum name entry collected)) ∨
      (enumReference typeRef.name = none ∧ (api.class? typeRef.name).isSome = true ∧
        next = addShell typeRef.name collected) ∨
      (enumReference typeRef.name = none ∧ api.class? typeRef.name = none ∧ next = collected) := by
  unfold collectTypeDependencies at h
  split at h
  next owner name href =>
    split at h
    next => exact absurd h (by simp)
    next classEntry hclass =>
      split at h
      next => exact absurd h (by simp)
      next entry hentry =>
        have hname : entry.name = name := by simpa using List.find?_some hentry
        have hfound : (api.class? owner).isSome = true := by rw [hclass, Option.isSome_some]
        exact .inl ⟨owner, name, entry, href, hname, hfound, (Except.ok.inj h).symm⟩
  next name href =>
    split at h
    next => exact absurd h (by simp)
    next entry hentry =>
      have hname : entry.name = name := by simpa using List.find?_some hentry
      exact .inr (.inl ⟨name, entry, href, hname, List.mem_of_find?_eq_some hentry,
        (Except.ok.inj h).symm⟩)
  next href =>
    split_ifs at h with hclass
    · exact .inr (.inr (.inl ⟨href, hclass, (Except.ok.inj h).symm⟩))
    · refine .inr (.inr (.inr ⟨href, ?_, (Except.ok.inj h).symm⟩))
      simpa using hclass

theorem coherent_collect {api : ExtensionApi} {typeRef : TypeRef} {next : Collected}
    (h : Coherent roots collected)
    (hnext : collectTypeDependencies api collected typeRef = .ok next) : Coherent roots next := by
  obtain ⟨owner, name, entry, -, hname, -, rfl⟩ | ⟨name, entry, -, hname, -, rfl⟩ | ⟨-, -, rfl⟩ |
    ⟨-, -, rfl⟩ := collectTypeDependencies_eq_ok hnext
  · exact coherent_putEnumType (coherent_addClassEnum (coherent_addShell h owner) hname) _ _
  · exact coherent_putEnumType (coherent_addGlobalEnum h hname) _ _
  · exact coherent_addShell h typeRef.name
  · exact h

/-! ### What is collected is of the API -/

structure Found (api : ExtensionApi) (collected : Collected) : Prop where
  classes : ∀ name ∈ collected.generatedNames, (api.class? name).isSome = true
  globalEnums : ∀ entry ∈ collected.globalEnums, entry ∈ api.globalEnums

theorem found_addShell {api : ExtensionApi} (h : Found api collected) {name : String}
    (hname : (api.class? name).isSome = true) : Found api (addShell name collected) := by
  unfold addShell
  split_ifs
  · exact h
  · refine ⟨fun other hother ↦ ?_, h.globalEnums⟩
    obtain hold | hnew := List.mem_append.mp hother
    · exact h.classes other hold
    · obtain rfl := List.mem_singleton.mp hnew
      exact hname

theorem found_addClassEnum {api : ExtensionApi} (h : Found api collected) (owner : String)
    (reference : EnumReference) (entry : ApiEnum) :
    Found api (addClassEnum owner reference entry collected) := by
  unfold addClassEnum
  split_ifs
  · exact h
  · exact ⟨h.classes, h.globalEnums⟩

theorem found_addGlobalEnum {api : ExtensionApi} (h : Found api collected) (name : String)
    {entry : ApiEnum} (hentry : entry ∈ api.globalEnums) :
    Found api (addGlobalEnum name entry collected) := by
  unfold addGlobalEnum
  split_ifs
  · exact h
  · refine ⟨h.classes, fun other hother ↦ ?_⟩
    obtain hold | hnew := List.mem_append.mp hother
    · exact h.globalEnums other hold
    · obtain rfl := List.mem_singleton.mp hnew
      exact hentry

theorem found_collect {api : ExtensionApi} {typeRef : TypeRef} {next : Collected}
    (h : Found api collected)
    (hnext : collectTypeDependencies api collected typeRef = .ok next) : Found api next := by
  obtain ⟨owner, name, entry, -, -, howner, rfl⟩ | ⟨name, entry, -, -, hentry, rfl⟩ |
    ⟨-, hclass, rfl⟩ | ⟨-, -, rfl⟩ := collectTypeDependencies_eq_ok hnext
  · have hadded := found_addClassEnum (found_addShell h howner) owner ⟨some owner, name⟩ entry
    exact ⟨hadded.classes, hadded.globalEnums⟩
  · have hadded := found_addGlobalEnum h name hentry
    exact ⟨hadded.classes, hadded.globalEnums⟩
  · exact found_addShell h hclass
  · exact h

theorem found_of_collect {api : ExtensionApi} {types : List TypeRef} {last : Collected}
    (hroots : ∀ name ∈ roots, (api.class? name).isSome = true)
    (h : types.foldlM (collectTypeDependencies api) (initialCollected roots) = .ok last) :
    Found api last :=
  foldlM_invariant (Found api) (fun _ _ _ _ hstate hnext ↦ found_collect hstate hnext)
    ⟨hroots, fun _ hmem ↦ absurd hmem List.not_mem_nil⟩ h

/-! ### Collections grow -/

/-- What is collected stays collected. -/
structure Grows (before after : Collected) : Prop where
  generatedNames : before.generatedNames ⊆ after.generatedNames
  classEnums : ∀ owner, before.classEnums owner ⊆ after.classEnums owner
  globalEnums : before.globalEnums ⊆ after.globalEnums
  enumTypes : ∀ typeName reference, enumReference typeName = some reference →
    before.enumTypes typeName = some reference → after.enumTypes typeName = some reference

theorem Grows.refl (collected : Collected) : Grows collected collected :=
  ⟨List.Subset.refl _, fun _ ↦ List.Subset.refl _, List.Subset.refl _, fun _ _ _ h ↦ h⟩

theorem Grows.trans {first second third : Collected} (h : Grows first second)
    (h' : Grows second third) : Grows first third where
  generatedNames _ hmem := h'.generatedNames (h.generatedNames hmem)
  classEnums owner _ hmem := h'.classEnums owner (h.classEnums owner hmem)
  globalEnums _ hmem := h'.globalEnums (h.globalEnums hmem)
  enumTypes typeName reference href hold :=
    h'.enumTypes typeName reference href (h.enumTypes typeName reference href hold)

theorem grows_addShell (name : String) (collected : Collected) :
    Grows collected (addShell name collected) := by
  unfold addShell
  split_ifs
  · exact .refl collected
  · exact ⟨List.subset_append_left _ _, fun _ ↦ List.Subset.refl _, List.Subset.refl _,
      fun _ _ _ h ↦ h⟩

theorem grows_addClassEnum (owner : String) (reference : EnumReference) (entry : ApiEnum)
    (collected : Collected) : Grows collected (addClassEnum owner reference entry collected) := by
  unfold addClassEnum
  split_ifs
  · exact .refl collected
  · refine ⟨List.Subset.refl _, fun other ↦ ?_, List.Subset.refl _, fun _ _ _ h ↦ h⟩
    show collected.classEnums other ⊆ Function.update collected.classEnums owner
      (collected.classEnums owner ++ [entry]) other
    by_cases hsame : other = owner
    · subst hsame
      rw [Function.update_self]
      exact List.subset_append_left _ _
    · rw [Function.update_of_ne hsame]
      exact List.Subset.refl _

theorem grows_addGlobalEnum (name : String) (entry : ApiEnum) (collected : Collected) :
    Grows collected (addGlobalEnum name entry collected) := by
  unfold addGlobalEnum
  split_ifs
  · exact .refl collected
  · exact ⟨List.Subset.refl _, fun _ ↦ List.Subset.refl _, List.subset_append_left _ _,
      fun _ _ _ h ↦ h⟩

theorem grows_putEnumType {typeName : String} {reference : EnumReference}
    (href : enumReference typeName = some reference) (collected : Collected) :
    Grows collected (putEnumType typeName reference collected) := by
  refine ⟨List.Subset.refl _, fun _ ↦ List.Subset.refl _, List.Subset.refl _, ?_⟩
  intro other otherReference hother hold
  show Function.update collected.enumTypes typeName (some reference) other = some otherReference
  by_cases hsame : other = typeName
  · subst hsame
    rw [Function.update_self, ← href, hother]
  · rw [Function.update_of_ne hsame, hold]

/-! ### What a collection has for a type -/

/-- The enum of the type and its class, or the class that the type is, are there. -/
structure Supplied (api : ExtensionApi) (collected : Collected) (typeRef : TypeRef) : Prop where
  classEnum : ∀ owner name, enumReference typeRef.name = some ⟨some owner, name⟩ →
    owner ∈ collected.generatedNames ∧
      collected.enumTypes typeRef.name = some ⟨some owner, name⟩ ∧
      ∃ entry ∈ collected.classEnums owner, entry.name = name
  globalEnum : ∀ name, enumReference typeRef.name = some ⟨none, name⟩ →
    collected.enumTypes typeRef.name = some ⟨none, name⟩ ∧
      ∃ entry ∈ collected.globalEnums, entry.name = name
  object : enumReference typeRef.name = none → (api.class? typeRef.name).isSome = true →
    typeRef.name ∈ collected.generatedNames

theorem Supplied.mono {api : ExtensionApi} {before after : Collected} {typeRef : TypeRef}
    (h : Supplied api before typeRef) (hgrows : Grows before after) :
    Supplied api after typeRef where
  classEnum owner name href := by
    obtain ⟨howner, htype, entry, hentry, hname⟩ := h.classEnum owner name href
    exact ⟨hgrows.generatedNames howner, hgrows.enumTypes _ _ href htype, entry,
      hgrows.classEnums owner hentry, hname⟩
  globalEnum name href := by
    obtain ⟨htype, entry, hentry, hname⟩ := h.globalEnum name href
    exact ⟨hgrows.enumTypes _ _ href htype, entry, hgrows.globalEnums hentry, hname⟩
  object href hclass := hgrows.generatedNames (h.object href hclass)

theorem mem_addShell (name : String) (collected : Collected) :
    name ∈ (addShell name collected).generatedNames := by
  unfold addShell
  split_ifs with hgenerated
  · exact hgenerated
  · exact List.mem_append_right _ List.mem_cons_self

theorem addClassEnum_generatedNames (owner : String) (reference : EnumReference) (entry : ApiEnum)
    (collected : Collected) :
    (addClassEnum owner reference entry collected).generatedNames = collected.generatedNames := by
  unfold addClassEnum
  split_ifs
  · rfl
  · rfl

theorem mem_addClassEnum (h : Coherent roots collected) {owner name : String} {entry : ApiEnum}
    (hname : entry.name = name) :
    ∃ found ∈ (addClassEnum owner ⟨some owner, name⟩ entry collected).classEnums owner,
      found.name = name := by
  have hadded : Coherent roots (addClassEnum owner ⟨some owner, name⟩ entry collected) :=
    coherent_addClassEnum h hname
  refine hadded.classEnums owner name ?_
  unfold addClassEnum
  split_ifs with hknown
  · exact hknown
  · exact List.mem_cons_self

theorem mem_addGlobalEnum (h : Coherent roots collected) {name : String} {entry : ApiEnum}
    (hname : entry.name = name) :
    ∃ found ∈ (addGlobalEnum name entry collected).globalEnums, found.name = name := by
  have hadded := coherent_addGlobalEnum h hname
  have hmem : name ∈ (addGlobalEnum name entry collected).globalEnumSet := by
    unfold addGlobalEnum
    split_ifs with hknown
    · exact hknown
    · exact List.mem_cons_self
  rw [← List.mem_reverse, ← hadded.globalEnums] at hmem
  exact List.mem_map.mp hmem

/-- Collecting a type supplies it, and keeps what was collected before. -/
theorem collectTypeDependencies_supplied {api : ExtensionApi} {typeRef : TypeRef}
    {next : Collected} (h : Coherent roots collected)
    (hnext : collectTypeDependencies api collected typeRef = .ok next) :
    Grows collected next ∧ Supplied api next typeRef := by
  obtain ⟨owner, name, entry, href, hname, -, rfl⟩ | ⟨name, entry, href, hname, -, rfl⟩ |
    ⟨href, hclass, rfl⟩ | ⟨href, hclass, rfl⟩ := collectTypeDependencies_eq_ok hnext
  · refine ⟨((grows_addShell owner collected).trans (grows_addClassEnum ..)).trans
      (grows_putEnumType href _), ⟨fun other otherName hother ↦ ?_, fun _ hother ↦ ?_,
      fun hother ↦ ?_⟩⟩
    · rw [href] at hother
      obtain ⟨howner, rfl⟩ := EnumReference.mk.inj (Option.some.inj hother)
      obtain rfl := Option.some.inj howner
      refine ⟨?_, Function.update_self .., mem_addClassEnum (coherent_addShell h owner) hname⟩
      show owner ∈ (addClassEnum owner _ entry (addShell owner collected)).generatedNames
      rw [addClassEnum_generatedNames]
      exact mem_addShell owner collected
    · rw [href] at hother
      exact absurd (EnumReference.mk.inj (Option.some.inj hother)).1 (Option.some_ne_none owner)
    · rw [href] at hother
      exact absurd hother (Option.some_ne_none _)
  · refine ⟨(grows_addGlobalEnum ..).trans (grows_putEnumType href _),
      ⟨fun _ _ hother ↦ ?_, fun otherName hother ↦ ?_, fun hother ↦ ?_⟩⟩
    · rw [href] at hother
      exact absurd (EnumReference.mk.inj (Option.some.inj hother)).1.symm (Option.some_ne_none _)
    · rw [href] at hother
      obtain ⟨-, rfl⟩ := EnumReference.mk.inj (Option.some.inj hother)
      exact ⟨Function.update_self .., mem_addGlobalEnum h hname⟩
    · rw [href] at hother
      exact absurd hother (Option.some_ne_none _)
  · refine ⟨grows_addShell typeRef.name collected, ⟨fun _ _ hother ↦ ?_, fun _ hother ↦ ?_,
      fun _ _ ↦ mem_addShell typeRef.name collected⟩⟩
    · exact absurd (href.symm.trans hother).symm (Option.some_ne_none _)
    · exact absurd (href.symm.trans hother).symm (Option.some_ne_none _)
  · refine ⟨.refl _, ⟨fun _ _ hother ↦ ?_, fun _ hother ↦ ?_, fun _ hsome ↦ ?_⟩⟩
    · exact absurd (href.symm.trans hother).symm (Option.some_ne_none _)
    · exact absurd (href.symm.trans hother).symm (Option.some_ne_none _)
    · rw [hclass] at hsome
      exact absurd hsome Bool.false_ne_true

/-- After the loop over some types all of them are supplied. -/
theorem collect_supplied {api : ExtensionApi} {types : List TypeRef} {last : Collected}
    (h : Coherent roots collected)
    (hlast : types.foldlM (collectTypeDependencies api) collected = .ok last) :
    Coherent roots last ∧ Grows collected last ∧ ∀ typeRef ∈ types, Supplied api last typeRef := by
  induction types generalizing collected with
  | nil =>
    rw [List.foldlM_nil] at hlast
    obtain rfl := Except.ok.inj hlast
    exact ⟨h, .refl collected, fun _ hmem ↦ absurd hmem List.not_mem_nil⟩
  | cons typeRef types ih =>
    rw [List.foldlM_cons] at hlast
    obtain ⟨next, hnext, hlast⟩ := bind_eq_ok.mp hlast
    obtain ⟨hgrows, hsupplied⟩ := collectTypeDependencies_supplied h hnext
    obtain ⟨hcoherent, hrest, hall⟩ := ih (coherent_collect h hnext) hlast
    refine ⟨hcoherent, hgrows.trans hrest, fun other hother ↦ ?_⟩
    obtain rfl | hmem := List.mem_cons.mp hother
    · exact hsupplied.mono hrest
    · exact hall other hmem

/-! ### Resolved bindings -/

/-- What is known of bindings that have been resolved. -/
structure Resolved (bindings : ResolvedBindings) : Prop where
  rootsDistinct : bindings.rootNames.Nodup
  rootsFound : ∀ name ∈ bindings.rootNames, (bindings.api.class? name).isSome = true
  methods : ∀ name ∈ bindings.rootNames, ∃ methods,
    bindings.methodsByClass name = some methods ∧
      automaticMethods bindings.api name bindings.rootNames = .ok methods
  noMethods : ∀ name, name ∉ bindings.rootNames → bindings.methodsByClass name = none
  coherent : Coherent bindings.rootNames bindings.collected
  found : Found bindings.api bindings.collected
  supplied : ∀ typeRef ∈ rootTypes bindings.rootNames bindings.methodsByClass,
    Supplied bindings.api bindings.collected typeRef

/-- A root is generated, and is no shell. -/
theorem Resolved.root_generated {bindings : ResolvedBindings} (h : Resolved bindings)
    {root : String} (hroot : root ∈ bindings.rootNames) :
    root ∈ bindings.collected.generatedNames := by
  rw [h.coherent.generated]
  exact List.mem_append_left _ hroot

theorem Resolved.root_not_shell {bindings : ResolvedBindings} (h : Resolved bindings)
    {root : String} (hroot : root ∈ bindings.rootNames) : root ∉ bindings.collected.shells := by
  have hdistinct := h.coherent.distinct
  rw [h.coherent.generated] at hdistinct
  exact fun hmem ↦ (List.nodup_append.mp hdistinct).2.2 root hroot root hmem rfl

theorem addRoot_eq_ok {api : ExtensionApi} {entry : Option String} {next : List String}
    (h : addRoot api roots entry = .ok next) :
    ∃ name, entry = some name ∧ name ∉ roots ∧ (api.class? name).isSome = true ∧
      next = roots ++ [name] := by
  unfold addRoot at h
  split at h
  next => exact absurd h (by simp)
  next name =>
    split_ifs at h with hknown hnone
    refine ⟨name, rfl, hknown, ?_, (Except.ok.inj h).symm⟩
    rwa [Bool.not_eq_true, Option.isNone_eq_false_iff] at hnone

/-- The roots are distinct, and are classes of the API. -/
theorem roots_of_ok {api : ExtensionApi} {profile : List (Option String)}
    (h : profile.foldlM (addRoot api) [] = .ok roots) :
    roots.Nodup ∧ ∀ name ∈ roots, (api.class? name).isSome = true := by
  refine foldlM_invariant
    (fun roots ↦ roots.Nodup ∧ ∀ name ∈ roots, (api.class? name).isSome = true) ?_
    ⟨List.nodup_nil, fun _ hmem ↦ absurd hmem List.not_mem_nil⟩ h
  rintro before entry after - ⟨hdistinct, hfound⟩ hafter
  obtain ⟨name, -, hfresh, hclass, rfl⟩ := addRoot_eq_ok hafter
  constructor
  · refine List.nodup_append.mpr ⟨hdistinct, List.nodup_singleton name, ?_⟩
    intro other hother added hadded heq
    obtain rfl := List.mem_singleton.mp hadded
    exact hfresh (heq ▸ hother)
  · intro other hother
    obtain hold | hnew := List.mem_append.mp hother
    · exact hfound other hold
    · obtain rfl := List.mem_singleton.mp hnew
      exact hclass

/-- The loop over some roots gives each of them its methods, and the others what they had. -/
theorem addMethods_loop {api : ExtensionApi} {names : List String}
    {start last : String → Option (List Method)}
    (h : names.foldlM (addMethods api roots) start = .ok last) :
    (∀ name ∈ names, ∃ selected, last name = some selected ∧
        automaticMethods api name roots = .ok selected) ∧
      ∀ name, name ∉ names → last name = start name := by
  induction names generalizing start with
  | nil =>
    rw [List.foldlM_nil] at h
    obtain rfl := Except.ok.inj h
    exact ⟨fun _ hmem ↦ absurd hmem List.not_mem_nil, fun _ _ ↦ rfl⟩
  | cons first names ih =>
    rw [List.foldlM_cons] at h
    obtain ⟨next, hnext, h⟩ := bind_eq_ok.mp h
    obtain ⟨selected, hselected, hnext⟩ := bind_eq_ok.mp hnext
    obtain rfl := Except.ok.inj hnext
    obtain ⟨hnames, hothers⟩ := ih h
    refine ⟨fun name hname ↦ ?_, fun name hname ↦ ?_⟩
    · by_cases hlater : name ∈ names
      · exact hnames name hlater
      · obtain rfl := (List.mem_cons.mp hname).resolve_right hlater
        refine ⟨selected, ?_, hselected⟩
        rw [hothers name hlater, Function.update_self]
    · rw [hothers name fun hlater ↦ hname (List.mem_cons_of_mem first hlater)]
      exact Function.update_of_ne (fun heq ↦ hname (List.mem_cons.mpr (.inl heq))) _ _

theorem resolved_of_ok {api : ExtensionApi} {profile : List (Option String)}
    {bindings : ResolvedBindings} (h : resolveBindings api profile = .ok bindings) :
    Resolved bindings ∧ bindings.api = api := by
  obtain ⟨roots, hroots, h⟩ := bind_eq_ok.mp h
  obtain ⟨methods, hmethods, h⟩ := bind_eq_ok.mp h
  obtain ⟨collected, hcollected, h⟩ := bind_eq_ok.mp h
  obtain rfl := Except.ok.inj h
  have hinvariant := roots_of_ok hroots
  obtain ⟨hcoherent, -, hsupplied⟩ := collect_supplied (coherent_initial hinvariant.1) hcollected
  obtain ⟨hselected, hnone⟩ := addMethods_loop hmethods
  have hfound := found_of_collect hinvariant.2 hcollected
  exact ⟨⟨hinvariant.1, hinvariant.2, hselected, hnone, hcoherent, hfound, hsupplied⟩, rfl⟩

end Gzscript.Bindings.Resolve
