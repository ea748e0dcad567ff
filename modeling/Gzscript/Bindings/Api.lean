import Gzscript.Library.Fallible
import Mathlib.Data.Int.Notation
import Mathlib.Data.List.Nodup

/-!
# The extension API

What the generator of the bindings reads of the engine's API: the classes with their methods and
enums, and the enums that belong to no class. A class is found by its name, and the last of several
under one name counts.

The classes that a class inherits from are followed by name as well, up to one without a base
(`lineage`). Where this succeeds for a class, it succeeds for each class it meets, with the rest of
the way (`lineage_ancestor`).
-/

set_option autoImplicit false
set_option relaxedAutoImplicit false

namespace Gzscript.Bindings.Api

open Library.Fallible

/-- The errors of the generator. -/
inductive Error
  | unsupportedGodotVersion
  | unsupportedPrecision
  | missingRoots
  | expectedString
  | duplicateProfileClass
  | profileClassNotFound
  | inheritanceCycle
  | inheritedClassNotFound
  | enumOwnerNotGenerated
  | enumNotFound
  | unsupportedMethodKind
  | unsupportedArgumentType
  | unsupportedReturnType
  deriving DecidableEq

structure Header where
  versionMajor : ℤ
  versionMinor : ℤ
  precision : String
  deriving DecidableEq

structure EnumValue where
  name : String
  value : ℤ
  deriving DecidableEq

structure ApiEnum where
  name : String
  isBitfield : Bool
  values : List EnumValue
  deriving DecidableEq

structure TypeRef where
  name : String
  typeMeta : Option String
  deriving DecidableEq

structure Argument where
  name : String
  type : TypeRef
  deriving DecidableEq

structure Method where
  name : String
  returnValue : Option TypeRef
  arguments : List Argument
  isVararg : Bool
  isStatic : Bool
  isVirtual : Bool
  hash : ℤ
  deriving DecidableEq

structure Class where
  name : String
  inherits : Option String
  methods : List Method
  enums : List ApiEnum
  deriving DecidableEq

namespace Class

def method (entry : Class) (name : String) : Option Method :=
  entry.methods.find? fun candidate ↦ candidate.name = name

def apiEnum (entry : Class) (name : String) : Option ApiEnum :=
  entry.enums.find? fun candidate ↦ candidate.name = name

end Class

structure ExtensionApi where
  header : Header
  globalEnums : List ApiEnum
  classes : List Class

namespace ExtensionApi

/-- The class under a name in the index that `buildIndex` makes. -/
def class? (api : ExtensionApi) (name : String) : Option Class :=
  api.classes.reverse.find? fun entry ↦ entry.name = name

def globalEnum (api : ExtensionApi) (name : String) : Option ApiEnum :=
  api.globalEnums.find? fun candidate ↦ candidate.name = name

/-- The loop of `inheritanceChain` from a class on. Every pass visits another class of the API, so
with one pass more than there are classes the passes never run out. -/
def climb (api : ExtensionApi) : ℕ → List String → String → Except Error (List Class)
  | 0, _, _ => .error .inheritanceCycle
  | passes + 1, visited, name =>
    if name ∈ visited then .error .inheritanceCycle
    else
      match api.class? name with
      | none => .error .inheritedClassNotFound
      | some entry =>
        match entry.inherits with
        | none => .ok [entry]
        | some parent => do
          let rest ← climb api passes (name :: visited) parent
          return entry :: rest

/-- The class under a name and those it inherits from, in this order. -/
def lineage (api : ExtensionApi) (name : String) : Except Error (List Class) :=
  climb api (api.classes.length + 1) [] name

/-- `inheritanceChain`: the base comes first. -/
def inheritanceChain (api : ExtensionApi) (name : String) : Except Error (List Class) := do
  let classes ← lineage api name
  return classes.reverse

/-- `findDeclaringClass`: the last class of the chain that has a method under the name. -/
def findDeclaringClass (api : ExtensionApi) (method : Method) (name : String) :
    Except Error String := do
  let chain ← api.inheritanceChain name
  match chain.reverse.find? fun entry ↦ (entry.method method.name).isSome with
  | some entry => return entry.name
  | none => return name

end ExtensionApi

/-! ### The lineage of a class -/

variable {api : ExtensionApi}

theorem class?_name {name : String} {entry : Class} (h : api.class? name = some entry) :
    entry.name = name := by
  simpa using List.find?_some h

/-- What one pass of the loop finds. -/
theorem climb_succ_eq_ok {passes : ℕ} {visited : List String} {name : String}
    {classes : List Class} (h : api.climb (passes + 1) visited name = .ok classes) :
    ∃ entry, name ∉ visited ∧ api.class? name = some entry ∧
      (entry.inherits = none ∧ classes = [entry] ∨
        ∃ parent rest, entry.inherits = some parent ∧
          api.climb passes (name :: visited) parent = .ok rest ∧ classes = entry :: rest) := by
  rw [ExtensionApi.climb] at h
  split_ifs at h with hvisited
  split at h
  next => exact absurd h (by simp)
  next entry hentry =>
    split at h
    next hbase => exact ⟨entry, hvisited, hentry, .inl ⟨hbase, (Except.ok.inj h).symm⟩⟩
    next parent hparent =>
      obtain ⟨rest, hrest, h⟩ := bind_eq_ok.mp h
      exact ⟨entry, hvisited, hentry, .inr ⟨parent, rest, hparent, hrest, (Except.ok.inj h).symm⟩⟩

/-- With more passes, and fewer classes visited, the loop finds the same. -/
theorem climb_mono {passes more : ℕ} {visited fewer : List String} {name : String}
    {classes : List Class} (h : api.climb passes visited name = .ok classes)
    (hpasses : passes ≤ more) (hvisited : fewer ⊆ visited) :
    api.climb more fewer name = .ok classes := by
  induction passes generalizing more visited fewer name classes with
  | zero => exact absurd h (by simp [ExtensionApi.climb])
  | succ passes ih =>
    obtain ⟨more, rfl⟩ := Nat.exists_eq_add_of_le' (Nat.one_le_of_lt hpasses)
    obtain ⟨entry, hfresh, hentry, hrest⟩ := climb_succ_eq_ok h
    have hfresher : name ∉ fewer := fun hmem ↦ hfresh (hvisited hmem)
    rw [ExtensionApi.climb, if_neg hfresher, hentry]
    obtain ⟨hbase, rfl⟩ | ⟨parent, rest, hparent, hclimb, rfl⟩ := hrest
    · simp only [hbase]
    · simp only [hparent]
      refine bind_eq_ok.mpr ⟨rest, ih hclimb (Nat.le_of_succ_le_succ hpasses) ?_, rfl⟩
      exact List.cons_subset_cons name hvisited

/-- From a class on the way the loop goes the rest of it. -/
theorem climb_suffix {passes : ℕ} {visited : List String} {name : String}
    {before after : List Class}
    {entry : Class} (h : api.climb passes visited name = .ok (before ++ entry :: after)) :
    api.climb passes [] entry.name = .ok (entry :: after) := by
  induction before generalizing passes visited name with
  | nil =>
    rcases passes with _ | passes
    · exact absurd h (by simp [ExtensionApi.climb])
    · obtain ⟨first, -, hfirst, hrest⟩ := climb_succ_eq_ok h
      have hentry : first = entry := by
        obtain ⟨-, hclasses⟩ | ⟨parent, rest, -, -, hclasses⟩ := hrest
        · exact (List.cons.inj hclasses).1.symm
        · exact (List.cons.inj hclasses).1.symm
      rw [← hentry, class?_name hfirst, hentry]
      exact climb_mono h (Nat.le_refl _) (List.nil_subset visited)
  | cons first before ih =>
    rcases passes with _ | passes
    · exact absurd h (by simp [ExtensionApi.climb])
    · obtain ⟨other, -, hother, hrest⟩ := climb_succ_eq_ok h
      obtain ⟨-, hclasses⟩ | ⟨parent, rest, -, hclimb, hclasses⟩ := hrest
      · exact absurd (List.cons.inj hclasses).2 (by simp)
      · obtain ⟨-, rfl⟩ := List.cons.inj hclasses
        exact climb_mono (ih hclimb) (Nat.le_succ passes) (List.Subset.refl _)

/-- The lineage of an ancestor is the rest of the lineage. -/
theorem lineage_ancestor {name : String} {before after : List Class} {entry : Class}
    (h : api.lineage name = .ok (before ++ entry :: after)) :
    api.lineage entry.name = .ok (entry :: after) :=
  climb_suffix h

/-- The names on the way have not been visited, and they are distinct. -/
theorem climb_names {passes : ℕ} {visited : List String} {name : String} {classes : List Class}
    (h : api.climb passes visited name = .ok classes) :
    (classes.map Class.name).Nodup ∧ ∀ entry ∈ classes, entry.name ∉ visited := by
  induction passes generalizing visited name classes with
  | zero => exact absurd h (by simp [ExtensionApi.climb])
  | succ passes ih =>
    obtain ⟨first, hfresh, hfirst, hrest⟩ := climb_succ_eq_ok h
    have hname := class?_name hfirst
    obtain ⟨-, rfl⟩ | ⟨parent, rest, -, hclimb, rfl⟩ := hrest
    · refine ⟨List.nodup_singleton _, fun entry hentry ↦ ?_⟩
      obtain rfl := List.mem_singleton.mp hentry
      rwa [hname]
    · obtain ⟨hnodup, hunvisited⟩ := ih hclimb
      constructor
      · refine List.nodup_cons.mpr ⟨fun hmem ↦ ?_, hnodup⟩
        obtain ⟨entry, hentry, hsame⟩ := List.mem_map.mp hmem
        refine hunvisited entry hentry (List.mem_cons.mpr (.inl ?_))
        rw [hsame, hname]
      · intro entry hentry
        obtain rfl | hmem := List.mem_cons.mp hentry
        · rwa [hname]
        · exact fun hvisited ↦ hunvisited entry hmem (List.mem_cons_of_mem name hvisited)

/-- A lineage starts with the class itself. -/
theorem lineage_eq_cons {name : String} {classes : List Class}
    (h : api.lineage name = .ok classes) :
    ∃ entry ancestors, api.class? name = some entry ∧ classes = entry :: ancestors := by
  obtain ⟨entry, -, hentry, hrest⟩ := climb_succ_eq_ok h
  obtain ⟨-, hclasses⟩ | ⟨parent, rest, -, -, hclasses⟩ := hrest
  · exact ⟨entry, [], hentry, hclasses⟩
  · exact ⟨entry, rest, hentry, hclasses⟩

end Gzscript.Bindings.Api
