import Gzscript.Abi.Load
import Gzscript.Library.Fallible
import Mathlib.Data.List.Basic

/-!
# The property table of a loaded module

The end of `GzCompiledModule::load`: the two loops that fill the names, the indices and the defaults
of the properties, and the lists that the Inspector is shown. An index past the end of a table of
the descriptor is `illegal` here.

`load_coherent` says what holds of the tables of every descriptor that is accepted. The entries list
every property once, so nothing outside the tables is read, and since the names are distinct a name
finds the index it was registered with.
-/

set_option autoImplicit false
set_option relaxedAutoImplicit false

namespace Gzscript.Abi.PropertyTable

open Library.Bytes Library.Fallible Value ValueCodec Descriptor Inspector RawDescriptor Load

variable {Object F32 F64 Dictionary : Type}

/-! ### The tables -/

/-- How the loops end before the module is returned: with an error, or at an index past the end of a
table. -/
inductive Failure where
  | error (message : String)
  | illegal

/-- The tables of a module. `Dictionary` is what `Dictionary(property)` makes of the information on
a property. -/
structure Tables (Object F32 F64 Dictionary : Type) where
  propertyNames : List String
  propertyIndices : List (String × UInt32)
  propertyDefaults : List (String × Variant Object F32 F64)
  inspectorProperties : List PropertyInfo
  scriptPropertyList : List Dictionary

def Tables.empty : Tables Object F32 F64 Dictionary := ⟨[], [], [], [], []⟩

/-- The value of a key is set, in the place of the one it had. -/
def assign {α : Type} (entries : List (String × α)) (key : String) (value : α) :
    List (String × α) :=
  if (entries.lookup key).isSome then
    entries.map fun entry ↦ if entry.1 = key then (key, value) else entry
  else entries ++ [(key, value)]

/-- A property is entered under its name. -/
def Tables.register (tables : Tables Object F32 F64 Dictionary) (name : String) (index : UInt32)
    (value : Variant Object F32 F64) : Tables Object F32 F64 Dictionary :=
  { tables with
    propertyNames := tables.propertyNames ++ [name]
    propertyIndices := assign tables.propertyIndices name index
    propertyDefaults := assign tables.propertyDefaults name value }

/-- An entry of the Inspector is listed. -/
def Tables.list (tables : Tables Object F32 F64 Dictionary) (property : PropertyInfo)
    (dictionary : Dictionary) : Tables Object F32 F64 Dictionary :=
  { tables with
    inspectorProperties := tables.inspectorProperties ++ [property]
    scriptPropertyList := tables.scriptPropertyList ++ [dictionary] }

/-- `find_property`. -/
def findProperty (tables : Tables Object F32 F64 Dictionary) (name : String) : Int32 :=
  match tables.propertyIndices.lookup name with
  | some index => index.toInt32
  | none => -1

variable (engine : Engine Object) (num : F64 → String) (toDictionary : PropertyInfo → Dictionary)

/-- The loop over the properties, the next of which is that at `i`. -/
def registerProperties (descriptor : RawScriptDescriptor F32 F64) : ℕ → ℕ →
    Tables Object F32 F64 Dictionary → Except Failure (Tables Object F32 F64 Dictionary)
  | 0, _, tables => .ok tables
  | remaining + 1, i, tables =>
    match descriptor.properties.list[i]? with
    | none => .error .illegal
    | some property =>
      let name := engine.ofUtf8 property.name.slice
      if (tables.propertyIndices.lookup name).isSome then
        .error (.error ("Compiled Zig script has duplicate property name: " ++ name))
      else
        registerProperties descriptor remaining (i + 1)
          (tables.register name (UInt32.ofNat i) (toVariant engine property.defaultValue.value).1)

/-- The loop over the Inspector entries, the next of which is that at `i`. -/
def listEntries (descriptor : RawScriptDescriptor F32 F64) : ℕ → ℕ →
    Tables Object F32 F64 Dictionary → Except Failure (Tables Object F32 F64 Dictionary)
  | 0, _, tables => .ok tables
  | remaining + 1, i, tables =>
    match descriptor.inspectorEntries.list[i]? with
    | none => .error .illegal
    | some entry =>
      match inspectorPropertyInfo engine num descriptor.script entry.read with
      | none => .error .illegal
      | some property =>
        listEntries descriptor remaining (i + 1) (tables.list property (toDictionary property))

/-- The tables of a descriptor that passes the checks. -/
def buildTables (descriptor : RawScriptDescriptor F32 F64) :
    Except Failure (Tables Object F32 F64 Dictionary) := do
  let tables ← registerProperties engine descriptor descriptor.properties.count.toNat 0 .empty
  listEntries engine num toDictionary descriptor descriptor.inspectorEntries.count.toNat 0 tables

/-! ### Coherent tables -/

/-- The indices of the properties that the entries list, in their order. -/
def listedIndices (entries : List RawInspectorEntry) : List ℕ :=
  (entries.filter fun entry ↦ entry.kind = inspectorEntryProperty).map
    fun entry ↦ entry.propertyIndex.toNat

structure Coherent (descriptor : RawScriptDescriptor F32 F64)
    (tables : Tables Object F32 F64 Dictionary) : Prop where
  /-- The entries of properties are in bijection with the indices of the properties. -/
  bijection : (listedIndices descriptor.inspectorEntries.list).Perm
    (List.range descriptor.properties.count.toNat)
  inRange : ∀ index ∈ listedIndices descriptor.inspectorEntries.list,
    index < descriptor.properties.list.length
  found : ∀ (i : ℕ) (property : RawProperty F32 F64),
    descriptor.properties.list[i]? = some property →
      (findProperty tables (engine.ofUtf8 property.name.slice)).toInt = i
  notFound : ∀ name, (∀ property ∈ descriptor.properties.list,
    engine.ofUtf8 property.name.slice ≠ name) → findProperty tables name = -1
  /-- Every property has its default, and there is one entry for each of the names. -/
  defaults : tables.propertyDefaults = propertyDefaults engine descriptor.script
  defaultsLength : tables.propertyDefaults.length = descriptor.properties.count.toNat
  defaultsDistinct : (tables.propertyDefaults.map Prod.fst).Nodup
  /-- The lists show the entries one after the other. -/
  inspector : tables.inspectorProperties.map some = scriptPropertyList engine num descriptor.script
  inspectorLength : tables.inspectorProperties.length = descriptor.inspectorEntries.count.toNat
  listed : tables.scriptPropertyList = tables.inspectorProperties.map toDictionary

/-! ### The pass over the entries -/

/-- The pass lists the indices of the entries, each within the count and none twice. -/
theorem listProperties_ok {count : ℕ} {entries : List RawInspectorEntry} {listed result : List ℕ}
    (hlisted : listed.Nodup) (hbelow : ∀ index ∈ listed, index < count)
    (h : listProperties count entries listed = .ok result) :
    result = (listedIndices entries).reverse ++ listed ∧ result.Nodup ∧
      ∀ index ∈ result, index < count := by
  induction entries generalizing listed with
  | nil =>
    rw [listProperties] at h
    obtain rfl := Except.ok.inj h
    exact ⟨rfl, hlisted, hbelow⟩
  | cons entry entries ih =>
    rw [listProperties] at h
    split at h
    next => cases h
    next =>
      split at h
      next hkind =>
        have hindices : listedIndices (entry :: entries) = listedIndices entries := by
          rw [listedIndices, List.filter_cons_of_neg (by simpa using hkind), listedIndices]
        rw [hindices]
        exact ih hlisted hbelow h
      next hkind =>
        have hindices : listedIndices (entry :: entries) =
            entry.propertyIndex.toNat :: listedIndices entries := by
          rw [listedIndices, List.filter_cons_of_pos (by simpa using hkind), List.map_cons,
            listedIndices]
        split at h
        next => cases h
        next hnew =>
          rw [not_or, Nat.not_le] at hnew
          have hmore := ih (List.nodup_cons.mpr ⟨hnew.2, hlisted⟩)
            (List.forall_mem_cons.mpr ⟨hnew.1, hbelow⟩) h
          rw [hindices, List.reverse_cons, List.append_assoc, List.singleton_append]
          exact hmore

/-- Entries that the loader accepts list every index once. -/
theorem listedIndices_perm {descriptor : RawScriptDescriptor F32 F64}
    (h : inspectorError descriptor = none) :
    (listedIndices descriptor.inspectorEntries.list).Perm
      (List.range descriptor.properties.count.toNat) := by
  rw [inspectorError] at h
  split at h
  next => cases h
  next listed hlisted =>
    obtain ⟨heq, hnodup, hbelow⟩ := listProperties_ok List.nodup_nil
      (fun index hindex ↦ absurd hindex List.not_mem_nil) hlisted
    rw [List.append_nil] at heq
    split at h
    next hall =>
      have hcovers := List.all_eq_true.mp hall
      have hperm : listed.Perm (List.range descriptor.properties.count.toNat) := by
        rw [List.perm_ext_iff_of_nodup hnodup List.nodup_range]
        intro index
        rw [List.mem_range]
        refine ⟨hbelow index, fun hindex ↦ ?_⟩
        exact of_decide_eq_true (hcovers index (List.mem_range.mpr hindex))
      rw [heq] at hperm
      exact (List.reverse_perm _).symm.trans hperm
    next => cases h

/-! ### Keys and values -/

theorem lookup_isSome_iff {α : Type} (entries : List (String × α)) (key : String) :
    (entries.lookup key).isSome = true ↔ key ∈ entries.map Prod.fst := by
  rw [← not_iff_not, Bool.not_eq_true, Option.isSome_eq_false_iff, Option.isNone_iff_eq_none,
    List.lookup_eq_none_iff, List.mem_map]
  constructor
  · rintro hnone ⟨entry, hentry, rfl⟩
    exact absurd (hnone entry hentry) (by simp)
  · intro hnone entry hentry
    rw [bne_iff_ne]
    rintro rfl
    exact hnone ⟨entry, hentry, rfl⟩

theorem assign_new {α : Type} {entries : List (String × α)} {key : String}
    (hnew : key ∉ entries.map Prod.fst) (value : α) :
    assign entries key value = entries ++ [(key, value)] := by
  rw [assign, if_neg ((lookup_isSome_iff entries key).not.mpr hnew)]

/-- The names with their indices. -/
def numbered (start : ℕ) (names : List String) : List (String × UInt32) :=
  (names.zipIdx start).map fun entry ↦ (entry.1, UInt32.ofNat entry.2)

theorem numbered_keys (start : ℕ) (names : List String) :
    (numbered start names).map Prod.fst = names := by
  rw [numbered, List.map_map]
  exact List.zipIdx_map_fst start names

theorem numbered_concat (names : List String) (name : String) :
    numbered 0 (names ++ [name]) = numbered 0 names ++ [(name, UInt32.ofNat names.length)] := by
  rw [numbered, List.zipIdx_append, List.map_append, numbered, Nat.zero_add]
  rfl

/-- A name that occurs once is found with its index. -/
theorem lookup_numbered {names : List String} (hnodup : names.Nodup) (start : ℕ) {i : ℕ}
    {name : String} (hname : names[i]? = some name) :
    (numbered start names).lookup name = some (UInt32.ofNat (start + i)) := by
  induction names generalizing start i with
  | nil => cases hname
  | cons first names ih =>
    rw [List.nodup_cons] at hnodup
    show ((first, UInt32.ofNat start) :: numbered (start + 1) names).lookup name = _
    rw [List.lookup_cons]
    cases i with
    | zero =>
      obtain rfl := Option.some.inj hname
      rw [BEq.rfl]
      rfl
    | succ i =>
      rw [List.getElem?_cons_succ] at hname
      have hne : name ≠ first := by
        rintro rfl
        exact hnodup.1 (List.mem_of_getElem? hname)
      rw [beq_false_of_ne hne]
      show (numbered (start + 1) names).lookup name = _
      rw [ih hnodup.2 (start + 1) hname, Nat.add_assoc, Nat.add_comm 1 i]

/-! ### The loop over the properties -/

section Registering

variable {engine} {descriptor : RawScriptDescriptor F32 F64}

/-- The tables after the first `i` properties. -/
def registered (engine : Engine Object) (descriptor : RawScriptDescriptor F32 F64) (i : ℕ) :
    Tables Object F32 F64 Dictionary where
  propertyNames := (propertyNames engine descriptor).take i
  propertyIndices := numbered 0 ((propertyNames engine descriptor).take i)
  propertyDefaults := (propertyDefaults engine descriptor.script).take i
  inspectorProperties := []
  scriptPropertyList := []

theorem propertyDefaults_keys (engine : Engine Object) (descriptor : RawScriptDescriptor F32 F64) :
    (propertyDefaults engine descriptor.script).map Prod.fst = propertyNames engine descriptor := by
  simp [propertyDefaults, propertyNames, RawScriptDescriptor.script, RawProperty.read]

theorem length_propertyNames (engine : Engine Object) (descriptor : RawScriptDescriptor F32 F64) :
    (propertyNames engine descriptor).length = descriptor.properties.list.length :=
  List.length_map _

theorem propertyNames_getElem? (engine : Engine Object) {i : ℕ} {property : RawProperty F32 F64}
    (hproperty : descriptor.properties.list[i]? = some property) :
    (propertyNames engine descriptor)[i]? = some (engine.ofUtf8 property.name.slice) := by
  rw [propertyNames, List.getElem?_map, hproperty]
  rfl

theorem take_propertyNames (engine : Engine Object) {i : ℕ} {property : RawProperty F32 F64}
    (hproperty : descriptor.properties.list[i]? = some property) :
    (propertyNames engine descriptor).take (i + 1) =
      (propertyNames engine descriptor).take i ++ [engine.ofUtf8 property.name.slice] := by
  rw [List.take_add_one, propertyNames_getElem? engine hproperty]
  rfl

theorem take_propertyDefaults (engine : Engine Object) {i : ℕ} {property : RawProperty F32 F64}
    (hproperty : descriptor.properties.list[i]? = some property) :
    (propertyDefaults engine descriptor.script).take (i + 1) =
      (propertyDefaults engine descriptor.script).take i ++
        [(engine.ofUtf8 property.name.slice,
          (toVariant engine property.defaultValue.value).1)] := by
  rw [List.take_add_one, propertyDefaults, RawScriptDescriptor.script, List.getElem?_map,
    List.getElem?_map, hproperty]
  rfl

/-- One more property with a new name. -/
theorem register_registered {i : ℕ} {property : RawProperty F32 F64}
    (hproperty : descriptor.properties.list[i]? = some property)
    (hnew : engine.ofUtf8 property.name.slice ∉ (propertyNames engine descriptor).take i) :
    (registered engine descriptor i : Tables Object F32 F64 Dictionary).register
      (engine.ofUtf8 property.name.slice) (UInt32.ofNat i)
      (toVariant engine property.defaultValue.value).1 = registered engine descriptor (i + 1) := by
  obtain ⟨hlt, -⟩ := List.getElem?_eq_some_iff.mp hproperty
  have hlength : ((propertyNames engine descriptor).take i).length = i := by
    rw [List.length_take, length_propertyNames]
    omega
  have hkey : engine.ofUtf8 property.name.slice ∉
      (numbered 0 ((propertyNames engine descriptor).take i)).map Prod.fst := by
    rwa [numbered_keys]
  have hkey' : engine.ofUtf8 property.name.slice ∉
      ((propertyDefaults engine descriptor.script).take i).map Prod.fst := by
    rwa [List.map_take, propertyDefaults_keys]
  simp only [Tables.register, registered, assign_new hkey, assign_new hkey',
    take_propertyNames engine hproperty, take_propertyDefaults engine hproperty, numbered_concat,
    hlength]

/-- The loop registers all properties, or stops with the error of a name that occurs twice. -/
theorem registerProperties_meets (hcount : descriptor.properties.list.length =
      descriptor.properties.count.toNat) (remaining i : ℕ)
    (htotal : i + remaining = descriptor.properties.count.toNat)
    (hdistinct : ((propertyNames engine descriptor).take i).Nodup) :
    Meets (fun failure ↦ failure ≠ Failure.illegal ∧ ¬ (propertyNames engine descriptor).Nodup)
      (fun tables ↦ tables = registered engine descriptor descriptor.properties.count.toNat)
      (registerProperties engine descriptor remaining i
        (registered engine descriptor i : Tables Object F32 F64 Dictionary)) := by
  induction remaining generalizing i with
  | zero =>
    rw [Nat.add_zero] at htotal
    rw [registerProperties, htotal]
    rfl
  | succ remaining ih =>
    have hlt : i < descriptor.properties.list.length := by omega
    have hproperty := List.getElem?_eq_getElem hlt
    have htake := take_propertyNames engine hproperty
    have hkeys : (registered engine descriptor i :
        Tables Object F32 F64 Dictionary).propertyIndices.map Prod.fst =
          (propertyNames engine descriptor).take i := numbered_keys 0 _
    rw [registerProperties, hproperty]
    show Meets _ _ (if _ then _ else _)
    split
    next hknown =>
      refine ⟨Failure.noConfusion, fun hnodup ↦ ?_⟩
      have htaken := hnodup.sublist (List.take_sublist (i + 1) _)
      rw [htake, List.nodup_append] at htaken
      rw [lookup_isSome_iff, hkeys] at hknown
      exact htaken.2.2 _ hknown _ (List.mem_singleton_self _) rfl
    next hunknown =>
      rw [lookup_isSome_iff, hkeys] at hunknown
      rw [register_registered hproperty hunknown]
      refine ih (i + 1) (by omega) ?_
      rw [htake, List.nodup_append]
      refine ⟨hdistinct, List.pairwise_singleton _ _, ?_⟩
      rintro name hmem last hlast rfl
      rw [List.mem_singleton.mp hlast] at hmem
      exact hunknown hmem

end Registering

/-! ### The loop over the entries -/

section Listing

variable {engine num toDictionary} {descriptor : RawScriptDescriptor F32 F64}

/-- The first `i` entries have been listed, and the rest of the tables is as it was. -/
structure Listed (engine : Engine Object) (num : F64 → String)
    (toDictionary : PropertyInfo → Dictionary) (descriptor : RawScriptDescriptor F32 F64)
    (start : Tables Object F32 F64 Dictionary) (i : ℕ)
    (tables : Tables Object F32 F64 Dictionary) : Prop where
  indices : tables.propertyIndices = start.propertyIndices
  defaults : tables.propertyDefaults = start.propertyDefaults
  inspector : tables.inspectorProperties.map some =
    (scriptPropertyList engine num descriptor.script).take i
  listed : tables.scriptPropertyList = tables.inspectorProperties.map toDictionary

/-- An entry of a property that is there is shown. -/
theorem inspectorPropertyInfo_isSome (engine : Engine Object) (num : F64 → String)
    {entry : RawInspectorEntry}
    (hindex : entry.kind = inspectorEntryProperty →
      entry.propertyIndex.toNat < descriptor.properties.list.length) :
    ∃ property, inspectorPropertyInfo engine num descriptor.script entry.read = some property := by
  rw [inspectorPropertyInfo]
  split
  next => exact ⟨_, rfl⟩
  next hkind =>
    have hlt := hindex (not_not.mp hkind)
    have hproperty : descriptor.script.properties[entry.propertyIndex.toNat]? =
        some descriptor.properties.list[entry.propertyIndex.toNat].read := by
      rw [RawScriptDescriptor.script, List.getElem?_map, List.getElem?_eq_getElem hlt]
      rfl
    exact ⟨_, by rw [RawInspectorEntry.read, hproperty]; rfl⟩

theorem listEntries_meets {allowed : Failure → Prop}
    (hcount : descriptor.inspectorEntries.list.length = descriptor.inspectorEntries.count.toNat)
    (hindices : ∀ entry ∈ descriptor.inspectorEntries.list, entry.kind = inspectorEntryProperty →
      entry.propertyIndex.toNat < descriptor.properties.list.length)
    {start : Tables Object F32 F64 Dictionary} (remaining i : ℕ)
    (htotal : i + remaining = descriptor.inspectorEntries.count.toNat)
    {tables : Tables Object F32 F64 Dictionary}
    (hlisted : Listed engine num toDictionary descriptor start i tables) :
    Meets allowed
      (Listed engine num toDictionary descriptor start descriptor.inspectorEntries.count.toNat)
      (listEntries engine num toDictionary descriptor remaining i tables) := by
  induction remaining generalizing i tables with
  | zero =>
    rw [Nat.add_zero] at htotal
    rw [listEntries, ← htotal]
    exact hlisted
  | succ remaining ih =>
    have hlt : i < descriptor.inspectorEntries.list.length := by omega
    have hentry := List.getElem?_eq_getElem hlt
    obtain ⟨property, hproperty⟩ := inspectorPropertyInfo_isSome engine num
      (hindices _ (List.getElem_mem hlt))
    rw [listEntries, hentry]
    simp only [hproperty]
    refine ih (i + 1) (by omega) ⟨hlisted.indices, hlisted.defaults, ?_, ?_⟩
    · have hshown :
          (scriptPropertyList engine num descriptor.script)[i]? = some (some property) := by
        rw [scriptPropertyList, RawScriptDescriptor.script, List.getElem?_map, List.getElem?_map,
          hentry]
        exact congrArg some hproperty
      rw [Tables.list, List.map_append, hlisted.inspector, List.take_add_one, hshown]
      rfl
    · rw [Tables.list, List.map_append, ← hlisted.listed]
      rfl

end Listing

/-! ### Accepted descriptors -/

/-- What the checks of `load` say of a descriptor that passes them. -/
structure Accepted (descriptor : RawScriptDescriptor F32 F64) : Prop where
  properties : descriptor.properties.list.length = descriptor.properties.count.toNat
  entries : descriptor.inspectorEntries.list.length = descriptor.inspectorEntries.count.toNat
  limit : descriptor.properties.count.toNat ≤ descriptorCountLimit.toNat
  inspector : inspectorError descriptor = none

theorem accepted_of_descriptorError {descriptor : RawScriptDescriptor F32 F64}
    (h : descriptorError descriptor = none) : Accepted descriptor := by
  rw [descriptorError] at h
  split at h
  next => cases h
  next =>
    split at h
    next => cases h
    next hcomplete =>
      simp only [incomplete, Bool.or_eq_true, not_or, Bool.not_eq_true] at hcomplete
      obtain ⟨⟨⟨-, hproperties⟩, hentries⟩, -⟩ := hcomplete
      split at h
      next => cases h
      next hvalid =>
        refine ⟨Table.length_list hproperties, Table.length_list hentries, ?_, h⟩
        rw [validateDescriptor] at hvalid
        split at hvalid
        next => cases hvalid
        next =>
          split at hvalid
          next => cases hvalid
          next hlimits =>
            simp only [Bool.or_eq_true, decide_eq_true_eq, not_or] at hlimits
            exact Nat.le_of_not_lt fun hlt ↦ hlimits.1.1.2 (UInt32.lt_iff_toNat_lt.mpr hlt)

theorem descriptorError_of_accepted {library : ScriptLibrary F32 F64}
    {descriptor : RawScriptDescriptor F32 F64} (h : library.accepted = .ok descriptor) :
    descriptorError descriptor = none := by
  rw [ScriptLibrary.accepted] at h
  split at h
  next => cases h
  next =>
    split at h
    next => cases h
    next =>
      split at h
      next => cases h
      next =>
        split at h
        next => cases h
        next hnone =>
          obtain rfl := Except.ok.inj h
          exact hnone

/-- An index within the limit is kept by the conversions. -/
theorem toInt_index {i : ℕ} (hi : i < 2 ^ 31) : (UInt32.ofNat i).toInt32.toInt = i := by
  show (BitVec.ofNat 32 i).toInt = i
  have htoNat : (BitVec.ofNat 32 i).toNat = i := by
    rw [BitVec.toNat_ofNat]
    exact Nat.mod_eq_of_lt (by omega)
  rw [BitVec.toInt_eq_toNat_of_lt (by omega), htoNat]

/-- Where the names are distinct and within the limit, each leads to its index. -/
theorem findProperty_of_getElem? {tables : Tables Object F32 F64 Dictionary} {names : List String}
    (hindices : tables.propertyIndices = numbered 0 names) (hdistinct : names.Nodup)
    (hlimit : names.length ≤ 2 ^ 31) {i : ℕ} {name : String} (hname : names[i]? = some name) :
    (findProperty tables name).toInt = i := by
  obtain ⟨hlt, -⟩ := List.getElem?_eq_some_iff.mp hname
  rw [findProperty, hindices, lookup_numbered hdistinct 0 hname, Nat.zero_add]
  exact toInt_index (Nat.lt_of_lt_of_le hlt hlimit)

theorem findProperty_of_notMem {tables : Tables Object F32 F64 Dictionary} {names : List String}
    (hindices : tables.propertyIndices = numbered 0 names) {name : String} (hother : name ∉ names) :
    findProperty tables name = -1 := by
  have hnone : (numbered 0 names).lookup name = none := by
    rw [← Option.not_isSome_iff_eq_none, lookup_isSome_iff, numbered_keys]
    exact hother
  rw [findProperty, hindices, hnone]

section Building

variable {engine num toDictionary} {descriptor : RawScriptDescriptor F32 F64}

/-- The entries of an accepted descriptor name properties that are there. -/
theorem Accepted.indices (h : Accepted descriptor) :
    ∀ index ∈ listedIndices descriptor.inspectorEntries.list,
      index < descriptor.properties.list.length := by
  intro index hindex
  have hmem := (listedIndices_perm h.inspector).mem_iff.mp hindex
  rw [h.properties]
  exact List.mem_range.mp hmem

/-- With distinct names, the tables that the loops leave are coherent. -/
theorem coherent_of_listed (h : Accepted descriptor)
    (hdistinct : (propertyNames engine descriptor).Nodup)
    {tables : Tables Object F32 F64 Dictionary}
    (hlisted : Listed engine num toDictionary descriptor
      (registered engine descriptor descriptor.properties.count.toNat)
      descriptor.inspectorEntries.count.toNat tables) :
    Coherent engine num toDictionary descriptor tables := by
  have hall : (propertyNames engine descriptor).take descriptor.properties.count.toNat =
      propertyNames engine descriptor := by
    rw [← h.properties, ← length_propertyNames engine, List.take_length]
  have hindices : tables.propertyIndices = numbered 0 (propertyNames engine descriptor) :=
    hlisted.indices.trans (congrArg (numbered 0) hall)
  have hlength : (propertyDefaults engine descriptor.script).length =
      descriptor.properties.count.toNat := by
    rw [← h.properties, propertyDefaults, RawScriptDescriptor.script, List.length_map,
      List.length_map]
  have hdefaults : tables.propertyDefaults = propertyDefaults engine descriptor.script := by
    refine hlisted.defaults.trans ?_
    rw [registered, ← hlength, List.take_length]
  have hshown : (scriptPropertyList engine num descriptor.script).length =
      descriptor.inspectorEntries.count.toNat := by
    rw [← h.entries, scriptPropertyList, RawScriptDescriptor.script, List.length_map,
      List.length_map]
  have hinspector : tables.inspectorProperties.map some =
      scriptPropertyList engine num descriptor.script := by
    rw [hlisted.inspector, ← hshown, List.take_length]
  refine ⟨listedIndices_perm h.inspector, h.indices, ?_, ?_, hdefaults, hdefaults ▸ hlength, ?_,
    hinspector, ?_, hlisted.listed⟩
  · intro i property hproperty
    have hlimit : (propertyNames engine descriptor).length ≤ 2 ^ 31 := by
      rw [length_propertyNames, h.properties]
      exact h.limit.trans (by decide)
    exact findProperty_of_getElem? hindices hdistinct hlimit
      (propertyNames_getElem? engine hproperty)
  · intro name hother
    refine findProperty_of_notMem hindices fun hname ↦ ?_
    obtain ⟨property, hproperty, hname⟩ := List.mem_map.mp hname
    exact hother property hproperty hname
  · rw [hdefaults, propertyDefaults_keys]
    exact hdistinct
  · rw [← hshown, ← hinspector, List.length_map]

/-- The loops read nothing outside the tables of an accepted descriptor, and what they leave is
coherent; they stop only at a name that occurs twice. -/
theorem buildTables_meets (h : Accepted descriptor) :
    Meets (fun failure ↦ failure ≠ Failure.illegal ∧ ¬ (propertyNames engine descriptor).Nodup)
      (fun tables ↦ (propertyNames engine descriptor).Nodup →
        Coherent engine num toDictionary descriptor tables)
      (buildTables engine num toDictionary descriptor) := by
  refine meets_bind (registerProperties_meets h.properties descriptor.properties.count.toNat 0
    (Nat.zero_add _) List.nodup_nil) ?_
  rintro tables rfl
  have hentries : ∀ entry ∈ descriptor.inspectorEntries.list,
      entry.kind = inspectorEntryProperty →
        entry.propertyIndex.toNat < descriptor.properties.list.length := by
    intro entry hentry hkind
    refine h.indices _ (List.mem_map.mpr ⟨entry, List.mem_filter.mpr ⟨hentry, ?_⟩, rfl⟩)
    exact decide_eq_true hkind
  refine meets_mono (listEntries_meets h.entries hentries _ 0 (Nat.zero_add _)
    ⟨rfl, rfl, rfl, rfl⟩) ?_
  exact fun tables hlisted hdistinct ↦ coherent_of_listed h hdistinct hlisted

end Building

/-- A module that is returned has tables that the loops fill without leaving the tables of its
descriptor, and they are coherent. -/
theorem load_coherent {library : ScriptLibrary F32 F64}
    {descriptor : RawScriptDescriptor F32 F64} (haccepted : library.accepted = .ok descriptor)
    {module : GzCompiledModule engine F32 F64} {closed : Closed}
    (hload : load engine library = (.ok module, closed)) :
    ∃ tables, buildTables engine num toDictionary descriptor = .ok tables ∧
      Coherent engine num toDictionary descriptor tables := by
  have hdistinct : (propertyNames engine descriptor).Nodup := by
    obtain ⟨-, -, -, hdistinct⟩ | ⟨message, herror, -⟩ := load_accepted engine haccepted
    · exact hdistinct
    · rw [herror] at hload
      cases hload
  have hmeets : Meets _ _ (buildTables engine num toDictionary descriptor) :=
    buildTables_meets (accepted_of_descriptorError (descriptorError_of_accepted haccepted))
  generalize buildTables engine num toDictionary descriptor = result at hmeets
  rcases result with failure | tables
  · exact absurd hdistinct hmeets.2
  · exact ⟨tables, rfl, hmeets hdistinct⟩

/-- A script of two properties with different names. -/
theorem load_coherent_sample :
    ∃ tables, buildTables sampleEngine (fun _ ↦ "0") id
        (sampleDescriptor (ascii "speed") (ascii "power")) = .ok tables ∧
      Coherent sampleEngine (fun _ ↦ "0") id
        (sampleDescriptor (ascii "speed") (ascii "power")) tables := by
  have haccepted : (sampleLibrary (ascii "speed") (ascii "power")).accepted =
      .ok (sampleDescriptor (ascii "speed") (ascii "power")) := rfl
  obtain ⟨module, hload, -⟩ | ⟨message, -, hrepeated⟩ := load_accepted sampleEngine haccepted
  · exact load_coherent sampleEngine (fun _ ↦ "0") id haccepted hload
  · have hspeed : sampleEngine.ofUtf8 (ascii "speed") = "speed" := sampleEngine.ofUtf8_utf8 "speed"
    have hpower : sampleEngine.ofUtf8 (ascii "power") = "power" := sampleEngine.ofUtf8_utf8 "power"
    have hnames : propertyNames sampleEngine (sampleDescriptor (ascii "speed") (ascii "power")) =
        ["speed", "power"] := by
      rw [← hspeed, ← hpower]
      rfl
    rw [hnames] at hrepeated
    exact absurd (by decide) hrepeated

end Gzscript.Abi.PropertyTable
