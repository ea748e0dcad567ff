import Gzscript.Abi.Adapter
import Gzscript.Abi.Load

/-!
# What the adapter compiles is loaded

The adapter builds a descriptor and the loader checks one, each by its own rules. Whatever the
adapter compiles, with counts and strings within the loader's limits, passes the loader's checks,
except for two things that the language admits and the loader refuses: a base class without a name,
and two exported names that the engine decodes to one string (`loadedAs_iff`).

`layout` is what a script exports in declaration order, with the headings of a struct of properties
made explicit. The loops over the exports number the properties of the layout
(`buildInspectorEntries_eq`), and the list that the Inspector shows is the layout, entry by entry
(`scriptPropertyList_compiled`).
-/

set_option autoImplicit false
set_option relaxedAutoImplicit false

namespace Gzscript.Abi.AdapterLoad

open Library.Bytes Value Descriptor Inspector RawDescriptor FieldCodec Adapter Load

variable {Object F32 F64 : Type} (zero : F64)

/-! ### The parts of a compiled descriptor -/

/-- What a descriptor has from the script it was compiled from. -/
structure CompiledFrom (script : Script F32 F64) (descriptor : RawScriptDescriptor F32 F64) :
    Prop where
  properties : buildProperties zero script = .ok descriptor.properties.list
  entries : buildInspectorEntries script.exports = .ok descriptor.inspectorEntries.list
  signals : buildSignals script.signals = .ok descriptor.signals.list
  methods : descriptor.methods.list = buildMethods script
  baseClass : descriptor.baseClass = .bytes script.godotClass
  abiVersion : descriptor.abiVersion = gzscriptAbiVersion
  structSize : descriptor.structSize = descriptorSize
  complete : incomplete descriptor = false

variable {zero} {script : Script F32 F64} {descriptor : RawScriptDescriptor F32 F64}

theorem compiledFrom_of_compile (hcompiled : compile zero script = .ok descriptor) :
    CompiledFrom zero script descriptor := by
  unfold compile at hcompiled
  split at hcompiled
  · cases hcompiled
  · cases hcompiled
  · cases hcompiled
  next properties entries signals hproperties hentries hsignals =>
    split at hcompiled
    next hfit =>
      obtain rfl := Except.ok.inj hcompiled
      refine ⟨?_, ?_, ?_, ?_, rfl, rfl, rfl, ?_⟩
      · rw [Table.list_counted, hproperties]
      · rw [Table.list_counted, hentries]
      · rw [Table.list_counted, hsignals]
      · rw [Table.list_counted]
      · simp [incomplete, Table.missing_counted]
    · cases hcompiled

/-! ### Properties -/

/-- The type of the field with a name. -/
def fieldType (script : Script F32 F64) (name : ByteString) : Option (FieldType F32 F64) :=
  (findField script name).bind ScriptField.type

theorem propertyDescriptor_ok {name : ByteString} {options : Property F64}
    {property : RawProperty F32 F64}
    (hbuilt : propertyDescriptor zero script name options = .ok property) :
    name ≠ [] ∧ ∃ type default, fieldType script name = some type ∧
      property = rawProperty zero name options type default := by
  unfold propertyDescriptor at hbuilt
  split at hbuilt
  · cases hbuilt
  next field hfield =>
    split at hbuilt
    · cases hbuilt
    next type htype =>
      split at hbuilt
      · cases hbuilt
      next default hdefault =>
        split at hbuilt
        · cases hbuilt
        · obtain rfl := Except.ok.inj hbuilt
          refine ⟨?_, type, default, ?_, rfl⟩
          · have hname : field.name = name := by simpa using List.find?_some hfield
            rw [← hname]
            refine script.fieldNames.nonempty _ (List.mem_map_of_mem ?_)
            exact List.mem_of_find?_eq_some hfield
          · rw [fieldType, hfield, Option.bind_some, htype]

/-- The fields among some entries. -/
def exportedFields (entries : List (ExportEntry F64)) : List (ByteString × Property F64) :=
  entries.filterMap fun entry ↦
    match entry with
    | .field name property => some (name, property)
    | _ => none

/-- A property is built from an exported field. -/
def BuiltFrom (zero : F64) (script : Script F32 F64) (field : ByteString × Property F64)
    (property : RawProperty F32 F64) : Prop :=
  propertyDescriptor zero script field.1 field.2 = .ok property

/-- What was built is built from one of the sources. -/
theorem exists_source {α β : Type*} {relation : α → β → Prop} {sources : List α} {built : List β}
    (h : List.Forall₂ relation sources built) :
    ∀ second ∈ built, ∃ first ∈ sources, relation first second := by
  induction h with
  | nil => exact List.forall_mem_nil _
  | cons hfirst _ ih =>
    refine List.forall_mem_cons.mpr ⟨⟨_, List.mem_cons_self, hfirst⟩, fun second hsecond ↦ ?_⟩
    obtain ⟨first, hmem, hrelated⟩ := ih second hsecond
    exact ⟨first, List.mem_cons_of_mem _ hmem, hrelated⟩

theorem builtFrom_orderedProperties {previous : List ByteString}
    {entries : List (ExportEntry F64)} {properties : List (RawProperty F32 F64)}
    (hbuilt : orderedProperties zero script previous entries = .ok properties) :
    List.Forall₂ (BuiltFrom zero script) (exportedFields entries) properties := by
  induction entries generalizing previous properties with
  | nil =>
    obtain rfl := Except.ok.inj hbuilt
    exact List.Forall₂.nil
  | cons entry entries ih =>
    cases entry with
    | field name options =>
      obtain ⟨-, descriptor, rest, hfirst, hrest, rfl⟩ := orderedProperties_field hbuilt
      exact List.Forall₂.cons hfirst (ih hrest)
    | category marker => exact ih hbuilt
    | group marker => exact ih hbuilt
    | subgroup marker => exact ih hbuilt

theorem builtFrom_structProperties {fields : List (ByteString × Property F64)}
    {properties : List (RawProperty F32 F64)}
    (hbuilt : structProperties zero script fields = .ok properties) :
    List.Forall₂ (BuiltFrom zero script) fields properties := by
  induction fields generalizing properties with
  | nil =>
    obtain rfl := Except.ok.inj hbuilt
    exact List.Forall₂.nil
  | cons field fields ih =>
    obtain ⟨descriptor, rest, hfirst, hrest, rfl⟩ := structProperties_cons hbuilt
    exact List.Forall₂.cons hfirst (ih hrest)

/-! ### Limits -/

/-- The strings of a property. -/
def propertyStrings (property : RawProperty F32 F64) : List StringView :=
  [property.name, property.hintString, property.className] ++
    match property.defaultValue with
    | .string view => [view]
    | .plain (.string data) => [.bytes data]
    | .plain _ => []

/-- The strings of a descriptor. -/
def strings (descriptor : RawScriptDescriptor F32 F64) : List StringView :=
  descriptor.baseClass :: descriptor.methods.list ++
    descriptor.properties.list.flatMap propertyStrings ++
    descriptor.inspectorEntries.list.flatMap (fun entry ↦ [entry.name, entry.groupPrefix]) ++
    descriptor.signals.list.flatMap fun signal ↦
      signal.name :: signal.arguments.list.map RawSignalArgument.name

/-- Every count and every string of a descriptor is within the loader's limits. -/
structure WithinLimits (descriptor : RawScriptDescriptor F32 F64) : Prop where
  methods : descriptor.methods.count ≤ descriptorCountLimit
  properties : descriptor.properties.count ≤ descriptorCountLimit
  inspectorEntries : descriptor.inspectorEntries.count ≤ descriptorCountLimit
  signals : descriptor.signals.count ≤ descriptorCountLimit
  arguments : ∀ signal ∈ descriptor.signals.list, signal.arguments.count ≤ descriptorCountLimit
  strings : ∀ view ∈ strings descriptor, view.len ≤ descriptorStringLimit

theorem validView_bytes {data : ByteString} {allowEmpty : Bool}
    (hlength : data.length ≤ descriptorStringLimit) (hempty : data ≠ [] ∨ allowEmpty = true) :
    validView (.bytes data) allowEmpty = true := by
  change (if data.length = 0 then allowEmpty else decide (data.length ≤ descriptorStringLimit)) =
    true
  by_cases hzero : data.length = 0
  · rw [if_pos hzero]
    exact hempty.resolve_left (not_not_intro (List.length_eq_zero_iff.mp hzero))
  · rw [if_neg hzero]
    exact decide_eq_true hlength

theorem validValueType_valueType (type : FieldType F32 F64) :
    validValueType type.valueType = true := by
  cases type <;> rfl

theorem validPropertyHint_value (hint : PropertyHint) : validPropertyHint hint.value = true := by
  cases hint <;> rfl

theorem validDefault_rawDefault (type : FieldType F32 F64) (value : type.Carrier)
    (hlength : ∀ data, toValue type value = .string data →
      data.length ≤ descriptorStringLimit) :
    validDefault (rawDefault type value) = true := by
  have htag : validValueType (gzValueType (toValue type value)) = true := by
    rcases gzValueType_toValue type value with htype | ⟨-, -, hnil⟩
    · rw [htype]
      exact validValueType_valueType type
    · rw [hnil]
      rfl
  unfold rawDefault
  generalize toValue type value = encoded at hlength htag
  cases encoded with
  | string data => exact validView_bytes (hlength data rfl) (Or.inr rfl)
  | _ => exact htag

theorem validProperty_rawProperty {name : ByteString} (hname : name ≠ [])
    (options : Property F64) (type : FieldType F32 F64) (default : type.Carrier)
    (hstrings : ∀ view ∈ propertyStrings (rawProperty zero name options type default),
      view.len ≤ descriptorStringLimit) :
    validProperty (rawProperty zero name options type default) = true := by
  have hdefault : ∀ data, toValue type default = .string data →
      data.length ≤ descriptorStringLimit := by
    intro data hdata
    refine hstrings (.bytes data) (List.mem_append_right _ ?_)
    simp [rawProperty, rawDefault, hdata]
  have hnameLength := hstrings (.bytes name) (List.mem_append_left _ (by simp [rawProperty]))
  have hhintLength := hstrings (.bytes options.hintString)
    (List.mem_append_left _ (by simp [rawProperty]))
  have hclassLength := hstrings (.bytes type.objectClassName)
    (List.mem_append_left _ (by simp [rawProperty]))
  simp only [validProperty, rawProperty, Bool.and_eq_true]
  refine ⟨⟨⟨⟨⟨?_, ?_⟩, ?_⟩, ?_⟩, ?_⟩, ?_⟩
  · exact validView_bytes hnameLength (Or.inl hname)
  · exact validView_bytes hhintLength (Or.inr rfl)
  · exact validView_bytes hclassLength (Or.inr rfl)
  · exact validValueType_valueType type
  · exact validPropertyHint_value options.hint
  · exact validDefault_rawDefault type default hdefault

/-! ### The layout of the Inspector -/

/-- The last category among some properties that is not empty; empty if there is none. -/
def lastCategory (fields : List (ByteString × Property F64)) : ByteString :=
  ((fields.map fun field ↦ field.2.category).filter (· ≠ [])).getLast?.getD []

/-- A heading stands above a property whose category is not empty and not the last one that was
not empty. -/
def heading (fields : List (ByteString × Property F64)) (category : ByteString) :
    List (ExportEntry F64) :=
  if category ≠ [] ∧ category ≠ lastCategory fields then [.category { name := category }] else []

/-- The tuple of entries that a struct of properties stands for. -/
def structLayout (fields : List (ByteString × Property F64)) : List (ExportEntry F64) :=
  fields.zipIdx.flatMap fun entry ↦
    heading (fields.take entry.2) entry.1.2.category ++ [.field entry.1.1 entry.1.2]

/-- What is exported, in declaration order. -/
def layout : Exports F64 → List (ExportEntry F64)
  | .none => []
  | .ordered entries => entries
  | .struct fields _ => structLayout fields

theorem exportedFields_append (first second : List (ExportEntry F64)) :
    exportedFields (first ++ second) = exportedFields first ++ exportedFields second :=
  List.filterMap_append

/-- The headings of a struct add no field. -/
theorem exportedFields_structLayout (fields : List (ByteString × Property F64)) :
    exportedFields (structLayout fields) = fields := by
  have hheading : ∀ (before : List (ByteString × Property F64)) (category : ByteString),
      exportedFields (heading before category) = [] := by
    intro before category
    unfold heading
    split_ifs <;> rfl
  have hfrom : ∀ (all rest : List (ByteString × Property F64)) (start : ℕ),
      exportedFields ((rest.zipIdx start).flatMap fun entry ↦
        heading (all.take entry.2) entry.1.2.category ++ [.field entry.1.1 entry.1.2]) = rest := by
    intro all rest
    induction rest with
    | nil => exact fun _ ↦ rfl
    | cons field rest ih =>
      intro start
      rw [List.zipIdx_cons, List.flatMap_cons, exportedFields_append, exportedFields_append,
        hheading, ih]
      rfl
  exact hfrom fields fields 0

theorem builtFrom_buildProperties {properties : List (RawProperty F32 F64)}
    (hbuilt : buildProperties zero script = .ok properties) :
    List.Forall₂ (BuiltFrom zero script) (exportedFields (layout script.exports)) properties := by
  rw [buildProperties] at hbuilt
  cases hexports : script.exports with
  | none =>
    rw [hexports] at hbuilt
    obtain rfl := Except.ok.inj hbuilt
    exact List.Forall₂.nil
  | ordered entries =>
    rw [hexports] at hbuilt
    exact builtFrom_orderedProperties hbuilt
  | struct fields names =>
    rw [hexports] at hbuilt
    rw [layout, exportedFields_structLayout]
    exact builtFrom_structProperties hbuilt

/-- The entries of a layout, with the properties numbered. -/
def numbered : ℕ → List (ExportEntry F64) → List RawInspectorEntry
  | _, [] => []
  | propertyIndex, .field _ _ :: entries =>
    propertyEntry propertyIndex :: numbered (propertyIndex + 1) entries
  | propertyIndex, .category marker :: entries =>
    inspectorMarker 1 marker :: numbered propertyIndex entries
  | propertyIndex, .group marker :: entries =>
    inspectorMarker 2 marker :: numbered propertyIndex entries
  | propertyIndex, .subgroup marker :: entries =>
    inspectorMarker 3 marker :: numbered propertyIndex entries

theorem orderedEntries_eq {state : GroupState} {entries : List (ExportEntry F64)}
    {built : List RawInspectorEntry} (hbuilt : orderedEntries state entries = .ok built) :
    built = numbered state.propertyIndex entries := by
  induction entries generalizing state built with
  | nil => exact (Except.ok.inj hbuilt).symm
  | cons entry entries ih =>
    obtain ⟨first, next, rest, hfirst, hrest, rfl⟩ := orderedEntries_cons hbuilt
    rw [ih hrest]
    cases entry with
    | field name property =>
      simp only [orderedEntry] at hfirst
      split at hfirst
      · cases hfirst
      · obtain ⟨rfl, rfl⟩ := Prod.mk.inj (Except.ok.inj hfirst)
        rfl
    | category marker =>
      obtain ⟨rfl, rfl⟩ := Prod.mk.inj (Except.ok.inj hfirst)
      rfl
    | group marker =>
      obtain ⟨rfl, rfl⟩ := Prod.mk.inj (Except.ok.inj hfirst)
      rfl
    | subgroup marker =>
      simp only [orderedEntry] at hfirst
      split at hfirst
      · obtain ⟨rfl, rfl⟩ := Prod.mk.inj (Except.ok.inj hfirst)
        rfl
      · cases hfirst

theorem lastCategory_concat (fields : List (ByteString × Property F64))
    (field : ByteString × Property F64) : lastCategory (fields ++ [field]) =
      if field.2.category ≠ [] then field.2.category else lastCategory fields := by
  unfold lastCategory
  by_cases hempty : field.2.category = []
  · simp [hempty]
  · simp [hempty]

/-- The loop over a struct numbers the layout, from any point of the struct on. -/
theorem structEntries_eq (before fields : List (ByteString × Property F64)) (propertyIndex : ℕ) :
    structEntries (lastCategory before) propertyIndex fields =
      numbered propertyIndex ((fields.zipIdx before.length).flatMap fun entry ↦
        heading ((before ++ fields).take entry.2) entry.1.2.category ++
          [.field entry.1.1 entry.1.2]) := by
  induction fields generalizing before propertyIndex with
  | nil => rfl
  | cons field fields ih =>
    have hrest := ih (before ++ [field]) (propertyIndex + 1)
    rw [lastCategory_concat, List.length_append, List.length_singleton, List.append_assoc,
      List.singleton_append] at hrest
    have htake : (before ++ field :: fields).take before.length = before := by simp
    rw [List.zipIdx_cons, List.flatMap_cons, htake, structEntries]
    by_cases hheading : field.2.category ≠ [] ∧ field.2.category ≠ lastCategory before
    · rw [if_pos hheading, heading, if_pos hheading]
      rw [if_pos hheading.1] at hrest
      rw [hrest]
      rfl
    · rw [if_neg hheading, heading, if_neg hheading]
      have hsame : (if field.2.category ≠ [] then field.2.category else lastCategory before) =
          lastCategory before := by
        split_ifs with hne
        · by_contra hdiffer
          exact hheading ⟨hne, hdiffer⟩
        · rfl
      rw [hsame] at hrest
      rw [hrest]
      rfl

/-- The Inspector entries are the layout with its properties numbered. -/
theorem buildInspectorEntries_eq {exports : Exports F64} {built : List RawInspectorEntry}
    (hbuilt : buildInspectorEntries exports = .ok built) : built = numbered 0 (layout exports) := by
  cases exports with
  | none => exact (Except.ok.inj hbuilt).symm
  | ordered entries => exact orderedEntries_eq hbuilt
  | struct fields names =>
    obtain rfl := Except.ok.inj hbuilt
    exact structEntries_eq [] fields 0

/-! ### The checks of the entries -/

theorem mem_numbered {propertyIndex : ℕ} {entries : List (ExportEntry F64)} :
    ∀ entry ∈ numbered propertyIndex entries,
      ∃ name groupPrefix, entry.name = .bytes name ∧ entry.groupPrefix = .bytes groupPrefix := by
  induction entries generalizing propertyIndex with
  | nil => simp [numbered]
  | cons entry entries ih =>
    cases entry with
    | field name property => exact List.forall_mem_cons.mpr ⟨⟨[], [], rfl, rfl⟩, ih⟩
    | category marker => exact List.forall_mem_cons.mpr ⟨⟨_, _, rfl, rfl⟩, ih⟩
    | group marker => exact List.forall_mem_cons.mpr ⟨⟨_, _, rfl, rfl⟩, ih⟩
    | subgroup marker => exact List.forall_mem_cons.mpr ⟨⟨_, _, rfl, rfl⟩, ih⟩

/-- The numbers of the properties are accepted: each is new, and they are consecutive. -/
theorem listProperties_numbered {count : ℕ} (hcount : count < 2 ^ 32) {propertyIndex : ℕ}
    {entries : List (ExportEntry F64)} {listed : List ℕ}
    (hfits : propertyIndex + (exportedFields entries).length ≤ count)
    (hlisted : ∀ index ∈ listed, index < propertyIndex) :
    listProperties count (numbered propertyIndex entries) listed =
      .ok ((List.range' propertyIndex (exportedFields entries).length).reverse ++ listed) := by
  induction entries generalizing propertyIndex listed with
  | nil => rfl
  | cons entry entries ih =>
    cases entry with
    | field name property =>
      have hlength : (exportedFields (.field name property :: entries)).length =
          (exportedFields entries).length + 1 := rfl
      rw [hlength] at hfits ⊢
      have hindex : (propertyEntry propertyIndex).propertyIndex.toNat = propertyIndex :=
        UInt32.toNat_ofNat_of_lt' (show propertyIndex < 2 ^ 32 by omega)
      have hnew : ¬ (count ≤ propertyIndex ∨ propertyIndex ∈ listed) := by
        rintro (hle | hmem)
        · omega
        · exact absurd (hlisted propertyIndex hmem) (Nat.lt_irrefl _)
      have hkind : ¬ inspectorEntrySubgroup < (propertyEntry propertyIndex).kind :=
        (by decide : ¬ inspectorEntrySubgroup < (0 : UInt32))
      have hproperty : ¬ (propertyEntry propertyIndex).kind ≠ inspectorEntryProperty :=
        not_not_intro rfl
      rw [numbered, listProperties, if_neg hkind, if_neg hproperty, hindex, if_neg hnew, ih]
      · rw [List.range'_succ, List.reverse_cons, List.append_assoc, List.singleton_append]
      · omega
      · intro index hmem
        rcases List.mem_cons.mp hmem with rfl | hold
        · exact Nat.lt_succ_self _
        · exact Nat.lt_succ_of_lt (hlisted index hold)
    | category marker => exact ih hfits hlisted
    | group marker => exact ih hfits hlisted
    | subgroup marker => exact ih hfits hlisted

theorem inspectorError_eq_none (hcompiled : CompiledFrom zero script descriptor) :
    inspectorError descriptor = none := by
  have hbuilt := builtFrom_buildProperties hcompiled.properties
  have hmissing : descriptor.properties.missing = false := by
    have hcomplete := hcompiled.complete
    simp only [incomplete, Bool.or_eq_false_iff] at hcomplete
    exact hcomplete.1.1.2
  have hlength : (exportedFields (layout script.exports)).length =
      descriptor.properties.count.toNat :=
    hbuilt.length_eq.trans (Table.length_list hmissing)
  have hlist : listProperties descriptor.properties.count.toNat
      (numbered 0 (layout script.exports)) [] =
        .ok ((List.range' 0 (exportedFields (layout script.exports)).length).reverse ++ []) :=
    listProperties_numbered descriptor.properties.count.toNat_lt (by omega) (by simp)
  rw [inspectorError, buildInspectorEntries_eq hcompiled.entries, hlist]
  simp only [hlength, List.append_nil]
  rw [if_pos]
  simp [List.mem_range']

/-! ### The checks of the descriptor -/

theorem missing_eq_false (hcompiled : CompiledFrom zero script descriptor) :
    descriptor.properties.missing = false := by
  have hcomplete := hcompiled.complete
  simp only [incomplete, Bool.or_eq_false_iff] at hcomplete
  exact hcomplete.1.1.2

theorem callbacks_named : ∀ callback ∈ callbacks,
    validView (.bytes callback.godotName) false = true := by
  decide

theorem methods_valid (hcompiled : CompiledFrom zero script descriptor) :
    descriptor.methods.list.all (validView · false) = true := by
  rw [hcompiled.methods, List.all_eq_true]
  intro view hview
  obtain ⟨callback, hcallback, rfl⟩ := List.mem_map.mp hview
  exact callbacks_named callback (List.mem_of_mem_filter hcallback)

theorem properties_valid (hcompiled : CompiledFrom zero script descriptor)
    (hlimits : WithinLimits descriptor) : descriptor.properties.list.all validProperty = true := by
  rw [List.all_eq_true]
  intro property hproperty
  have hbuilt := builtFrom_buildProperties hcompiled.properties
  obtain ⟨field, -, hfield⟩ := exists_source hbuilt property hproperty
  obtain ⟨hname, type, default, -, rfl⟩ := propertyDescriptor_ok hfield
  refine validProperty_rawProperty hname field.2 type default fun view hview ↦ ?_
  refine hlimits.strings view ?_
  simp only [strings, List.mem_append, List.mem_flatMap]
  exact Or.inl (Or.inl (Or.inr ⟨_, hproperty, hview⟩))

theorem inspectorEntries_valid (hcompiled : CompiledFrom zero script descriptor)
    (hlimits : WithinLimits descriptor) :
    descriptor.inspectorEntries.list.all validInspectorEntry = true := by
  rw [List.all_eq_true]
  intro entry hentry
  have hlengths : ∀ view ∈ [entry.name, entry.groupPrefix], view.len ≤ descriptorStringLimit := by
    intro view hview
    refine hlimits.strings view ?_
    simp only [strings, List.mem_append, List.mem_flatMap]
    exact Or.inl (Or.inr ⟨entry, hentry, hview⟩)
  rw [buildInspectorEntries_eq hcompiled.entries] at hentry
  obtain ⟨name, groupPrefix, hname, hprefix⟩ := mem_numbered entry hentry
  rw [hname, hprefix] at hlengths
  rw [validInspectorEntry, hname, hprefix, Bool.and_eq_true]
  constructor
  · exact validView_bytes (hlengths (.bytes name) (by simp)) (Or.inr rfl)
  · exact validView_bytes (hlengths (.bytes groupPrefix) (by simp)) (Or.inr rfl)

theorem signalsError_eq_none {signals : List RawSignal}
    (hvalid : ∀ signal ∈ signals, validSignal signal = true ∧
      signal.arguments.list.all validSignalArgument = true) : signalsError signals = none := by
  induction signals with
  | nil => rfl
  | cons signal signals ih =>
    rw [List.forall_mem_cons] at hvalid
    rw [signalsError, hvalid.1.1, hvalid.1.2, ih hvalid.2]
    rfl

theorem signals_valid (hcompiled : CompiledFrom zero script descriptor)
    (hlimits : WithinLimits descriptor) : signalsError descriptor.signals.list = none := by
  refine signalsError_eq_none fun rawSignal hrawSignal ↦ ?_
  obtain ⟨signal, hsignal, hname, harguments, hmissing⟩ :=
    exists_source (forall₂_signalsFrom _ hcompiled.signals) rawSignal hrawSignal
  have hlengths : ∀ view ∈ rawSignal.name :: rawSignal.arguments.list.map RawSignalArgument.name,
      view.len ≤ descriptorStringLimit := by
    intro view hview
    refine hlimits.strings view ?_
    rw [strings, List.mem_append, List.mem_flatMap]
    exact Or.inr ⟨rawSignal, hrawSignal, hview⟩
  rw [List.forall_mem_cons, hname, harguments] at hlengths
  constructor
  · have hnonempty : signal.name ≠ [] :=
      script.signalNames.nonempty _ (List.mem_map_of_mem hsignal)
    simp only [validSignal, hname, hmissing, Bool.and_eq_true, decide_eq_true_eq, Bool.not_false,
      and_true]
    exact ⟨validView_bytes hlengths.1 (Or.inl hnonempty), hlimits.arguments rawSignal hrawSignal⟩
  · rw [harguments, List.all_eq_true]
    intro rawArgument hmem
    have hlength := hlengths.2 rawArgument.name (List.mem_map_of_mem hmem)
    obtain ⟨argument, hargument, rfl⟩ := List.mem_map.mp hmem
    have hnonempty : argument.1 ≠ [] := signal.names.nonempty _ (List.mem_map_of_mem hargument)
    rw [validSignalArgument, Bool.and_eq_true]
    exact ⟨validView_bytes hlength (Or.inl hnonempty), validValueType_valueType argument.2⟩

/-- Of what the loader checks, a compiled script may only lack a base class. -/
theorem descriptorError_eq_none_iff (hcompiled : CompiledFrom zero script descriptor)
    (hlimits : WithinLimits descriptor) :
    descriptorError descriptor = none ↔ script.godotClass ≠ [] := by
  have habi : ¬ (descriptor.abiVersion ≠ gzscriptAbiVersion ∨
      descriptor.structSize ≠ descriptorSize) := by
    rw [hcompiled.abiVersion, hcompiled.structSize]
    decide
  have hcounts : (descriptorCountLimit < descriptor.methods.count ||
      descriptorCountLimit < descriptor.properties.count ||
      descriptorCountLimit < descriptor.inspectorEntries.count ||
      descriptorCountLimit < descriptor.signals.count) = false := by
    simp only [Bool.or_eq_false_iff, decide_eq_false_iff_not, UInt32.not_lt]
    exact ⟨⟨⟨hlimits.methods, hlimits.properties⟩, hlimits.inspectorEntries⟩, hlimits.signals⟩
  rw [descriptorError, if_neg habi, hcompiled.complete, if_neg Bool.false_ne_true,
    validateDescriptor, hcounts, methods_valid hcompiled, properties_valid hcompiled hlimits,
    inspectorEntries_valid hcompiled hlimits, signals_valid hcompiled hlimits,
    hcompiled.baseClass]
  have hbase : validView (.bytes script.godotClass) false = true ↔ script.godotClass ≠ [] := by
    constructor
    · rintro hvalid hempty
      rw [hempty] at hvalid
      exact Bool.false_ne_true hvalid
    · intro hnonempty
      refine validView_bytes (hlimits.strings (.bytes script.godotClass) ?_) (Or.inl hnonempty)
      rw [strings, hcompiled.baseClass]
      simp
  rw [← hbase]
  cases validView (.bytes script.godotClass) false with
  | false => simp
  | true => simpa using inspectorError_eq_none hcompiled

/-! ### What the Inspector shows -/

section Shown

variable (engine : Engine Object) (num : F64 → String)

/-- The information on a marker. -/
def markerInfo (usage : PropertyUsage) (marker : Marker) : PropertyInfo where
  type := .nil
  name := engine.ofUtf8 marker.name
  hint := propertyHintNone
  hintString := engine.ofUtf8 marker.groupPrefix
  usage := usage
  className := ""

/-- The hint string of an exported field: the bounds of its range, or the text of its options. -/
def shownHint (zero : F64) (options : Property F64) : String :=
  if options.hint = .range then
    num (options.range.elim zero Range.min) ++ "," ++ num (options.range.elim zero Range.max) ++
      "," ++ num (options.range.elim zero Range.step)
  else engine.ofUtf8 options.hintString

/-- The information on an exported field, from the type of the script's field. -/
def fieldInfo (zero : F64) (name : ByteString) (options : Property F64)
    (type : FieldType F32 F64) : PropertyInfo where
  type := variantType type.valueType
  name := engine.ofUtf8 name
  hint := options.hint.value
  hintString := shownHint engine num zero options
  usage := .default
  className := engine.ofUtf8 type.objectClassName

/-- What the Inspector should show of what a script declares. -/
def shownEntry (zero : F64) (script : Script F32 F64) : ExportEntry F64 → Option PropertyInfo
  | .field name options => (fieldType script name).map (fieldInfo engine num zero name options)
  | .category marker => some (markerInfo engine .category marker)
  | .group marker => some (markerInfo engine .group marker)
  | .subgroup marker => some (markerInfo engine .subgroup marker)

variable {engine num}

theorem value_eq_range_iff (hint : PropertyHint) :
    hint.value = propertyHintRange ↔ hint = .range := by
  cases hint <;> decide

theorem propertyInfo_rawProperty (name : ByteString) (options : Property F64)
    (type : FieldType F32 F64) (default : type.Carrier) :
    propertyInfo engine num (rawProperty zero name options type default).read =
      fieldInfo engine num zero name options type := by
  have hhint : (if options.hint.value = propertyHintRange then
      rangeHint num (rawProperty zero name options type default).read
      else engine.ofUtf8 options.hintString) = shownHint engine num zero options := by
    rw [shownHint]
    exact if_congr (value_eq_range_iff options.hint) rfl rfl
  rw [fieldInfo, ← hhint]
  rfl

theorem propertyInfo_builtFrom {field : ByteString × Property F64}
    {property : RawProperty F32 F64} (hbuilt : BuiltFrom zero script field property) :
    some (propertyInfo engine num property.read) =
      shownEntry engine num zero script (.field field.1 field.2) := by
  obtain ⟨-, type, default, htype, rfl⟩ := propertyDescriptor_ok hbuilt
  rw [shownEntry, htype, Option.map_some, propertyInfo_rawProperty]

/-- The numbered entries point at the properties they were numbered with, from any property on. -/
theorem map_inspectorPropertyInfo_numbered {loaded : ScriptDescriptor F32 F64}
    {entries : List (ExportEntry F64)} {before rest : List (RawProperty F32 F64)}
    (hproperties : loaded.properties = (before ++ rest).map RawProperty.read)
    (hfits : (before ++ rest).length < 2 ^ 32)
    (hbuilt : List.Forall₂ (BuiltFrom zero script) (exportedFields entries) rest) :
    ((numbered before.length entries).map RawInspectorEntry.read).map
        (inspectorPropertyInfo engine num loaded) =
      entries.map (shownEntry engine num zero script) := by
  induction entries generalizing before rest with
  | nil => rfl
  | cons entry entries ih =>
    cases entry with
    | field name options =>
      obtain ⟨property, rest', hfirst, hrest, rfl⟩ := List.forall₂_cons_left_iff.mp hbuilt
      have hsplit : before ++ property :: rest' = before ++ [property] ++ rest' := by simp
      rw [hsplit] at hproperties hfits
      have htail := ih hproperties hfits hrest
      rw [List.length_append, List.length_singleton] at htail
      have hindex : ((propertyEntry before.length).read).propertyIndex.toNat = before.length := by
        refine UInt32.toNat_ofNat_of_lt' (show before.length < 2 ^ 32 from ?_)
        simp only [List.length_append, List.length_singleton] at hfits
        omega
      have hfound : loaded.properties[before.length]? = some property.read := by
        simp [hproperties]
      have hkind : ¬ (propertyEntry before.length).read.kind ≠ inspectorEntryProperty :=
        not_not_intro rfl
      have hshown : inspectorPropertyInfo engine num loaded (propertyEntry before.length).read =
          shownEntry engine num zero script (.field name options) := by
        rw [inspectorPropertyInfo, if_neg hkind, hindex, hfound, Option.map_some,
          propertyInfo_builtFrom hfirst]
      rw [numbered, List.map_cons, List.map_cons, List.map_cons, hshown, htail]
    | category marker => exact congrArg _ (ih hproperties hfits hbuilt)
    | group marker => exact congrArg _ (ih hproperties hfits hbuilt)
    | subgroup marker => exact congrArg _ (ih hproperties hfits hbuilt)

theorem scriptPropertyList_compiled (hcompiled : CompiledFrom zero script descriptor) :
    scriptPropertyList engine num descriptor.script =
      (layout script.exports).map (shownEntry engine num zero script) := by
  have hbuilt := builtFrom_buildProperties hcompiled.properties
  have hproperties : descriptor.script.properties =
      ([] ++ descriptor.properties.list).map RawProperty.read := rfl
  have hfits : ([] ++ descriptor.properties.list).length < 2 ^ 32 := by
    rw [List.nil_append, Table.length_list (missing_eq_false hcompiled)]
    exact descriptor.properties.count.toNat_lt
  have hentries : descriptor.script.inspectorEntries =
      (numbered 0 (layout script.exports)).map RawInspectorEntry.read :=
    congrArg (List.map RawInspectorEntry.read) (buildInspectorEntries_eq hcompiled.entries)
  rw [← map_inspectorPropertyInfo_numbered hproperties hfits hbuilt, scriptPropertyList, hentries]
  rfl

theorem propertyNames_compiled (engine : Engine Object)
    (hcompiled : CompiledFrom zero script descriptor) : propertyNames engine descriptor =
      (exportedFields (layout script.exports)).map fun field ↦ engine.ofUtf8 field.1 := by
  have hbuilt := builtFrom_buildProperties hcompiled.properties
  rw [propertyNames]
  generalize exportedFields (layout script.exports) = fields at hbuilt ⊢
  generalize descriptor.properties.list = properties at hbuilt ⊢
  induction hbuilt with
  | nil => rfl
  | cons hfirst hrest ih =>
    obtain ⟨-, type, default, -, rfl⟩ := propertyDescriptor_ok hfirst
    rw [List.map_cons, List.map_cons, ih]
    rfl

end Shown

/-! ### Compiled scripts are loaded -/

/-- The library of a script that was compiled. -/
def compiledLibrary (descriptor : RawScriptDescriptor F32 F64) : ScriptLibrary F32 F64 where
  init := some ⟨gzStatusOk, some descriptor⟩

/-- The library is loaded, and the Inspector shows what the script declares. -/
def LoadedAs (engine : Engine Object) (num : F64 → String) (zero : F64) (script : Script F32 F64)
    (descriptor : RawScriptDescriptor F32 F64) : Prop :=
  ∃ module, load engine (compiledLibrary descriptor) = (.ok module, 0) ∧
    scriptPropertyList engine num module.script =
      (layout script.exports).map (shownEntry engine num zero script)

/-- The exported names decode to distinct names. -/
def NamesDecodeApart (engine : Engine Object) (script : Script F32 F64) : Prop :=
  ((exportedFields (layout script.exports)).map fun field ↦ engine.ofUtf8 field.1).Nodup

variable {engine : Engine Object} {num : F64 → String}

theorem accepted_compiledLibrary (hcompiled : CompiledFrom zero script descriptor)
    (hlimits : WithinLimits descriptor) (hbase : script.godotClass ≠ []) :
    (compiledLibrary descriptor).accepted = .ok descriptor := by
  have hnone := (descriptorError_eq_none_iff hcompiled hlimits).mpr hbase
  simp only [ScriptLibrary.accepted, compiledLibrary, hnone]
  rfl

/-- A script without a base class is refused. -/
theorem not_loadedAs_of_baseless (hcompiled : CompiledFrom zero script descriptor)
    (hlimits : WithinLimits descriptor) (hbase : script.godotClass = []) :
    ¬ LoadedAs engine num zero script descriptor := by
  rintro ⟨module, hload, -⟩
  have hnot : descriptorError descriptor ≠ none := fun hnone ↦
    (descriptorError_eq_none_iff hcompiled hlimits).mp hnone hbase
  obtain ⟨message, hmessage⟩ := Option.ne_none_iff_exists'.mp hnot
  have hrefused : (compiledLibrary descriptor).accepted = .error message := by
    simp only [ScriptLibrary.accepted, compiledLibrary, hmessage]
    rfl
  rw [load_eq, hrefused] at hload
  exact absurd (congrArg Prod.snd hload) (by decide : (1 : ℕ) ≠ 0)

theorem not_loadedAs_of_confused (hcompiled : CompiledFrom zero script descriptor)
    (hlimits : WithinLimits descriptor) (hbase : script.godotClass ≠ [])
    (hnames : ¬ NamesDecodeApart engine script) : ¬ LoadedAs engine num zero script descriptor := by
  rintro ⟨module, hload, -⟩
  rcases load_accepted engine (accepted_compiledLibrary hcompiled hlimits hbase) with
    ⟨-, -, -, hnodup⟩ | ⟨message, hrefused, -⟩
  · rw [propertyNames_compiled engine hcompiled] at hnodup
    exact hnames hnodup
  · rw [hrefused] at hload
    exact absurd (congrArg Prod.snd hload) (by decide : (2 : ℕ) ≠ 0)

/-- Whatever the adapter compiles within the limits is loaded and shown as declared, exactly if the
script has a base class and the names it exports are distinct for the engine. -/
theorem loadedAs_iff (hcompiled : compile zero script = .ok descriptor)
    (hlimits : WithinLimits descriptor) :
    LoadedAs engine num zero script descriptor ↔
      script.godotClass ≠ [] ∧ NamesDecodeApart engine script := by
  have hfrom := compiledFrom_of_compile hcompiled
  constructor
  · intro hloaded
    have hbase : script.godotClass ≠ [] := fun hempty ↦
      not_loadedAs_of_baseless hfrom hlimits hempty hloaded
    refine ⟨hbase, ?_⟩
    by_contra hnames
    exact not_loadedAs_of_confused hfrom hlimits hbase hnames hloaded
  · rintro ⟨hbase, hnames⟩
    rcases load_accepted engine (accepted_compiledLibrary hfrom hlimits hbase) with
      ⟨module, hload, hmodule, -⟩ | ⟨-, -, hnot⟩
    · refine ⟨module, hload, ?_⟩
      rw [hmodule]
      exact scriptPropertyList_compiled hfrom
    · rw [propertyNames_compiled engine hfrom] at hnot
      exact absurd hnames hnot

/-! ### Scripts of two properties -/

/-- A flag that is false by default. -/
def flagField (name : ByteString) : ScriptField Empty ℕ where
  name := name
  type := some .bool
  default := fun _ htype ↦ some (Option.some.inj htype ▸ false)

/-- A script that exports two flags, with the category of the first. -/
def flagScript (godotClass category first second : ByteString)
    (names : FieldNames [first, second]) : Script Empty ℕ where
  godotClass := godotClass
  declares := fun _ ↦ false
  fields := [flagField first, flagField second]
  fieldNames := names
  exports := .struct [(first, { category := category }), (second, {})] names
  signals := []
  signalNames := ⟨List.nodup_nil, by simp⟩

/-- An engine that decodes bytes that are not UTF-8 to the replacement character. -/
def replacingEngine : Engine Empty :=
  { ValueCodec.sampleEngine with
    ofUtf8 := fun bytes ↦ (String.fromUTF8? ⟨bytes.toArray⟩).getD "\uFFFD"
    ofUtf8_utf8 := fun text ↦ by
      have hbytes : (⟨text.toUTF8.data.toList.toArray⟩ : ByteArray) = text.toByteArray := by simp
      change (String.fromUTF8? ⟨text.toUTF8.data.toList.toArray⟩).getD "\uFFFD" = text
      rw [hbytes, String.fromUTF8?, dif_pos text.isValidUTF8]
      rfl }

/-- A script whose base class has no name. -/
def baselessScript : Script Empty ℕ :=
  flagScript [] [] [97] [98] ⟨by decide, by decide⟩

/-- A script whose two properties have names that are not UTF-8. -/
def confusedScript : Script Empty ℕ :=
  flagScript [78] [] [0xff] [0xfe] ⟨by decide, by decide⟩

theorem compile_baseless : ∃ descriptor, compile 0 baselessScript = .ok descriptor ∧
    WithinLimits descriptor :=
  ⟨_, rfl, by decide, by decide, by decide, by decide, by decide, by decide⟩

theorem compile_confused : ∃ descriptor, compile 0 confusedScript = .ok descriptor ∧
    WithinLimits descriptor :=
  ⟨_, rfl, by decide, by decide, by decide, by decide, by decide, by decide⟩

/-- Neither is loaded, although both compile within the limits. -/
theorem compiled_not_always_loaded :
    (∃ descriptor, compile 0 baselessScript = .ok descriptor ∧ WithinLimits descriptor ∧
        ¬ LoadedAs replacingEngine Nat.repr 0 baselessScript descriptor) ∧
      ∃ descriptor, compile 0 confusedScript = .ok descriptor ∧ WithinLimits descriptor ∧
        ¬ LoadedAs replacingEngine Nat.repr 0 confusedScript descriptor := by
  constructor
  · obtain ⟨descriptor, hcompiled, hlimits⟩ := compile_baseless
    refine ⟨descriptor, hcompiled, hlimits, ?_⟩
    exact not_loadedAs_of_baseless (compiledFrom_of_compile hcompiled) hlimits rfl
  · obtain ⟨descriptor, hcompiled, hlimits⟩ := compile_confused
    refine ⟨descriptor, hcompiled, hlimits, ?_⟩
    refine not_loadedAs_of_confused (compiledFrom_of_compile hcompiled) hlimits (by decide) ?_
    have hnames : (exportedFields (layout confusedScript.exports)).map
        (fun field ↦ replacingEngine.ofUtf8 field.1) = ["\uFFFD", "\uFFFD"] := by
      decide +kernel
    rw [NamesDecodeApart, hnames]
    decide

/-- A script whose first property has a category. -/
def categoryScript : Script Empty ℕ :=
  flagScript [78] [67] [97] [98] ⟨by decide, by decide⟩

/-- The script is loaded, and shown under a heading. -/
theorem loadedAs_category :
    ∃ descriptor, compile 0 categoryScript = .ok descriptor ∧ WithinLimits descriptor ∧
      LoadedAs replacingEngine Nat.repr 0 categoryScript descriptor ∧
      (layout categoryScript.exports).map (shownEntry replacingEngine Nat.repr 0 categoryScript) =
        [some ⟨.nil, "C", 0, "", .category, ""⟩, some ⟨.bool, "a", 0, "", .default, ""⟩,
          some ⟨.bool, "b", 0, "", .default, ""⟩] := by
  refine ⟨_, rfl, ?_, (loadedAs_iff rfl ?_).mpr ?_, by decide +kernel⟩
  · exact ⟨by decide, by decide, by decide, by decide, by decide, by decide⟩
  · exact ⟨by decide, by decide, by decide, by decide, by decide, by decide⟩
  · constructor
    · decide
    · unfold NamesDecodeApart
      decide +kernel

end Gzscript.Abi.AdapterLoad
