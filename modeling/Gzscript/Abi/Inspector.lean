import Gzscript.Abi.Descriptor
import Mathlib.Data.List.Forall2

/-!
# What the inspector shows of a script

When a module is loaded, the list of its properties and the dictionary of their defaults are made
from its descriptor. The bounds of a range go into the list as text. Comparing two descriptors
compares the bounds as numbers, and zero is equal to negative zero, whose text is another: two
modules with the same exports have the same list exactly when the texts of their ranges agree
(`scriptPropertyList_eq_iff`). The dictionaries are always the same (`propertyDefaults_eq`).

A script is loaded only if its entries list every property once, under distinct names.
-/

set_option autoImplicit false
set_option relaxedAutoImplicit false

namespace Gzscript.Abi.Inspector

open Library.Bytes Value ValueCodec Descriptor

/-- `Variant::Type`. -/
inductive VariantType
  | nil | bool | int | float | string | vector2 | object | vector3 | color | transform2d
  | transform3d | rect2
  | other (type : ℕ)
  deriving DecidableEq

/-- `variant_type`. -/
def variantType (type : UInt32) : VariantType :=
  match type with
  | 1 => .bool
  | 2 => .int
  | 3 => .float
  | 4 => .string
  | 5 => .vector2
  | 6 => .object
  | 7 => .vector3
  | 8 => .color
  | 9 => .transform2d
  | 10 => .transform3d
  | 11 => .rect2
  | _ => .nil

inductive PropertyUsage
  | none | category | group | subgroup | default
  deriving DecidableEq

structure PropertyInfo where
  type : VariantType
  name : String
  hint : UInt32
  hintString : String
  usage : PropertyUsage
  className : String
  deriving DecidableEq

/-- `GZ_INSPECTOR_ENTRY_CATEGORY`, `GZ_INSPECTOR_ENTRY_GROUP` and
`GZ_INSPECTOR_ENTRY_SUBGROUP`. -/
def usageOf (kind : UInt32) : PropertyUsage :=
  if kind = 1 then .category else if kind = 2 then .group else if kind = 3 then .subgroup else .none

/-- `PROPERTY_HINT_NONE`. -/
def propertyHintNone : UInt32 := 0

/-- `PROPERTY_HINT_RANGE`. -/
def propertyHintRange : UInt32 := 1

variable {Object F32 F64 : Type} (engine : Engine Object) (num : F64 → String)

/-- The hint string of a range, with `String::num` of its bounds. -/
def rangeHint (property : PropertyDescriptor F32 F64) : String :=
  num property.rangeMin ++ "," ++ num property.rangeMax ++ "," ++ num property.rangeStep

/-- The information on a property. -/
def propertyInfo (property : PropertyDescriptor F32 F64) : PropertyInfo where
  type := variantType property.type
  name := engine.ofUtf8 property.name
  hint := property.hint
  hintString :=
    if property.hint = propertyHintRange then rangeHint num property
    else engine.ofUtf8 property.hintString
  usage := .default
  className := engine.ofUtf8 property.className

/-- `inspector_property_info`. No module is loaded that has an entry of a property it has not. -/
def inspectorPropertyInfo (descriptor : ScriptDescriptor F32 F64)
    (entry : InspectorEntryDescriptor) : Option PropertyInfo :=
  if entry.kind ≠ inspectorEntryProperty then
    some
      { type := .nil
        name := engine.ofUtf8 entry.name
        hint := propertyHintNone
        hintString := engine.ofUtf8 entry.groupPrefix
        usage := usageOf entry.kind
        className := "" }
  else
    descriptor.properties[entry.propertyIndex.toNat]?.map (propertyInfo engine num)

/-- `script_property_list` of a loaded module. -/
def scriptPropertyList (descriptor : ScriptDescriptor F32 F64) : List (Option PropertyInfo) :=
  descriptor.inspectorEntries.map (inspectorPropertyInfo engine num descriptor)

/-- `property_defaults` of a loaded module. -/
def propertyDefaults (descriptor : ScriptDescriptor F32 F64) :
    List (String × Variant Object F32 F64) :=
  descriptor.properties.map fun property ↦
    (engine.ofUtf8 property.name, (toVariant engine property.defaultValue).1)

/-! ### Types of values -/

/-- The tag of an ABI value. -/
def gzValueType : GzValue F32 F64 → UInt32
  | .nil => 0
  | .bool _ => 1
  | .int _ => 2
  | .float _ => 3
  | .string _ => 4
  | .vector2 _ => 5
  | .object _ => 6
  | .vector3 _ => 7
  | .color _ => 8
  | .transform2d _ => 9
  | .transform3d _ => 10
  | .rect2 _ => 11
  | .other type => type

/-- `Variant::get_type`. -/
def typeOf : Variant Object F32 F64 → VariantType
  | .nil => .nil
  | .bool _ => .bool
  | .int _ => .int
  | .float _ => .float
  | .string _ => .string
  | .vector2 _ => .vector2
  | .object _ => .object
  | .vector3 _ => .vector3
  | .color _ => .color
  | .transform2d _ => .transform2d
  | .transform3d _ => .transform3d
  | .rect2 _ => .rect2
  | .other type => .other type

/-- The default of every property is of the type of the property. -/
def DefaultsTyped (descriptor : ScriptDescriptor F32 F64) : Prop :=
  ∀ property ∈ descriptor.properties, gzValueType property.defaultValue = property.type

/-- On the values of one type the engine's equality is equality. -/
def EqualityExact (equality : Equality Object F32 F64) : Prop :=
  ∀ lhs rhs : Variant Object F32 F64, typeOf lhs = typeOf rhs → equality.variant lhs rhs = true →
    lhs = rhs

variable {engine num}

theorem typeOf_toVariant {value : GzValue F32 F64} (hvalid : (toVariant engine value).2 = true) :
    typeOf (toVariant engine value).1 = variantType (gzValueType value) := by
  cases value with
  | other type => exact absurd hvalid Bool.false_ne_true
  | _ => rfl

/-! ### Lists that correspond -/

section Lists

variable {α β γ : Type} {relation : α → β → Prop} {firsts : List α} {seconds : List β}

theorem forall₂_of_all_zip {test : α → β → Bool} (hlength : firsts.length = seconds.length)
    (htest : (firsts.zip seconds).all (fun pair ↦ test pair.1 pair.2) = true) :
    List.Forall₂ (fun first second ↦ test first second = true) firsts seconds := by
  rw [List.forall₂_iff_zip]
  refine ⟨hlength, ?_⟩
  intro first second hmem
  exact List.all_eq_true.mp htest (first, second) hmem

/-- Two maps over lists that correspond agree exactly when they agree on each pair. -/
theorem map_eq_map_iff {f : α → γ} {g : β → γ} {property : α → Prop}
    (hpair : ∀ first second, relation first second → (f first = g second ↔ property first))
    (h : List.Forall₂ relation firsts seconds) :
    firsts.map f = seconds.map g ↔ ∀ first ∈ firsts, property first := by
  induction h with
  | nil => exact iff_of_true rfl fun _ hmem ↦ absurd hmem List.not_mem_nil
  | cons hhead htail ih =>
    rw [List.map_cons, List.map_cons, List.cons.injEq, List.forall_mem_cons, hpair _ _ hhead, ih]

/-- At an index both lists end, or have members that correspond. -/
theorem getElem?_cases (h : List.Forall₂ relation firsts seconds) (index : ℕ) :
    firsts[index]? = none ∧ seconds[index]? = none ∨
      ∃ first second, firsts[index]? = some first ∧ seconds[index]? = some second ∧
        relation first second := by
  induction h generalizing index with
  | nil => exact .inl ⟨List.getElem?_nil, List.getElem?_nil⟩
  | @cons first second _ _ hhead htail ih =>
    rcases index with _ | index
    · exact .inr ⟨first, second, rfl, rfl, hhead⟩
    · simpa only [List.getElem?_cons_succ] using ih index

end Lists

/-! ### Modules with the same exports -/

section SameExports

variable {equality : Equality Object F32 F64} {lhs rhs : ScriptDescriptor F32 F64}

/-- What the comparison of two descriptors says. -/
structure SameExports (engine : Engine Object) (equality : Equality Object F32 F64)
    (lhs rhs : ScriptDescriptor F32 F64) : Prop where
  entries : List.Forall₂ (fun first second ↦ sameInspectorEntry first second = true)
    lhs.inspectorEntries rhs.inspectorEntries
  properties : List.Forall₂ (fun first second ↦ sameProperty engine equality first second = true)
    lhs.properties rhs.properties

theorem sameExports_of_hasSameExports
    (h : hasSameExports engine equality (some lhs) (some rhs) = true) :
    SameExports engine equality lhs rhs := by
  simp only [hasSameExports, Bool.and_eq_true, decide_eq_true_eq] at h
  obtain ⟨⟨⟨⟨hproperties, hentries⟩, -⟩, hsameEntries⟩, hsameProperties⟩ := h
  constructor
  · exact forall₂_of_all_zip hentries hsameEntries
  · exact forall₂_of_all_zip hproperties hsameProperties

/-- Defaults that compare equal, of one type, are the same. -/
theorem default_eq (hexact : EqualityExact equality) {first second : PropertyDescriptor F32 F64}
    (hfirst : gzValueType first.defaultValue = first.type)
    (hsecond : gzValueType second.defaultValue = second.type)
    (hsame : sameProperty engine equality first second = true) :
    first.name = second.name ∧
      (toVariant engine first.defaultValue).1 = (toVariant engine second.defaultValue).1 := by
  simp only [sameProperty, defaultValueEqual, Bool.and_eq_true, decide_eq_true_eq, and_assoc]
    at hsame
  obtain ⟨htype, -, -, -, -, hname, -, -, hfirstValid, hsecondValid, hequal⟩ := hsame
  refine ⟨hname, hexact _ _ ?_ hequal⟩
  rw [typeOf_toVariant hfirstValid, typeOf_toVariant hsecondValid, hfirst, hsecond, htype]

/-- Modules with the same exports have the same defaults. -/
theorem propertyDefaults_eq (hexact : EqualityExact equality) (hlhs : DefaultsTyped lhs)
    (hrhs : DefaultsTyped rhs) (h : SameExports engine equality lhs rhs) :
    propertyDefaults engine lhs = propertyDefaults engine rhs := by
  have hproperties := h.properties
  unfold DefaultsTyped at hlhs hrhs
  unfold propertyDefaults
  generalize lhs.properties = firsts at hproperties hlhs ⊢
  generalize rhs.properties = seconds at hproperties hrhs ⊢
  induction hproperties with
  | nil => rfl
  | @cons first second firsts seconds hsame hrest ih =>
    rw [List.forall_mem_cons] at hlhs hrhs
    obtain ⟨hname, hdefault⟩ := default_eq hexact hlhs.1 hrhs.1 hsame
    rw [List.map_cons, List.map_cons, ih hlhs.2 hrhs.2, hname, hdefault]

/-- Two equal properties are shown alike exactly when their ranges are. -/
theorem propertyInfo_eq_iff {first second : PropertyDescriptor F32 F64}
    (hsame : sameProperty engine equality first second = true) :
    propertyInfo engine num first = propertyInfo engine num second ↔
      (first.hint = propertyHintRange → rangeHint num first = rangeHint num second) := by
  simp only [sameProperty, Bool.and_eq_true, decide_eq_true_eq, and_assoc] at hsame
  obtain ⟨htype, hhint, -, -, -, hname, hhintString, hclassName, -⟩ := hsame
  simp only [propertyInfo, PropertyInfo.mk.injEq, htype, hhint, hname, hhintString, hclassName,
    true_and, and_true]
  split_ifs with hrange
  · exact ⟨fun htext _ ↦ htext, fun htext ↦ htext hrange⟩
  · exact iff_of_true rfl fun h ↦ absurd h hrange

/-- The texts of the range that an entry lists agree. -/
def EntryPrintsAlike (num : F64 → String) (lhs rhs : ScriptDescriptor F32 F64)
    (entry : InspectorEntryDescriptor) : Prop :=
  entry.kind = inspectorEntryProperty →
    ∀ first second, lhs.properties[entry.propertyIndex.toNat]? = some first →
      rhs.properties[entry.propertyIndex.toNat]? = some second →
        first.hint = propertyHintRange → rangeHint num first = rangeHint num second

theorem inspectorPropertyInfo_eq_iff (h : SameExports engine equality lhs rhs)
    {first second : InspectorEntryDescriptor} (hsame : sameInspectorEntry first second = true) :
    inspectorPropertyInfo engine num lhs first = inspectorPropertyInfo engine num rhs second ↔
      EntryPrintsAlike num lhs rhs first := by
  simp only [sameInspectorEntry, Bool.and_eq_true, Bool.or_eq_true, decide_eq_true_eq] at hsame
  obtain ⟨⟨⟨hkind, hname⟩, hgroup⟩, hindex⟩ := hsame
  unfold inspectorPropertyInfo EntryPrintsAlike
  rw [← hkind, ← hname, ← hgroup]
  by_cases hproperty : first.kind = inspectorEntryProperty
  · rw [if_neg (not_not_intro hproperty), if_neg (not_not_intro hproperty),
      ← hindex.resolve_left (not_not_intro hproperty)]
    obtain ⟨hfirst, hsecond⟩ | ⟨left, right, hfirst, hsecond, hequal⟩ :=
      getElem?_cases h.properties first.propertyIndex.toNat
    · rw [hfirst, hsecond]
      exact iff_of_true rfl fun _ _ _ hnone ↦ absurd hnone (Option.some_ne_none _).symm
    · rw [hfirst, hsecond]
      have hinfo : propertyInfo engine num left = propertyInfo engine num right ↔
          (left.hint = propertyHintRange → rangeHint num left = rangeHint num right) :=
        propertyInfo_eq_iff hequal
      constructor
      · intro hsameInfo _ left' right' hleft hright
        obtain rfl := Option.some.inj hleft
        obtain rfl := Option.some.inj hright
        exact hinfo.mp (Option.some.inj hsameInfo)
      · intro hprints
        exact congrArg some (hinfo.mpr (hprints hproperty left right rfl rfl))
  · rw [if_pos hproperty, if_pos hproperty]
    exact iff_of_true rfl fun hkind ↦ absurd hkind hproperty

/-- The texts of the ranges that the entries list agree. -/
def RangesPrintAlike (num : F64 → String) (lhs rhs : ScriptDescriptor F32 F64) : Prop :=
  ∀ entry ∈ lhs.inspectorEntries, EntryPrintsAlike num lhs rhs entry

/-- Modules with the same exports have the same list exactly when the texts of their ranges agree.
-/
theorem scriptPropertyList_eq_iff (h : SameExports engine equality lhs rhs) :
    scriptPropertyList engine num lhs = scriptPropertyList engine num rhs ↔
      RangesPrintAlike num lhs rhs :=
  map_eq_map_iff (fun _ _ hsame ↦ inspectorPropertyInfo_eq_iff h hsame) h.entries

end SameExports

end Gzscript.Abi.Inspector
