import Gzscript.Abi.ValueCodec

/-!
# Script descriptors

What a compiled script tells about the properties it exports, and the comparison of two scripts by
it. Comparing two doubles and two engine values is the engine's part (`Equality`); a script has the
same exports as itself exactly when its ranges and defaults are equal to themselves
(`hasSameExports_self_iff`), which a range or a default that is not a number is not.
-/

set_option autoImplicit false
set_option relaxedAutoImplicit false

namespace Gzscript.Abi.Descriptor

open Library.Bytes Value ValueCodec

/-- `GZ_INSPECTOR_ENTRY_PROPERTY`. -/
def inspectorEntryProperty : UInt32 := 0

structure InspectorEntryDescriptor where
  kind : UInt32
  propertyIndex : UInt32
  name : ByteString
  groupPrefix : ByteString
  deriving DecidableEq

structure PropertyDescriptor (F32 F64 : Type) where
  name : ByteString
  type : UInt32
  hint : UInt32
  hintString : ByteString
  className : ByteString
  rangeMin : F64
  rangeMax : F64
  rangeStep : F64
  defaultValue : GzValue F32 F64

structure ScriptDescriptor (F32 F64 : Type) where
  baseClass : ByteString
  properties : List (PropertyDescriptor F32 F64)
  inspectorEntries : List InspectorEntryDescriptor

/-- The comparisons that the compiler and the engine supply. -/
structure Equality (Object F32 F64 : Type) where
  double : F64 → F64 → Bool
  variant : Variant Object F32 F64 → Variant Object F32 F64 → Bool

variable {Object F32 F64 : Type} (engine : Engine Object) (equality : Equality Object F32 F64)

def defaultValueEqual (lhs rhs : GzValue F32 F64) : Bool :=
  let (lhsVariant, lhsValid) := toVariant engine lhs
  let (rhsVariant, rhsValid) := toVariant engine rhs
  lhsValid && rhsValid && equality.variant lhsVariant rhsVariant

/-- The index of an entry counts for an entry that is a property. -/
def sameInspectorEntry (lhs rhs : InspectorEntryDescriptor) : Bool :=
  lhs.kind = rhs.kind && lhs.name = rhs.name && lhs.groupPrefix = rhs.groupPrefix &&
    (lhs.kind ≠ inspectorEntryProperty || lhs.propertyIndex = rhs.propertyIndex)

def sameProperty (lhs rhs : PropertyDescriptor F32 F64) : Bool :=
  lhs.type = rhs.type && lhs.hint = rhs.hint &&
    equality.double lhs.rangeMin rhs.rangeMin && equality.double lhs.rangeMax rhs.rangeMax &&
    equality.double lhs.rangeStep rhs.rangeStep && lhs.name = rhs.name &&
    lhs.hintString = rhs.hintString && lhs.className = rhs.className &&
    defaultValueEqual engine equality lhs.defaultValue rhs.defaultValue

/-- `has_same_exports`, on the descriptors of two modules. -/
def hasSameExports : Option (ScriptDescriptor F32 F64) → Option (ScriptDescriptor F32 F64) → Bool
  | some lhs, some rhs =>
    lhs.properties.length = rhs.properties.length &&
      lhs.inspectorEntries.length = rhs.inspectorEntries.length &&
      lhs.baseClass = rhs.baseClass &&
      (lhs.inspectorEntries.zip rhs.inspectorEntries).all
        (fun entries ↦ sameInspectorEntry entries.1 entries.2) &&
      (lhs.properties.zip rhs.properties).all
        (fun properties ↦ sameProperty engine equality properties.1 properties.2)
  | none, none => true
  | _, _ => false

/-- The index of the property with a name. Names are compared as the engine decodes them. -/
def findProperty (descriptor : ScriptDescriptor F32 F64) (name : ByteString) : Option ℕ :=
  descriptor.properties.findIdx? fun property ↦ engine.ofUtf8 property.name = engine.ofUtf8 name

/-- The ranges and the default of a property are equal to themselves. -/
def PropertyDescriptor.SelfEqual (property : PropertyDescriptor F32 F64) : Prop :=
  equality.double property.rangeMin property.rangeMin ∧
    equality.double property.rangeMax property.rangeMax ∧
    equality.double property.rangeStep property.rangeStep ∧
    defaultValueEqual engine equality property.defaultValue property.defaultValue

theorem sameProperty_self_iff (property : PropertyDescriptor F32 F64) :
    sameProperty engine equality property property ↔ property.SelfEqual engine equality := by
  simp only [sameProperty, PropertyDescriptor.SelfEqual, decide_true, Bool.true_and, Bool.and_true,
    Bool.and_eq_true, and_assoc]

theorem sameInspectorEntry_self (entry : InspectorEntryDescriptor) :
    sameInspectorEntry entry entry := by
  simp [sameInspectorEntry]

/-- Pairing a list with itself tests each of its members against itself. -/
theorem all_zip_self {α : Type} (test : α → α → Bool) (items : List α) :
    (items.zip items).all (fun pair ↦ test pair.1 pair.2) ↔ ∀ item ∈ items, test item item := by
  induction items with
  | nil => simp
  | cons item items ih => simp only [List.zip_cons_cons, List.all_cons, Bool.and_eq_true, ih,
      List.forall_mem_cons]

/-- A script has the same exports as itself exactly when each of its properties is equal to
itself. -/
theorem hasSameExports_self_iff (descriptor : ScriptDescriptor F32 F64) :
    hasSameExports engine equality (some descriptor) (some descriptor) ↔
      ∀ property ∈ descriptor.properties, property.SelfEqual engine equality := by
  simp only [hasSameExports, decide_true, Bool.true_and, Bool.and_eq_true,
    all_zip_self sameInspectorEntry, all_zip_self (sameProperty engine equality),
    sameProperty_self_iff, sameInspectorEntry_self, implies_true, true_and]

end Gzscript.Abi.Descriptor
