import Gzscript.Abi.Inspector

/-!
# The descriptor a library hands out

`GzScriptDescriptor` as it crosses the C boundary, before anything is known of it: string views and
tables whose pointer may be null, counts, tags that are plain numbers, and callbacks that may be
missing. `descriptorError` is every check the loader makes of it before it creates a module, with
the message of the first one that fails. `script` reads an accepted descriptor.
-/

set_option autoImplicit false
set_option relaxedAutoImplicit false

namespace Gzscript.Abi.RawDescriptor

open Library.Bytes Value ValueCodec Descriptor Inspector

/-! ### Views and tables -/

/-- `GzStringView`: a null pointer with some length, or a pointer to bytes with their number. -/
inductive StringView
  | null (len : ℕ)
  | bytes (data : ByteString)
  deriving DecidableEq

namespace StringView

def len : StringView → ℕ
  | null len => len
  | bytes data => data.length

def slice : StringView → ByteString
  | null _ => []
  | bytes data => data

end StringView

/-- A pointer to a table, which may be null, and the number of its entries. -/
structure Table (α : Type) where
  count : UInt32
  entries : Option (List α)
  length_eq : ∀ list ∈ entries, list.length = count.toNat

namespace Table

variable {α : Type}

/-- The entries; there are none behind a null pointer. -/
def list (table : Table α) : List α := table.entries.getD []

/-- There should be entries, and the pointer is null. -/
def missing (table : Table α) : Bool := decide (0 < table.count) && table.entries.isNone

/-- The table of a list of a known length, with a null pointer if it is empty. -/
def counted (count : ℕ) (list : List α) (hcount : list.length = count) (hfits : count < 2 ^ 32) :
    Table α where
  count := .ofNat count
  entries := if list = [] then none else some list
  length_eq := fun entries hentries ↦ by
    split_ifs at hentries with hempty
    · cases hentries
    · obtain rfl := Option.some.inj hentries
      rw [hcount, UInt32.toNat_ofNat_of_lt' hfits]

@[simp] theorem list_counted (count : ℕ) (list : List α) (hcount : list.length = count)
    (hfits : count < 2 ^ 32) : (counted count list hcount hfits).list = list := by
  cases list <;> rfl

theorem missing_counted (count : ℕ) (list : List α) (hcount : list.length = count)
    (hfits : count < 2 ^ 32) : (counted count list hcount hfits).missing = false := by
  subst hcount
  cases list <;> simp [missing, counted]

/-- A table that is not missing has as many entries as its count says. -/
theorem length_list {table : Table α} (h : table.missing = false) :
    table.list.length = table.count.toNat := by
  cases hentries : table.entries with
  | none =>
    have hzero : ¬ 0 < table.count := by
      simpa [missing, hentries] using h
    have htoNat : table.count.toNat = 0 := by
      rw [UInt32.lt_iff_toNat_lt, UInt32.toNat_zero] at hzero
      omega
    rw [list, hentries, htoNat]
    rfl
  | some entries =>
    rw [list, hentries]
    exact table.length_eq entries hentries

end Table

/-! ### The descriptor -/

/-- A value whose string, if it is one, is a view. -/
inductive RawValue (F32 F64 : Type)
  | string (view : StringView)
  | plain (value : GzValue F32 F64)

namespace RawValue

variable {F32 F64 : Type}

def type : RawValue F32 F64 → UInt32
  | string _ => 4
  | plain value => gzValueType value

def value : RawValue F32 F64 → GzValue F32 F64
  | string view => .string view.slice
  | plain value => value

end RawValue

structure RawProperty (F32 F64 : Type) where
  name : StringView
  type : UInt32
  hint : UInt32
  hintString : StringView
  className : StringView
  rangeMin : F64
  rangeMax : F64
  rangeStep : F64
  defaultValue : RawValue F32 F64

structure RawInspectorEntry where
  kind : UInt32
  propertyIndex : UInt32
  name : StringView
  groupPrefix : StringView

structure RawSignalArgument where
  name : StringView
  type : UInt32

structure RawSignal where
  name : StringView
  arguments : Table RawSignalArgument

/-- `GzScriptDescriptor`. Of a method its name is recorded, of a callback whether there is one. -/
structure RawScriptDescriptor (F32 F64 : Type) where
  abiVersion : UInt32
  structSize : UInt32
  baseClass : StringView
  methods : Table StringView
  properties : Table (RawProperty F32 F64)
  inspectorEntries : Table RawInspectorEntry
  signals : Table RawSignal
  createInstance : Bool
  destroyInstance : Bool
  callMethod : Bool
  getProperty : Bool
  setProperty : Bool
  notification : Bool

variable {Object F32 F64 : Type}

/-- A property read through its views. -/
def RawProperty.read (property : RawProperty F32 F64) : PropertyDescriptor F32 F64 where
  name := property.name.slice
  type := property.type
  hint := property.hint
  hintString := property.hintString.slice
  className := property.className.slice
  rangeMin := property.rangeMin
  rangeMax := property.rangeMax
  rangeStep := property.rangeStep
  defaultValue := property.defaultValue.value

/-- An Inspector entry read through its views. -/
def RawInspectorEntry.read (entry : RawInspectorEntry) : InspectorEntryDescriptor where
  kind := entry.kind
  propertyIndex := entry.propertyIndex
  name := entry.name.slice
  groupPrefix := entry.groupPrefix.slice

/-- The descriptor read through its views and tables. -/
def RawScriptDescriptor.script (descriptor : RawScriptDescriptor F32 F64) :
    ScriptDescriptor F32 F64 where
  baseClass := descriptor.baseClass.slice
  properties := descriptor.properties.list.map RawProperty.read
  inspectorEntries := descriptor.inspectorEntries.list.map RawInspectorEntry.read

/-! ### `validate_descriptor` -/

/-- `DESCRIPTOR_COUNT_LIMIT`. -/
def descriptorCountLimit : UInt32 := 65536

/-- `DESCRIPTOR_STRING_LIMIT`. -/
def descriptorStringLimit : ℕ := 1024 * 1024

def validView (view : StringView) (allowEmpty : Bool) : Bool :=
  if view.len = 0 then allowEmpty
  else
    match view with
    | .null _ => false
    | .bytes data => data.length ≤ descriptorStringLimit

/-- `GZ_VALUE_RECT2`, the largest tag of a value. -/
def validValueType (type : UInt32) : Bool := type ≤ 11

/-- `GZ_PROPERTY_HINT_NONE`, `_RANGE`, `_ENUM`, `_FILE` and `_MULTILINE_TEXT`. -/
def validPropertyHint (hint : UInt32) : Bool :=
  hint = 0 || hint = 1 || hint = 2 || hint = 13 || hint = 18

def validDefault : RawValue F32 F64 → Bool
  | .string view => validView view true
  | .plain (.string data) => validView (.bytes data) true
  | .plain value => validValueType (gzValueType value)

def validProperty (property : RawProperty F32 F64) : Bool :=
  validView property.name false && validView property.hintString true &&
    validView property.className true && validValueType property.type &&
    validPropertyHint property.hint && validDefault property.defaultValue

def validInspectorEntry (entry : RawInspectorEntry) : Bool :=
  validView entry.name true && validView entry.groupPrefix true

def validSignal (signal : RawSignal) : Bool :=
  validView signal.name false && signal.arguments.count ≤ descriptorCountLimit &&
    !signal.arguments.missing

def validSignalArgument (argument : RawSignalArgument) : Bool :=
  validView argument.name false && validValueType argument.type

/-- The loop over the signals, which checks the arguments of one before it goes on to the next. -/
def signalsError : List RawSignal → Option String
  | [] => none
  | signal :: signals =>
    if !validSignal signal then some "Compiled Zig script has invalid signal metadata"
    else if !signal.arguments.list.all validSignalArgument then
      some "Compiled Zig script has invalid signal argument metadata"
    else signalsError signals

def validateDescriptor (descriptor : RawScriptDescriptor F32 F64) : Option String :=
  if !validView descriptor.baseClass false then
    some "Compiled Zig script has an invalid base class"
  else if descriptorCountLimit < descriptor.methods.count ||
      descriptorCountLimit < descriptor.properties.count ||
      descriptorCountLimit < descriptor.inspectorEntries.count ||
      descriptorCountLimit < descriptor.signals.count then
    some "Compiled Zig script descriptor exceeds metadata limits"
  else if !descriptor.methods.list.all (validView · false) then
    some "Compiled Zig script has invalid method metadata"
  else if !descriptor.properties.list.all validProperty then
    some "Compiled Zig script has invalid property metadata"
  else if !descriptor.inspectorEntries.list.all validInspectorEntry then
    some "Compiled Zig script has invalid Inspector metadata"
  else signalsError descriptor.signals.list

/-! ### The other checks of `load` -/

/-- `GZSCRIPT_ABI_VERSION`. -/
def gzscriptAbiVersion : UInt32 := 5

/-- `sizeof(GzScriptDescriptor)`. -/
def descriptorSize : UInt32 := 136

/-- A callback or a table is missing. -/
def incomplete (descriptor : RawScriptDescriptor F32 F64) : Bool :=
  !descriptor.createInstance || !descriptor.destroyInstance || !descriptor.callMethod ||
    !descriptor.getProperty || !descriptor.setProperty || !descriptor.notification ||
    descriptor.methods.missing || descriptor.properties.missing ||
    descriptor.inspectorEntries.missing || descriptor.signals.missing

/-- `GZ_INSPECTOR_ENTRY_SUBGROUP`, the largest kind of an entry. -/
def inspectorEntrySubgroup : UInt32 := 3

/-- The loop over the Inspector entries: the properties that are listed at its end, or the message
of the entry it stops at. -/
def listProperties (propertyCount : ℕ) : List RawInspectorEntry → List ℕ →
    Except String (List ℕ)
  | [], listed => .ok listed
  | entry :: entries, listed =>
    if inspectorEntrySubgroup < entry.kind then
      .error "Compiled Zig script has an invalid Inspector entry"
    else if entry.kind ≠ inspectorEntryProperty then listProperties propertyCount entries listed
    else if propertyCount ≤ entry.propertyIndex.toNat ∨ entry.propertyIndex.toNat ∈ listed then
      .error "Compiled Zig script has an invalid Inspector property index"
    else listProperties propertyCount entries (entry.propertyIndex.toNat :: listed)

def inspectorError (descriptor : RawScriptDescriptor F32 F64) : Option String :=
  match listProperties descriptor.properties.count.toNat descriptor.inspectorEntries.list [] with
  | .error message => some message
  | .ok listed =>
    if (List.range descriptor.properties.count.toNat).all (· ∈ listed) then none
    else some "Compiled Zig script Inspector layout omits a property"

/-- The checks of `load` of an initialised script, before the module is created. -/
def descriptorError (descriptor : RawScriptDescriptor F32 F64) : Option String :=
  if descriptor.abiVersion ≠ gzscriptAbiVersion ∨ descriptor.structSize ≠ descriptorSize then
    some "Compiled Zig script ABI does not match gzscript"
  else if incomplete descriptor then some "Compiled Zig script descriptor is incomplete"
  else
    match validateDescriptor descriptor with
    | some message => some message
    | none => inspectorError descriptor

/-- The names of the properties, as the engine decodes them. -/
def propertyNames (engine : Engine Object) (descriptor : RawScriptDescriptor F32 F64) :
    List String :=
  descriptor.properties.list.map fun property ↦ engine.ofUtf8 property.name.slice

end Gzscript.Abi.RawDescriptor
