import Gzscript.Abi.AdapterLoad
import Gzscript.Script.Migration

/-!
# Reloading a script whose exports are the same

An instance is migrated by the functions that the adapters of the two modules export: a get of the
one encodes a field, and a set of the other decodes it. Descriptors that compare equal say the ABI
type of a field and not its Zig type, and some values that a field can hold are encoded but not
accepted again. `keepsState_iff` says exactly when every property reads as it did before: each field
of the next module holds the value unchanged, the copies of strings are allocated, and no optional
field holds an object of another class. `reload_loses_state` has two instances that are not migrated
although the exports are the same.

The migration is that of `Migration`, with the adapters' functions on a memory of boxes
(`copyFrom_boxes`, `syncFrom_box`). `init` may make any fields of the module's types.
-/

set_option autoImplicit false
set_option relaxedAutoImplicit false

namespace Gzscript.Script.Reload

open Library.Bytes Abi.Value Abi.ValueCodec Abi.Descriptor Abi.Inspector Abi.FieldCodec Abi.Load
  Migration

variable {Object F32 F64 : Type}

/-! ### Instances of an adapter -/

/-- A field of a Zig type, with what it holds. -/
structure Field (F32 F64 : Type) where
  type : FieldType F32 F64
  held : type.Carrier

def Field.value (field : Field F32 F64) : GzValue F32 F64 := toValue field.type field.held

/-- The exported fields of an instance, in the order of its properties. -/
abbrev Box (F32 F64 : Type) : Type 1 := List (Field F32 F64)

/-- The boxes in memory, by their address, and whether the copy of a string can be allocated for the
field at an index. -/
structure Heap (F32 F64 : Type) where
  boxes : List (Option (Box F32 F64))
  allocates : ℕ → Bool

namespace Heap

variable (heap : Heap F32 F64)

def box (zigInstance : ZigInstance) : Option (Box F32 F64) := heap.boxes[zigInstance]?.join

def write (zigInstance : ZigInstance) (box : Box F32 F64) : Heap F32 F64 :=
  { heap with boxes := heap.boxes.set zigInstance (some box) }

end Heap

/-- The field holds a string, which it owns. -/
def isString : FieldType F32 F64 → Bool
  | .string => true
  | _ => false

/-- `setField`: the field with the value, unless its type does not accept the value or there is no
memory for a string. -/
def setField (allocated : Bool) (field : Field F32 F64) (value : GzValue F32 F64) :
    Option (Field F32 F64) :=
  match fromValue field.type value with
  | none => none
  | some held => if isString field.type && !allocated then none else some ⟨field.type, held⟩

def getProperty (zigInstance : ZigInstance) (index : ℕ) (heap : Heap F32 F64) :
    Option (GzValue F32 F64) × Heap F32 F64 :=
  (((heap.box zigInstance).bind (·[index]?)).map Field.value, heap)

def setProperty (zigInstance : ZigInstance) (index : ℕ) (value : GzValue F32 F64)
    (heap : Heap F32 F64) : Bool × Heap F32 F64 :=
  match heap.box zigInstance with
  | none => (false, heap)
  | some box =>
    match box[index]? with
    | none => (false, heap)
    | some field =>
      match setField (heap.allocates index) field value with
      | none => (false, heap)
      | some field => (true, heap.write zigInstance (box.set index field))

/-- `create`. The script's `init` makes the fields, or fails. -/
def create (init : UInt64 → Option (Box F32 F64)) (owner : UInt64) (heap : Heap F32 F64) :
    Option ZigInstance × Heap F32 F64 :=
  match init owner with
  | none => (none, heap)
  | some box => (some heap.boxes.length, { heap with boxes := heap.boxes ++ [some box] })

def destroy (zigInstance : ZigInstance) (heap : Heap F32 F64) : Heap F32 F64 :=
  { heap with boxes := heap.boxes.set zigInstance none }

/-- A descriptor describes a property by the type of its field. -/
def Describes (property : PropertyDescriptor F32 F64) (type : FieldType F32 F64) : Prop :=
  property.type = type.valueType ∧ property.className = type.objectClassName

/-- A loaded module of a script: what its properties are in the script. -/
structure AdapterModule (engine : Engine Object) (F32 F64 : Type) where
  loaded : GzCompiledModule engine F32 F64
  types : List (FieldType F32 F64)
  described : List.Forall₂ Describes loaded.script.properties types
  init : UInt64 → Option (Box F32 F64)
  init_types : ∀ owner box, init owner = some box → box.map Field.type = types

variable {engine : Engine Object}

/-- The module with the functions of its adapter. -/
def AdapterModule.script (module : AdapterModule engine F32 F64) :
    ScriptModule engine F32 F64 (Heap F32 F64) where
  loaded := module.loaded
  functions :=
    { createInstance := create module.init
      getProperty := getProperty
      setProperty := setProperty
      destroyInstance := destroy }

/-- A script that was compiled is described by the types of the fields it exports. -/
theorem describes_compiled {zero : F64} {script : Abi.Adapter.Script F32 F64}
    {descriptor : Abi.RawDescriptor.RawScriptDescriptor F32 F64}
    (hcompiled : Abi.AdapterLoad.CompiledFrom zero script descriptor) :
    ∃ types, List.Forall₂ (fun field type ↦ Abi.AdapterLoad.fieldType script field.1 = some type)
        (Abi.AdapterLoad.exportedFields (Abi.AdapterLoad.layout script.exports)) types ∧
      List.Forall₂ Describes descriptor.script.properties types := by
  have hbuilt := Abi.AdapterLoad.builtFrom_buildProperties hcompiled.properties
  change ∃ types, _ ∧
    List.Forall₂ Describes (descriptor.properties.list.map Abi.RawDescriptor.RawProperty.read) types
  generalize Abi.AdapterLoad.exportedFields (Abi.AdapterLoad.layout script.exports) = fields
    at hbuilt ⊢
  generalize descriptor.properties.list = properties at hbuilt ⊢
  induction hbuilt with
  | nil => exact ⟨[], .nil, .nil⟩
  | cons hfirst hrest ih =>
    obtain ⟨types, hfields, hdescribes⟩ := ih
    obtain ⟨-, type, default, htype, rfl⟩ := Abi.AdapterLoad.propertyDescriptor_ok hfirst
    exact ⟨type :: types, .cons htype hfields, .cons ⟨rfl, rfl⟩ hdescribes⟩

/-- An instance of a module whose fields are a box in memory. -/
structure LiveInstance (module : AdapterModule engine F32 F64) (heap : Heap F32 F64) where
  owner : UInt64
  zigInstance : ZigInstance
  retainedObjects : List (Variant Object F32 F64)
  fields : Box F32 F64
  box_eq : heap.box zigInstance = some fields
  fields_types : fields.map Field.type = module.types

variable {module : AdapterModule engine F32 F64} {heap : Heap F32 F64}

def LiveInstance.data (live : LiveInstance module heap) :
    InstanceData engine F32 F64 (Heap F32 F64) where
  owner := live.owner
  module := module.script
  zigInstance := live.zigInstance
  retainedObjects := live.retainedObjects

variable (isClass : Object → String → Bool)

/-- The migration succeeds, and every property reads as it did before. -/
def KeepsState (live : LiveInstance module heap) (next : AdapterModule engine F32 F64) : Prop :=
  let outcome := migrateEditorInstance isClass live.data next.script heap
  outcome.migrated = true ∧ ∀ index < module.loaded.script.properties.length,
    (outcome.data.module.functions.getProperty outcome.data.zigInstance index outcome.world).1 =
      (live.data.module.functions.getProperty live.data.zigInstance index heap).1

/-- A field of a type keeps the value that another one holds: it holds it unchanged, a string can be
copied, and an optional one does not give up an object of another class. -/
structure Keeps (engine : Engine Object) (allocated : Bool)
    (property : PropertyDescriptor F32 F64) (type : FieldType F32 F64)
    (value : GzValue F32 F64) : Prop where
  represents : Represents type value
  allocated : isString type = true → allocated = true
  compatible : ∀ godotClass, type = .optional godotClass →
    incompatible isClass engine property (toVariant engine value).1 = false

/-! ### Memory -/

namespace Heap

theorem box_write_self {zigInstance : ZigInstance} {box : Box F32 F64}
    (hbox : heap.box zigInstance = some box) (written : Box F32 F64) :
    (heap.write zigInstance written).box zigInstance = some written := by
  have hlt : zigInstance < heap.boxes.length := by
    by_contra hle
    rw [Heap.box, List.getElem?_eq_none (Nat.le_of_not_lt hle)] at hbox
    cases hbox
  rw [Heap.box, Heap.write, List.getElem?_set_self hlt]
  rfl

theorem box_write_other {zigInstance other : ZigInstance} (hne : zigInstance ≠ other)
    (written : Box F32 F64) : (heap.write zigInstance written).box other = heap.box other := by
  rw [Heap.box, Heap.write, List.getElem?_set_ne hne]
  rfl

end Heap

theorem getProperty_eq {zigInstance : ZigInstance} {done fields : Box F32 F64}
    {field : Field F32 F64} (hbox : heap.box zigInstance = some (done ++ field :: fields)) :
    getProperty zigInstance done.length heap = (some field.value, heap) := by
  rw [getProperty, hbox]
  simp

/-- A refused value changes nothing; a field that is set goes between the others. -/
def written (heap : Heap F32 F64) (zigInstance : ZigInstance) (done fields : Box F32 F64) :
    Option (Field F32 F64) → Bool × Heap F32 F64
  | none => (false, heap)
  | some field => (true, heap.write zigInstance (done ++ field :: fields))

theorem setProperty_eq {zigInstance : ZigInstance} {done fields : Box F32 F64}
    {field : Field F32 F64} (hbox : heap.box zigInstance = some (done ++ field :: fields))
    (value : GzValue F32 F64) : setProperty zigInstance done.length value heap =
      written heap zigInstance done fields
        (setField (heap.allocates done.length) field value) := by
  rw [setProperty, hbox]
  have hfield : (done ++ field :: fields)[done.length]? = some field := by simp
  have hset : ∀ other, (done ++ field :: fields).set done.length other =
      done ++ other :: fields := by simp
  simp only [hfield, hset]
  cases setField (heap.allocates done.length) field value <;> rfl

/-! ### Copying between boxes -/

/-- The fields of a new box, from an index on, set to what the fields of an old one hold. -/
def copyBox (allocates : ℕ → Bool) : ℕ → Box F32 F64 → Box F32 F64 → Option (Box F32 F64)
  | index, source :: sources, target :: targets =>
    match setField (allocates index) target source.value with
    | none => none
    | some written => (copyBox allocates (index + 1) sources targets).map (written :: ·)
  | _, _, targets => some targets

section Copy

variable {live : LiveInstance module heap} {next : AdapterModule engine F32 F64}
  {nextInstance : ZigInstance}

/-- A loop ended as copying between boxes does, and put the copies behind the fields done before. -/
def EndsAs (copied : Option (Box F32 F64)) (nextInstance : ZigInstance) (allocates : ℕ → Bool)
    (done : Box F32 F64) (result : Bool × Heap F32 F64 × List (Call F32 F64)) : Prop :=
  result.1 = copied.isSome ∧ ∀ fields, copied = some fields →
    result.2.1.box nextInstance = some (done ++ fields) ∧ result.2.1.allocates = allocates

/-- Where each property has the same index in the next module, the loop copies box to box. -/
theorem copyFrom_boxes {properties : List (PropertyDescriptor F32 F64)} {start : ℕ}
    {memory : Heap F32 F64} {doneSources sources doneTargets targets : Box F32 F64}
    (hcommon : ∀ offset property, properties[offset]? = some property →
      commonIndex next.script property = some (start + offset))
    (hsources : memory.box live.zigInstance = some (doneSources ++ sources))
    (htargets : memory.box nextInstance = some (doneTargets ++ targets))
    (hapart : nextInstance ≠ live.zigInstance) (hdoneSources : doneSources.length = start)
    (hdoneTargets : doneTargets.length = start)
    (hsourcesLength : sources.length = properties.length)
    (htargetsLength : targets.length = properties.length) :
    EndsAs (copyBox memory.allocates start sources targets) nextInstance memory.allocates
      doneTargets (copyFrom live.data next.script nextInstance properties start memory) := by
  induction properties generalizing start memory doneSources sources doneTargets targets with
  | nil =>
    obtain rfl := List.length_eq_zero_iff.mp hsourcesLength
    obtain rfl := List.length_eq_zero_iff.mp htargetsLength
    refine ⟨rfl, fun copied hcopied ↦ ⟨?_, rfl⟩⟩
    obtain rfl := Option.some.inj hcopied
    exact htargets
  | cons property properties ih =>
    obtain ⟨source, sources, rfl⟩ := List.exists_cons_of_length_eq_add_one hsourcesLength
    obtain ⟨target, targets, rfl⟩ := List.exists_cons_of_length_eq_add_one htargetsLength
    have hindex : commonIndex next.script property = some start := hcommon 0 property rfl
    have hget : live.data.module.functions.getProperty live.data.zigInstance start memory =
        (some source.value, memory) := by
      rw [← hdoneSources]
      exact getProperty_eq hsources
    have hset : next.script.functions.setProperty nextInstance start source.value memory =
        written memory nextInstance doneTargets targets
          (setField (memory.allocates start) target source.value) := by
      rw [← hdoneTargets]
      exact setProperty_eq htargets source.value
    simp only [copyFrom, hindex, hget, hset, copyBox]
    cases hwritten : setField (memory.allocates start) target source.value with
    | none =>
      refine ⟨rfl, fun copied hcopied ↦ ?_⟩
      cases hcopied
    | some written =>
      have hwrite : (memory.write nextInstance (doneTargets ++ written :: targets)).box
          nextInstance = some (doneTargets ++ [written] ++ targets) := by
        rw [Heap.box_write_self htargets, List.append_assoc, List.singleton_append]
      have hkeep : (memory.write nextInstance (doneTargets ++ written :: targets)).box
          live.zigInstance = some (doneSources ++ [source] ++ sources) := by
        rw [Heap.box_write_other hapart, hsources, List.append_assoc, List.singleton_append]
      have hshift : ∀ offset property, properties[offset]? = some property →
          commonIndex next.script property = some (start + 1 + offset) := by
        intro offset property hproperty
        rw [Nat.add_assoc, Nat.add_comm 1 offset]
        exact hcommon (offset + 1) property hproperty
      have hrest : EndsAs (copyBox memory.allocates (start + 1) sources targets) nextInstance
          memory.allocates (doneTargets ++ [written])
          (copyFrom live.data next.script nextInstance properties (start + 1)
            (memory.write nextInstance (doneTargets ++ written :: targets))) :=
        ih hshift hkeep hwrite (by simp [hdoneSources]) (by simp [hdoneTargets])
          (Nat.succ.inj hsourcesLength) (Nat.succ.inj htargetsLength)
      refine ⟨?_, ?_⟩
      · rw [Option.isSome_map]
        exact hrest.1
      · intro fields hfields
        obtain ⟨rest, hcopied, rfl⟩ := Option.map_eq_some_iff.mp hfields
        have hbox := hrest.2 rest hcopied
        rwa [List.append_assoc, List.singleton_append] at hbox

end Copy

/-! ### Synchronising a box -/

/-- A field after the synchronisation of its property: null, if it holds an object of another class
and accepts null. -/
def syncField (engine : Engine Object) (allocated : Bool) (property : PropertyDescriptor F32 F64)
    (field : Field F32 F64) : Field F32 F64 :=
  if property.type = gzValueObject ∧
      incompatible isClass engine property (toVariant engine field.value).1 = true then
    (setField allocated field (.object 0)).getD field
  else field

def syncBox (engine : Engine Object) (allocates : ℕ → Bool) :
    ℕ → List (PropertyDescriptor F32 F64) → Box F32 F64 → Box F32 F64
  | index, property :: properties, field :: fields =>
    syncField isClass engine (allocates index) property field ::
      syncBox engine allocates (index + 1) properties fields
  | _, _, fields => fields

section Sync

variable {next : AdapterModule engine F32 F64} {data : InstanceData engine F32 F64 (Heap F32 F64)}
  {memory : Heap F32 F64} {done : Box F32 F64}

/-- The functions that an instance uses are the adapter's. -/
def UsesAdapter (data : InstanceData engine F32 F64 (Heap F32 F64)) : Prop :=
  data.module.functions.getProperty = getProperty ∧
    data.module.functions.setProperty = setProperty

theorem valid_toVariant (field : Field F32 F64) : (toVariant engine field.value).2 = true := by
  obtain ⟨type, held⟩ := field
  cases type with
  | optional godotClass =>
    cases held with
    | none => rfl
    | some owner => rfl
  | _ => rfl

theorem syncProperty_box (huses : UsesAdapter data) {start : ℕ} {field : Field F32 F64}
    {fields : Box F32 F64} (property : PropertyDescriptor F32 F64)
    (hbox : memory.box data.zigInstance = some (done ++ field :: fields))
    (hdone : done.length = start) (hnothing : NothingRetainedFrom data start) :
    (syncProperty isClass data start property memory).2.1.box data.zigInstance =
        some (done ++ syncField isClass engine (memory.allocates start) property field :: fields) ∧
      (syncProperty isClass data start property memory).2.1.allocates = memory.allocates := by
  have hget : data.module.functions.getProperty data.zigInstance start memory =
      (some field.value, memory) := by
    rw [huses.1, ← hdone]
    exact getProperty_eq hbox
  have hset : data.module.functions.setProperty data.zigInstance start (.object 0) memory =
      written memory data.zigInstance done fields
        (setField (memory.allocates start) field (.object 0)) := by
    rw [huses.2, ← hdone]
    exact setProperty_eq hbox (.object 0)
  have hzero : retainedId data start = 0 := by
    rw [retainedId, hnothing start (Nat.le_refl start)]
    rfl
  by_cases htype : property.type = gzValueObject
  · rw [syncProperty, if_neg (not_not_intro htype), hget]
    simp only [valid_toVariant, Bool.not_true, Bool.false_eq_true, if_false]
    by_cases hclass : incompatible isClass engine property (toVariant engine field.value).1 = true
    · rw [if_pos hclass, syncField, if_pos ⟨htype, hclass⟩, hzero]
      simp only [hset]
      cases setField (memory.allocates start) field (.object 0) with
      | none => exact ⟨hbox, rfl⟩
      | some written => exact ⟨Heap.box_write_self hbox _, rfl⟩
    · rw [if_neg hclass, syncField, if_neg fun h ↦ hclass h.2]
      exact ⟨hbox, rfl⟩
  · rw [syncProperty, if_pos htype, syncField, if_neg fun h ↦ htype h.1]
    exact ⟨hbox, rfl⟩

theorem syncFrom_box {properties : List (PropertyDescriptor F32 F64)} {start : ℕ}
    {fields : Box F32 F64} (huses : UsesAdapter data)
    (hbox : memory.box data.zigInstance = some (done ++ fields)) (hdone : done.length = start)
    (hlength : fields.length = properties.length) (hnothing : NothingRetainedFrom data start) :
    (syncFrom isClass properties start data memory).2.1.box data.zigInstance =
      some (done ++ syncBox isClass engine memory.allocates start properties fields) := by
  induction properties generalizing start data memory done fields with
  | nil =>
    obtain rfl := List.length_eq_zero_iff.mp hlength
    exact hbox
  | cons property properties ih =>
    obtain ⟨field, fields, rfl⟩ := List.exists_cons_of_length_eq_add_one hlength
    have hfirst := syncProperty_box isClass huses property hbox hdone hnothing
    have hpast := syncedPast_syncProperty isClass data start property memory
    simp only [syncFrom]
    generalize syncProperty isClass data start property memory = synced at hfirst hpast ⊢
    obtain ⟨between, after, calls⟩ := synced
    have hzig : between.zigInstance = data.zigInstance := hpast.zigInstance
    have hbetween : UsesAdapter between := by
      rw [UsesAdapter, hpast.module]
      exact huses
    have hlater : NothingRetainedFrom between (start + 1) := by
      intro other hother
      rw [hpast.later other hother]
      exact hnothing other (Nat.le_of_succ_le hother)
    have hafter : after.box between.zigInstance = some ((done ++
        [syncField isClass engine (memory.allocates start) property field]) ++ fields) := by
      rw [hzig, List.append_assoc, List.singleton_append]
      exact hfirst.1
    have hrest := ih hbetween hafter (by simp [hdone]) (Nat.succ.inj hlength) hlater
    rw [hzig, List.append_assoc, List.singleton_append, hfirst.2] at hrest
    exact hrest

end Sync

/-! ### Which fields keep their values -/

section Fields

variable {isClass} {allocated : Bool} {property : PropertyDescriptor F32 F64}

theorem setField_eq_some_iff {target written : Field F32 F64} {value : GzValue F32 F64} :
    setField allocated target value = some written ↔
      ∃ held, fromValue target.type value = some held ∧
        (isString target.type = true → allocated = true) ∧ written = ⟨target.type, held⟩ := by
  unfold setField
  split
  next hrefused => simp [hrefused]
  next held haccepted =>
    simp only [haccepted, Option.some.injEq]
    split_ifs with hstring
    · simp only [Bool.and_eq_true, Bool.not_eq_true'] at hstring
      simp [hstring.1, hstring.2]
    · simp only [Option.some.injEq, Bool.and_eq_true, Bool.not_eq_true', not_and,
        Bool.not_eq_false] at hstring ⊢
      constructor
      · rintro rfl
        exact ⟨held, rfl, hstring, rfl⟩
      · rintro ⟨other, rfl, -, rfl⟩
        rfl

theorem object_of_valueType {type : FieldType F32 F64} (htype : type.valueType = gzValueObject) :
    (∃ godotClass, type = .object godotClass) ∨ ∃ godotClass, type = .optional godotClass := by
  cases type with
  | object godotClass => exact Or.inl ⟨godotClass, rfl⟩
  | optional godotClass => exact Or.inr ⟨godotClass, rfl⟩
  | _ => simp [FieldType.valueType, gzValueObject] at htype

/-- The synchronisation changes only an optional field that holds an object of another class. -/
theorem syncField_cases {field : Field F32 F64} (hdescribes : Describes property field.type) :
    syncField isClass engine allocated property field = field ∨
      (∃ godotClass, field.type = .optional godotClass) ∧
        incompatible isClass engine property (toVariant engine field.value).1 = true ∧
          (syncField isClass engine allocated property field).value = .nil := by
  unfold syncField
  split_ifs with hreplaced
  · have hvalueType : field.type.valueType = gzValueObject := hdescribes.1.symm.trans hreplaced.1
    obtain ⟨type, held⟩ := field
    rcases object_of_valueType hvalueType with ⟨godotClass, rfl⟩ | ⟨godotClass, rfl⟩
    · exact Or.inl rfl
    · exact Or.inr ⟨⟨godotClass, rfl⟩, hreplaced.2, rfl⟩
  · exact Or.inl rfl

theorem syncField_optional {field : Field F32 F64} {godotClass : ByteString}
    (hdescribes : Describes property field.type) (htype : field.type = .optional godotClass)
    (hclass : incompatible isClass engine property (toVariant engine field.value).1 = true) :
    (syncField isClass engine allocated property field).value = .nil := by
  have hobject : property.type = gzValueObject := by
    rw [hdescribes.1, htype]
    rfl
  rw [syncField, if_pos ⟨hobject, hclass⟩]
  obtain ⟨type, held⟩ := field
  obtain rfl : type = .optional godotClass := htype
  rfl

/-- A field that is set to a value and synchronised reads as the value exactly if it keeps it. -/
theorem keeps_iff {target : Field F32 F64} (hdescribes : Describes property target.type)
    (value : GzValue F32 F64) :
    (∃ written, setField allocated target value = some written ∧
        (syncField isClass engine allocated property written).value = value) ↔
      Keeps isClass engine allocated property target.type value := by
  constructor
  · rintro ⟨written, hset, hread⟩
    obtain ⟨held, haccepted, hallocated, rfl⟩ := setField_eq_some_iff.mp hset
    have hcases : syncField isClass engine allocated property ⟨target.type, held⟩ =
        ⟨target.type, held⟩ ∨ (∃ godotClass, target.type = .optional godotClass) ∧
          incompatible isClass engine property (toVariant engine (toValue target.type held)).1 =
            true ∧ (syncField isClass engine allocated property ⟨target.type, held⟩).value = .nil :=
      syncField_cases hdescribes
    have hwritten : toValue target.type held = value := by
      rcases hcases with hsame | ⟨⟨godotClass, htype⟩, hclass, hnil⟩
      · rw [← hread, hsame]
        rfl
      · -- Null was read back, so null was set, and null is of every class.
        obtain ⟨type, old⟩ := target
        obtain rfl : type = .optional godotClass := htype
        obtain rfl : value = .nil := hread.symm.trans hnil
        obtain rfl := Option.some.inj haccepted
        exact absurd hclass Bool.false_ne_true
    refine ⟨(fromValue_toValue_iff target.type value).mp ?_, hallocated, ?_⟩
    · rw [haccepted, Option.map_some, hwritten]
    · intro godotClass htype
      by_contra hnot
      have hclass : incompatible isClass engine property
          (toVariant engine (toValue target.type held)).1 = true := by
        rw [hwritten]
        simpa using hnot
      have hnil : (syncField isClass engine allocated property ⟨target.type, held⟩).value = .nil :=
        syncField_optional hdescribes htype hclass
      rw [hwritten, ← hread, hnil] at hclass
      exact absurd hclass Bool.false_ne_true
  · rintro ⟨hrepresents, hallocated, hcompatible⟩
    obtain ⟨held, haccepted, hheld⟩ := Option.map_eq_some_iff.mp
      ((fromValue_toValue_iff target.type value).mpr hrepresents)
    refine ⟨⟨target.type, held⟩,
      setField_eq_some_iff.mpr ⟨held, haccepted, hallocated, rfl⟩, ?_⟩
    have hcases : syncField isClass engine allocated property ⟨target.type, held⟩ =
        ⟨target.type, held⟩ ∨ (∃ godotClass, target.type = .optional godotClass) ∧
          incompatible isClass engine property (toVariant engine (toValue target.type held)).1 =
            true ∧ (syncField isClass engine allocated property ⟨target.type, held⟩).value = .nil :=
      syncField_cases hdescribes
    rcases hcases with hsame | ⟨⟨godotClass, htype⟩, hclass, -⟩
    · rw [hsame]
      exact hheld
    · rw [hheld, hcompatible godotClass htype] at hclass
      exact absurd hclass Bool.false_ne_true

theorem length_copyBox {allocates : ℕ → Bool} {start : ℕ} {sources targets copied : Box F32 F64}
    (hcopied : copyBox allocates start sources targets = some copied) :
    copied.length = targets.length := by
  induction sources generalizing start targets copied with
  | nil =>
    obtain rfl := Option.some.inj hcopied
    rfl
  | cons source sources ih =>
    cases targets with
    | nil =>
      obtain rfl := Option.some.inj hcopied
      rfl
    | cons target targets =>
      rw [copyBox] at hcopied
      split at hcopied
      · cases hcopied
      next written hwritten =>
        obtain ⟨rest, hrest, rfl⟩ := Option.map_eq_some_iff.mp hcopied
        rw [List.length_cons, List.length_cons, ih hrest]

theorem length_syncBox (allocates : ℕ → Bool) (start : ℕ)
    (properties : List (PropertyDescriptor F32 F64)) (fields : Box F32 F64) :
    (syncBox isClass engine allocates start properties fields).length = fields.length := by
  induction properties generalizing start fields with
  | nil => rfl
  | cons property properties ih =>
    cases fields with
    | nil => rfl
    | cons field fields => rw [syncBox, List.length_cons, List.length_cons, ih]

/-- Boxes read the same after copying and synchronising exactly if every field keeps its value. -/
theorem boxes_keep_iff (allocates : ℕ → Bool) {start : ℕ}
    {properties : List (PropertyDescriptor F32 F64)} {sources targets : Box F32 F64}
    (hlength : sources.length = targets.length)
    (hdescribes : List.Forall₂ (fun property target ↦ Describes property target.type) properties
      targets) :
    (∃ copied, copyBox allocates start sources targets = some copied ∧
        (syncBox isClass engine allocates start properties copied).map Field.value =
          sources.map Field.value) ↔
      ∀ (offset : ℕ) (source target : Field F32 F64) (property : PropertyDescriptor F32 F64),
        sources[offset]? = some source → targets[offset]? = some target →
          properties[offset]? = some property →
            Keeps isClass engine (allocates (start + offset)) property target.type
              source.value := by
  induction hdescribes generalizing start sources with
  | nil =>
    obtain rfl := List.length_eq_zero_iff.mp hlength
    exact iff_of_true ⟨[], rfl, rfl⟩ fun offset source target property hsource ↦ nomatch hsource
  | @cons property target properties targets hfirst hrest ih =>
    obtain ⟨source, sources, rfl⟩ := List.exists_cons_of_length_eq_add_one hlength
    have hkeeps : (∃ written, setField (allocates start) target source.value = some written ∧
        (syncField isClass engine (allocates start) property written).value = source.value) ↔
          Keeps isClass engine (allocates start) property target.type source.value :=
      keeps_iff hfirst source.value
    have hrest := @ih (start + 1) sources (Nat.succ.inj hlength)
    constructor
    · rintro ⟨copied, hcopied, hread⟩
      rw [copyBox] at hcopied
      split at hcopied
      · cases hcopied
      next written hwritten =>
        obtain ⟨rest, hlater, rfl⟩ := Option.map_eq_some_iff.mp hcopied
        rw [syncBox, List.map_cons, List.map_cons, List.cons.injEq] at hread
        have hall := hrest.mp ⟨rest, hlater, hread.2⟩
        intro offset other field described hother hfield hproperty
        cases offset with
        | zero =>
          obtain rfl := Option.some.inj hother
          obtain rfl := Option.some.inj hfield
          obtain rfl := Option.some.inj hproperty
          exact hkeeps.mp ⟨written, hwritten, hread.1⟩
        | succ offset =>
          rw [Nat.add_comm offset 1, ← Nat.add_assoc]
          exact hall offset other field described hother hfield hproperty
    · intro hall
      obtain ⟨written, hwritten, hread⟩ := hkeeps.mpr (hall 0 source target property rfl rfl rfl)
      have hlater := hrest.mpr fun offset other field described hother hfield hproperty ↦ by
        rw [Nat.add_assoc, Nat.add_comm 1 offset]
        exact hall (offset + 1) other field described hother hfield hproperty
      obtain ⟨rest, hcopied, hreads⟩ := hlater
      refine ⟨written :: rest, ?_, ?_⟩
      · rw [copyBox, hwritten]
        simp only [hcopied, Option.map_some]
      · rw [syncBox, List.map_cons, List.map_cons, hread, hreads]

end Fields

/-! ### Reloading -/

section Reloading

variable {isClass} {equality : Equality Object F32 F64} {live : LiveInstance module heap}
  {next : AdapterModule engine F32 F64}

/-- Modules with the same exports have each property at one index. -/
theorem commonIndex_of_sameExports
    (hsame : hasSameExports engine equality (some module.loaded.script)
      (some next.loaded.script) = true) :
    ∀ index property, module.loaded.script.properties[index]? = some property →
      commonIndex next.script property = some index := by
  intro index property hproperty
  have hproperties := (sameExports_of_hasSameExports hsame).properties
  rcases getElem?_cases hproperties index with ⟨hnone, -⟩ | ⟨first, second, hfirst, hsecond, hequal⟩
  · rw [hnone] at hproperty
    cases hproperty
  · obtain rfl := Option.some.inj (hfirst.symm.trans hproperty)
    simp only [sameProperty, Bool.and_eq_true, decide_eq_true_eq, and_assoc] at hequal
    obtain ⟨htype, -, -, -, -, hname, -⟩ := hequal
    exact commonIndex_of_same hsecond (congrArg engine.ofUtf8 hname.symm) htype.symm

/-- Boxes of one length read the same at every index exactly if they read the same. -/
theorem reads_eq_iff {first second : Box F32 F64} {count : ℕ} (hfirst : first.length = count)
    (hsecond : second.length = count) :
    (∀ index < count, first[index]?.map Field.value = second[index]?.map Field.value) ↔
      first.map Field.value = second.map Field.value := by
  constructor
  · intro hreads
    refine List.ext_getElem? fun index ↦ ?_
    rw [List.getElem?_map, List.getElem?_map]
    by_cases hindex : index < count
    · exact hreads index hindex
    · rw [List.getElem?_eq_none (by omega), List.getElem?_eq_none (by omega)]
  · intro heq index _
    rw [← List.getElem?_map, ← List.getElem?_map, heq]

/-- The box of an instance that a heap has, after another one is destroyed. -/
theorem box_destroy_other {memory : Heap F32 F64} {zigInstance other : ZigInstance}
    (hne : zigInstance ≠ other) : (destroy zigInstance memory).box other = memory.box other := by
  rw [Heap.box, destroy, List.getElem?_set_ne hne]
  rfl

theorem getProperty_of_box {memory : Heap F32 F64} {zigInstance : ZigInstance}
    {fields : Box F32 F64} (hbox : memory.box zigInstance = some fields) (index : ℕ) :
    (getProperty zigInstance index memory).1 = fields[index]?.map Field.value := by
  rw [getProperty, hbox]
  rfl

/-- The new instance is put behind all boxes, so the old one keeps its box. -/
theorem create_eq {fresh : Box F32 F64} (hinit : next.init live.owner = some fresh) :
    ∃ memory, next.script.functions.createInstance live.data.owner heap =
        (some heap.boxes.length, memory) ∧ memory.box heap.boxes.length = some fresh ∧
      memory.box live.zigInstance = some live.fields ∧ heap.boxes.length ≠ live.zigInstance ∧
        memory.allocates = heap.allocates := by
  have hlt : live.zigInstance < heap.boxes.length := by
    by_contra hle
    have hnone : heap.box live.zigInstance = none := by
      rw [Heap.box, List.getElem?_eq_none (Nat.le_of_not_lt hle)]
      rfl
    rw [live.box_eq] at hnone
    cases hnone
  refine ⟨{ heap with boxes := heap.boxes ++ [some fresh] }, ?_, ?_, ?_, Nat.ne_of_gt hlt, rfl⟩
  · change create next.init live.owner heap = _
    rw [create, hinit]
  · rw [Heap.box, List.getElem?_concat_length]
    rfl
  · have hbox := live.box_eq
    rw [Heap.box] at hbox ⊢
    rwa [List.getElem?_append_left hlt]

variable (isClass) in
/-- What the migrated instance reads, once the old one is destroyed, is its box synchronised. -/
theorem getProperty_synced (previous : InstanceData engine F32 F64 (Heap F32 F64))
    {memory : Heap F32 F64} {nextInstance zigInstance : ZigInstance} {copied : Box F32 F64}
    (hbox : memory.box nextInstance = some copied) (hapart : zigInstance ≠ nextInstance)
    (hlength : copied.length = next.loaded.script.properties.length) (index : ℕ) :
    ((syncRetainedObjects isClass (freshData previous next.script nextInstance)
        memory).1.module.functions.getProperty
      (syncRetainedObjects isClass (freshData previous next.script nextInstance)
        memory).1.zigInstance index
      (destroy zigInstance (syncRetainedObjects isClass
        (freshData previous next.script nextInstance) memory).2.1)).1 =
      (syncBox isClass engine memory.allocates 0 next.loaded.script.properties
        copied)[index]?.map Field.value := by
  have hnothing := nothingRetained_freshData previous next.script nextInstance
  have hsynced := syncedFrom_syncFrom isClass next.loaded.script.properties 0
    (freshData previous next.script nextInstance) memory hnothing
  have huses : UsesAdapter (freshData previous next.script nextInstance) := ⟨rfl, rfl⟩
  have hfields : memory.box nextInstance = some ([] ++ copied) := hbox
  have hsync := syncFrom_box isClass huses hfields rfl hlength hnothing
  have hproperties : (freshData previous next.script nextInstance).module.properties =
      next.loaded.script.properties := rfl
  simp only [syncRetainedObjects, hproperties]
  generalize syncFrom isClass next.loaded.script.properties 0
    (freshData previous next.script nextInstance) memory = synced at hsynced hsync
  obtain ⟨migrated, last, syncs⟩ := synced
  have hmodule : migrated.module = next.script := hsynced.module
  have hzig : migrated.zigInstance = nextInstance := hsynced.zigInstance
  have hlast : (destroy zigInstance last).box nextInstance = some (syncBox isClass engine
      memory.allocates 0 next.loaded.script.properties copied) := by
    rw [box_destroy_other hapart]
    exact hsync
  rw [hmodule, hzig]
  exact getProperty_of_box hlast index

variable (isClass) in
/-- The next instance reads like the previous one exactly if the synchronised box has its values. -/
theorem reads_synced_iff {memory : Heap F32 F64} {nextInstance : ZigInstance}
    {copied : Box F32 F64} {count : ℕ} (hbox : memory.box nextInstance = some copied)
    (hapart : live.zigInstance ≠ nextInstance)
    (hlength : copied.length = next.loaded.script.properties.length)
    (hcopied : copied.length = count) (hfields : live.fields.length = count) :
    (∀ index < count,
      ((syncRetainedObjects isClass (freshData live.data next.script nextInstance)
          memory).1.module.functions.getProperty
        (syncRetainedObjects isClass (freshData live.data next.script nextInstance)
          memory).1.zigInstance index
        (destroy live.zigInstance (syncRetainedObjects isClass
          (freshData live.data next.script nextInstance) memory).2.1)).1 =
      (live.data.module.functions.getProperty live.data.zigInstance index heap).1) ↔
      (syncBox isClass engine memory.allocates 0 next.loaded.script.properties copied).map
        Field.value = live.fields.map Field.value := by
  have hcount : (syncBox isClass engine memory.allocates 0 next.loaded.script.properties
      copied).length = count := by
    rw [length_syncBox, hcopied]
  rw [← reads_eq_iff hcount hfields]
  refine forall₂_congr fun index _ ↦ ?_
  have hbefore : (live.data.module.functions.getProperty live.data.zigInstance index heap).1 =
      live.fields[index]?.map Field.value := getProperty_of_box live.box_eq index
  rw [getProperty_synced isClass live.data hbox hapart hlength, hbefore]

/-- Reloading copies and synchronises the fields of the instance, box to box. -/
theorem keepsState_iff_boxes {fresh : Box F32 F64}
    (hsame : hasSameExports engine equality (some module.loaded.script)
      (some next.loaded.script) = true) (hinit : next.init live.owner = some fresh)
    (hfields : live.fields.length = module.loaded.script.properties.length)
    (hfresh : fresh.length = module.loaded.script.properties.length) :
    KeepsState isClass live next ↔
      ∃ copied, copyBox heap.allocates 0 live.fields fresh = some copied ∧
        (syncBox isClass engine heap.allocates 0 next.loaded.script.properties copied).map
          Field.value = live.fields.map Field.value := by
  obtain ⟨memory, hcreate, hnew, hold, hapart, hallocates⟩ := create_eq hinit
  have hcommon : ∀ offset property, module.loaded.script.properties[offset]? = some property →
      commonIndex next.script property = some (0 + offset) := by
    intro offset property hproperty
    rw [Nat.zero_add]
    exact commonIndex_of_sameExports hsame offset property hproperty
  have hsources : memory.box live.zigInstance = some ([] ++ live.fields) := hold
  have htargets : memory.box heap.boxes.length = some ([] ++ fresh) := hnew
  have hcopy : EndsAs (copyBox memory.allocates 0 live.fields fresh) heap.boxes.length
      memory.allocates [] (copyFrom live.data next.script heap.boxes.length
        module.loaded.script.properties 0 memory) :=
    copyFrom_boxes hcommon hsources htargets hapart rfl rfl hfields hfresh
  have hlive : live.data.module.properties = module.loaded.script.properties := rfl
  rw [hallocates] at hcopy
  unfold KeepsState migrateEditorInstance
  simp only [hcreate, hlive]
  generalize copyFrom live.data next.script heap.boxes.length module.loaded.script.properties 0
    memory = result at hcopy
  obtain ⟨ran, after, copies⟩ := result
  obtain ⟨hran, hcopied⟩ := hcopy
  cases ran with
  | false =>
    refine iff_of_false (fun h ↦ absurd h.1 Bool.false_ne_true) ?_
    rintro ⟨copied, hsome, -⟩
    rw [hsome] at hran
    exact absurd hran Bool.false_ne_true
  | true =>
    obtain ⟨copied, hsome⟩ := Option.isSome_iff_exists.mp hran.symm
    obtain ⟨hended, hafter⟩ := hcopied copied hsome
    have hlength : copied.length = module.loaded.script.properties.length :=
      (length_copyBox hsome).trans hfresh
    have hnextLength : copied.length = next.loaded.script.properties.length :=
      hlength.trans (sameExports_of_hasSameExports hsame).properties.length_eq
    have hreads := reads_synced_iff isClass hended hapart.symm hnextLength hlength hfields
    rw [hafter] at hreads
    refine (and_iff_right rfl).trans (hreads.trans ?_)
    constructor
    · exact fun hvalues ↦ ⟨copied, hsome, hvalues⟩
    · rintro ⟨other, hother, hvalues⟩
      obtain rfl := Option.some.inj (hsome.symm.trans hother)
      exact hvalues

/-- The state of an instance is kept exactly if every field of the next module keeps the value that
the instance's field holds. -/
theorem keepsState_iff {fresh : Box F32 F64}
    (hsame : hasSameExports engine equality (some module.loaded.script)
      (some next.loaded.script) = true) (hinit : next.init live.owner = some fresh) :
    KeepsState isClass live next ↔
      ∀ (index : ℕ) (field : Field F32 F64) (type : FieldType F32 F64)
        (property : PropertyDescriptor F32 F64),
        live.fields[index]? = some field → next.types[index]? = some type →
          next.loaded.script.properties[index]? = some property →
            Keeps isClass engine (heap.allocates index) property type field.value := by
  have hcommon := commonIndex_of_sameExports hsame
  have hproperties := (sameExports_of_hasSameExports hsame).properties.length_eq
  have htypes := next.init_types live.owner fresh hinit
  have hdescribes : List.Forall₂ (fun property target ↦ Describes property target.type)
      next.loaded.script.properties fresh := by
    have hdescribed := next.described
    rwa [← htypes, List.forall₂_map_right_iff] at hdescribed
  have hfields : live.fields.length = module.loaded.script.properties.length := by
    rw [module.described.length_eq, ← live.fields_types, List.length_map]
  have hfresh : fresh.length = module.loaded.script.properties.length := by
    rw [hproperties, hdescribes.length_eq]
  rw [keepsState_iff_boxes hsame hinit hfields hfresh,
    boxes_keep_iff heap.allocates (hfields.trans hfresh.symm) hdescribes]
  simp only [Nat.zero_add, ← htypes, List.getElem?_map]
  constructor
  · intro hall index field type property hfield htype hproperty
    obtain ⟨target, htarget, rfl⟩ := Option.map_eq_some_iff.mp htype
    exact hall index field target property hfield htarget hproperty
  · intro hall index source target property hsource htarget hproperty
    exact hall index source target.type property hsource (by rw [htarget]; rfl) hproperty

end Reloading

/-! ### Modules of one property -/

/-- A module whose property `a` is a field of a type, with a default. -/
def soleModule (type : FieldType Empty ℕ) (held : type.Carrier) :
    AdapterModule soleEngine Empty ℕ where
  loaded :=
    { script :=
        { baseClass := [78]
          properties := [
            { name := [97]
              type := type.valueType
              hint := 0
              hintString := []
              className := type.objectClassName
              rangeMin := 0
              rangeMax := 0
              rangeStep := 0
              defaultValue := toValue type held }]
          inspectorEntries := [⟨inspectorEntryProperty, 0, [], []⟩] }
      namesDistinct := List.pairwise_singleton _ _ }
  types := [type]
  described := .cons ⟨rfl, rfl⟩ .nil
  init := fun _ ↦ some [⟨type, held⟩]
  init_types := by
    rintro owner box hbox
    obtain rfl := Option.some.inj hbox
    rfl

/-- Memory in which an instance of the module holds a value. -/
def soleHeap (type : FieldType Empty ℕ) (held : type.Carrier) : Heap Empty ℕ where
  boxes := [some [⟨type, held⟩]]
  allocates := fun _ ↦ true

def soleInstance (type : FieldType Empty ℕ) (default held : type.Carrier) :
    LiveInstance (soleModule type default) (soleHeap type held) where
  owner := 9
  zigInstance := 0
  retainedObjects := [.nil]
  fields := [⟨type, held⟩]
  box_eq := rfl
  fields_types := rfl

/-- Equality of integers and objects. -/
def soleEquality : Equality Unit Empty ℕ where
  double := fun first second ↦ first = second
  variant
    | .int first, .int second => first = second
    | .object first, .object second => first = second
    | _, _ => false

/-- The same script with a null object is not migrated, and neither is an integer that the new type
of its field does not hold. -/
theorem reload_loses_state :
    (hasSameExports soleEngine soleEquality
        (some (soleModule (.object [66]) 0).loaded.script)
        (some (soleModule (.object [66]) 0).loaded.script) = true ∧
      ¬ KeepsState (fun _ _ ↦ true) (soleInstance (.object [66]) 0 0)
        (soleModule (.object [66]) 0)) ∧
    (hasSameExports soleEngine soleEquality
        (some (soleModule (.int .i64) ⟨0, by decide⟩).loaded.script)
        (some (soleModule (.int .u8) ⟨0, by decide⟩).loaded.script) = true ∧
      ¬ KeepsState (fun _ _ ↦ true)
        (soleInstance (.int .i64) ⟨0, by decide⟩ ⟨300, by decide⟩)
        (soleModule (.int .u8) ⟨0, by decide⟩)) := by
  refine ⟨⟨by decide +kernel, fun hkeeps ↦ ?_⟩, by decide +kernel, fun hkeeps ↦ ?_⟩
  · exact absurd hkeeps.1 (by decide +kernel)
  · exact absurd hkeeps.1 (by decide +kernel)

/-- An integer is kept by a module with the same type. -/
theorem keepsState_int :
    KeepsState (fun _ _ ↦ true)
      (soleInstance (.int .i64) ⟨0, by decide⟩ ⟨300, by decide⟩)
      (soleModule (.int .i64) ⟨0, by decide⟩) := by
  have hsame : hasSameExports soleEngine soleEquality
      (some (soleModule (.int .i64) ⟨0, by decide⟩).loaded.script)
      (some (soleModule (.int .i64) ⟨0, by decide⟩).loaded.script) = true := by
    decide +kernel
  refine (keepsState_iff hsame rfl).mpr fun index field type property hfield htype hproperty ↦ ?_
  cases index with
  | zero =>
    obtain rfl := Option.some.inj hfield
    obtain rfl := Option.some.inj htype
    refine ⟨?_, fun hstring ↦ absurd hstring Bool.false_ne_true, fun godotClass h ↦ nomatch h⟩
    exact (by decide : IntType.i64.Holds 300)
  | succ index => exact absurd hfield (Option.some_ne_none field).symm

end Gzscript.Script.Reload
