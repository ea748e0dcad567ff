import Gzscript.Abi.OwnedStrings
import Gzscript.Abi.PropertyTable

/-!
# The properties of an instance, by name

The engine sets and reads the exported properties of an instance by name. `instanceSet` and
`instanceGet` go the whole way: from the name to an index by the tables of the loaded module, from
the engine's value to one of the ABI, and to the field of the script, which converts the value to
its type and keeps a string in a copy of its own.

What this amounts to is a store: a name that is exported has a value, and a request that is accepted
replaces it by what a field of its type makes of the engine's value (`settled`), and nothing else.
`run_refines_store` says so of every run of requests, from any instance whose strings are not
shared. `instanceGet_instanceSet_iff` says when the engine reads back the value that it set.
-/

set_option autoImplicit false
set_option relaxedAutoImplicit false

namespace Gzscript.Abi.InstanceProperties

open Library.Bytes Library.Blocks Value ValueCodec FieldCodec CodecOutcomes
open RawDescriptor Adapter AdapterLoad PropertyAccess OwnedStrings PropertyTable

variable {Object F32 F64 Dictionary : Type} {script : Script F32 F64}

/-! ### The source -/

/-- `GZ_VALUE_OBJECT`. -/
def gzValueObject : UInt32 := 6

/-- An instance: the script's object, and what is retained for each of its properties. -/
structure InstanceData (Object : Type) (script : Script F32 F64) where
  box : Box script
  retainedObjects : ℕ → Variant Object F32 F64

/-- A value that the engine sets a property to, with what it knows of its objects then. -/
structure Request (Object F32 F64 : Type) where
  engine : Engine Object
  isClass : Object → String → Bool
  name : String
  incoming : Variant Object F32 F64

/-- The value is nil, or an object of the class. -/
def Request.fits (request : Request Object F32 F64) (className : ByteString) : Bool :=
  match request.incoming with
  | .nil => true
  | .object (some object) =>
    let expected := request.engine.ofUtf8 className
    expected == "" || request.isClass object expected
  | _ => false

/-- Whether the property was set, and the instance afterwards. Nothing is returned where decoding
ends in an illegal cast, or outside the table of properties. -/
def instanceSet (allocator : Allocator UInt8) (descriptor : RawScriptDescriptor F32 F64)
    (tables : Tables Object F32 F64 Dictionary) (data : InstanceData Object script)
    (request : Request Object F32 F64) : Option (Bool × InstanceData Object script) :=
  let index := findProperty tables request.name
  if index.toInt < 0 then some (false, data)
  else
    match descriptor.properties.list[index.toUInt32.toNat]? with
    | none => none
    | some property =>
      if property.type = gzValueObject ∧ request.fits property.className.slice = false then
        some (false, data)
      else
        let (converted, valid) := fromVariant request.engine request.incoming true
        if valid = false then some (false, data)
        else
          match setProperty allocator (some data.box) index.toUInt32 converted with
          | none => none
          | some (.ok, some after) =>
            some (true,
              { box := after
                retainedObjects :=
                  if property.type = gzValueObject then
                    Function.update data.retainedObjects index.toUInt32.toNat request.incoming
                  else data.retainedObjects })
          | some _ => some (false, data)

/-- What is returned, and what is written to the result. Nothing is returned where memory is read
that is not in use. -/
def instanceGet (engine : Engine Object) (tables : Tables Object F32 F64 Dictionary)
    (data : InstanceData Object script) (name : String) :
    Option (Bool × Option (Variant Object F32 F64)) :=
  let index := findProperty tables name
  if index.toInt < 0 then some (false, none)
  else
    match getProperty (some data.box) index.toUInt32 with
    | .error _ => some (false, none)
    | .ok none => none
    | .ok (some value) =>
      let (result, valid) := toVariant engine value
      some (valid, some result)

/-- The requests one after the other. -/
def run (allocator : Allocator UInt8) (descriptor : RawScriptDescriptor F32 F64)
    (tables : Tables Object F32 F64 Dictionary) (data : InstanceData Object script) :
    List (Request Object F32 F64) → Option (List Bool × InstanceData Object script)
  | [] => some ([], data)
  | request :: requests =>
    match instanceSet allocator descriptor tables data request with
    | none => none
    | some (accepted, next) =>
      (run allocator descriptor tables next requests).map fun (results, after) ↦
        (accepted :: results, after)

/-! ### The store -/

/-- The index of the exported field with a name. -/
def indexNamed (engine : Engine Object) (script : Script F32 F64) (name : String) : Option ℕ :=
  (exported script).findIdx? fun field ↦ decide (engine.ofUtf8 field.1 = name)

/-- The type of the exported field with a name. -/
def typeNamed (engine : Engine Object) (script : Script F32 F64) (name : String) :
    Option (FieldType F32 F64) :=
  (indexNamed engine script name).bind fun index ↦
    (exported script)[index]?.bind fun field ↦ fieldType script field.1

/-- What the names of the exports stand for: their values, and the objects that are retained. -/
structure Store (Object F32 F64 : Type) where
  value : String → Option (GzValue F32 F64)
  retained : String → Option (Variant Object F32 F64)

/-- What an instance exposes by name. -/
def exposed (engine : Engine Object) (data : InstanceData Object script) :
    Store Object F32 F64 where
  value name := (indexNamed engine script name).bind fun index ↦
    (exported script)[index]?.bind fun field ↦ data.box.value field.1
  retained name := (indexNamed engine script name).map data.retainedObjects

/-- What a property of a type holds after the request, if it is of a kind that the type takes. -/
def settled (type : FieldType F32 F64) (request : Request Object F32 F64) :
    Option (GzValue F32 F64) :=
  if type.valueType = gzValueObject ∧ request.fits type.objectClassName = false then none
  else
    let (converted, valid) := fromVariant request.engine request.incoming true
    if valid = false then none else (fromValue type converted).map (toValue type)

/-- The request sets an enum open to further tags to an integer outside of its type. -/
def Illegal (engine : Engine Object) (script : Script F32 F64)
    (request : Request Object F32 F64) : Prop :=
  ∃ type, typeNamed engine script request.name = some type ∧
    OutsideOpenEnum type (fromVariant request.engine request.incoming true).1

/-- The store after a request that was accepted. -/
def Store.accept (store : Store Object F32 F64) (engine : Engine Object)
    (script : Script F32 F64) (request : Request Object F32 F64) : Store Object F32 F64 :=
  match typeNamed engine script request.name with
  | none => store
  | some type =>
    { value := Function.update store.value request.name (settled type request)
      retained :=
        if type.valueType = gzValueObject then
          Function.update store.retained request.name (some request.incoming)
        else store.retained }

/-- The store after some requests, with what became of each. -/
def Store.acceptAll (engine : Engine Object) (script : Script F32 F64) :
    Store Object F32 F64 → List (Request Object F32 F64 × Bool) → Store Object F32 F64
  | store, [] => store
  | store, (request, accepted) :: rest =>
    acceptAll engine script (if accepted then store.accept engine script request else store) rest

/-- A request is accepted only for an exported property of a type that takes the value. One that is
refused although the type takes it is for a string that no memory is left for. -/
def Answers (allocator : Allocator UInt8) (memory : Memory UInt8) (engine : Engine Object)
    (script : Script F32 F64) (request : Request Object F32 F64) (accepted : Bool) : Prop :=
  if accepted then
    ∃ type value, typeNamed engine script request.name = some type ∧
      settled type request = some value
  else
    ∀ type value, typeNamed engine script request.name = some type →
      settled type request = some value →
        ∃ text, value = .string text ∧ allocator memory text.length = none

/-- Each of the requests is answered, with the memory that is left when it is made. -/
def Answered (allocator : Allocator UInt8) (descriptor : RawScriptDescriptor F32 F64)
    (tables : Tables Object F32 F64 Dictionary) (engine : Engine Object) :
    InstanceData Object script → List (Request Object F32 F64) → List Bool → Prop
  | _, [], [] => True
  | data, request :: requests, accepted :: results =>
    Answers allocator data.box.memory engine script request accepted ∧
      ∃ next, instanceSet allocator descriptor tables data request = some (accepted, next) ∧
        Answered allocator descriptor tables engine next requests results
  | _, _, _ => False

/-- What is read by name. -/
def Store.read (store : Store Object F32 F64) (engine : Engine Object) (name : String) :
    Bool × Option (Variant Object F32 F64) :=
  match store.value name with
  | none => (false, none)
  | some value =>
    let (result, valid) := toVariant engine value
    (valid, some result)

/-! ### Names and indices -/

/-- The script was compiled and its library loaded, and these are the module's tables. -/
structure Loaded (engine : Engine Object) (num : F64 → String)
    (toDictionary : Inspector.PropertyInfo → Dictionary) (zero : F64) (script : Script F32 F64)
    (descriptor : RawScriptDescriptor F32 F64) (tables : Tables Object F32 F64 Dictionary) :
    Prop where
  compiled : compile zero script = .ok descriptor
  loaded : ∃ module closed,
    Load.load engine (compiledLibrary descriptor) = (.ok module, closed)
  tables : buildTables engine num toDictionary descriptor = .ok tables

section Names

variable {engine : Engine Object} {num : F64 → String}
  {toDictionary : Inspector.PropertyInfo → Dictionary} {zero : F64}
  {descriptor : RawScriptDescriptor F32 F64} {tables : Tables Object F32 F64 Dictionary}

theorem Loaded.accepted (h : Loaded engine num toDictionary zero script descriptor tables) :
    (compiledLibrary descriptor).accepted = .ok descriptor := by
  obtain ⟨module, closed, hload⟩ := h.loaded
  cases herror : descriptorError descriptor with
  | none =>
    simp only [Load.ScriptLibrary.accepted, compiledLibrary, herror]
    rfl
  | some message =>
    have hrefused : (compiledLibrary descriptor).accepted = .error message := by
      simp only [Load.ScriptLibrary.accepted, compiledLibrary, herror]
      rfl
    rw [Load.load_eq, hrefused] at hload
    cases hload

theorem Loaded.coherent (h : Loaded engine num toDictionary zero script descriptor tables) :
    Coherent engine num toDictionary descriptor tables := by
  obtain ⟨module, closed, hload⟩ := h.loaded
  have hdistinct : (propertyNames engine descriptor).Nodup := by
    obtain ⟨-, -, -, hdistinct⟩ | ⟨message, herror, -⟩ := Load.load_accepted engine h.accepted
    · exact hdistinct
    · rw [herror] at hload
      cases hload
  have hmeets : Library.Fallible.Meets _ _ (buildTables engine num toDictionary descriptor) :=
    buildTables_meets (accepted_of_descriptorError (descriptorError_of_accepted h.accepted))
  rw [h.tables] at hmeets
  exact hmeets hdistinct

theorem exists_of_indexNamed {name : String} {index : ℕ}
    (hindex : indexNamed engine script name = some index) :
    ∃ field, (exported script)[index]? = some field ∧ engine.ofUtf8 field.1 = name := by
  obtain ⟨hlt, hname, -⟩ := List.findIdx?_eq_some_iff_getElem.mp hindex
  exact ⟨_, List.getElem?_eq_getElem hlt, of_decide_eq_true hname⟩

/-- What the tables and the descriptor have for a name that is exported. -/
structure Found (script : Script F32 F64) (descriptor : RawScriptDescriptor F32 F64)
    (tables : Tables Object F32 F64 Dictionary) (name : String) (index : ℕ)
    (field : ByteString × Property F64) (type : FieldType F32 F64) : Prop where
  exported : (exported script)[index]? = some field
  typed : fieldType script field.1 = some type
  found : (findProperty tables name).toInt = index
  place : (findProperty tables name).toUInt32.toNat = index
  described : ∃ property, descriptor.properties.list[index]? = some property ∧
    property.type = type.valueType ∧ property.className.slice = type.objectClassName

theorem toNat_of_toInt {index : Int32} {n : ℕ} (hindex : index.toInt = n) :
    index.toUInt32.toNat = n := by
  have hbits : index.toBitVec.toInt = n := hindex
  rw [BitVec.toInt_eq_toNat_cond] at hbits
  have hlt := index.toBitVec.isLt
  show index.toBitVec.toNat = n
  split_ifs at hbits <;> omega

theorem Loaded.exists_found (h : Loaded engine num toDictionary zero script descriptor tables)
    {name : String} {index : ℕ} (hindex : indexNamed engine script name = some index) :
    ∃ field type, Found script descriptor tables name index field type := by
  obtain ⟨field, hfield, hname⟩ := exists_of_indexNamed hindex
  have hbuilt := builtFrom_buildProperties (compiledFrom_of_compile h.compiled).properties
  obtain ⟨property, hproperty, hfrom⟩ := exists_of_forall₂ hbuilt hfield
  obtain ⟨-, type, default, htype, rfl⟩ := propertyDescriptor_ok hfrom
  have hfound : (findProperty tables name).toInt = index := by
    rw [← hname]
    exact h.coherent.found index _ hproperty
  exact ⟨field, type, hfield, htype, hfound, toNat_of_toInt hfound, _, hproperty, rfl, rfl⟩

/-- A name that is not exported is not found. -/
theorem Loaded.not_found (h : Loaded engine num toDictionary zero script descriptor tables)
    {name : String} (hindex : indexNamed engine script name = none) :
    findProperty tables name = -1 := by
  refine h.coherent.notFound name fun property hproperty hname ↦ ?_
  have hmem : name ∈ propertyNames engine descriptor :=
    List.mem_map.mpr ⟨property, hproperty, hname⟩
  rw [propertyNames_compiled engine (compiledFrom_of_compile h.compiled)] at hmem
  obtain ⟨field, hfield, hsame⟩ := List.mem_map.mp hmem
  have hnone := List.findIdx?_eq_none_iff.mp hindex field hfield
  rw [hsame, decide_eq_false_iff_not] at hnone
  exact hnone rfl

end Names

/-! ### One request -/

section Request

variable {allocator : Allocator UInt8} {descriptor : RawScriptDescriptor F32 F64}
  {tables : Tables Object F32 F64 Dictionary} {data after : InstanceData Object script}
  {request : Request Object F32 F64} {index : ℕ} {field : ByteString × Property F64}
  {type : FieldType F32 F64}

/-- The outcome of a request for an exported field. -/
def setFound (allocator : Allocator UInt8) (data : InstanceData Object script)
    (request : Request Object F32 F64) (index : ℕ) (name : ByteString)
    (type : FieldType F32 F64) : Option (Bool × InstanceData Object script) :=
  if type.valueType = gzValueObject ∧ request.fits type.objectClassName = false then
    some (false, data)
  else
    let (converted, valid) := fromVariant request.engine request.incoming true
    if valid = false then some (false, data)
    else
      match setField allocator data.box name index converted with
      | none => none
      | some (.ok, after) =>
        some (true,
          { box := after
            retainedObjects :=
              if type.valueType = gzValueObject then
                Function.update data.retainedObjects index request.incoming
              else data.retainedObjects })
      | some _ => some (false, data)

theorem instanceSet_found
    (h : Found script descriptor tables request.name index field type) :
    instanceSet allocator descriptor tables data request =
      setFound allocator data request index field.1 type := by
  obtain ⟨property, hproperty, htype, hclass⟩ := h.described
  have hfield : fieldAt script (findProperty tables request.name).toUInt32 = some field := by
    rw [fieldAt, h.place]
    exact h.exported
  have hindex : ¬ (findProperty tables request.name).toInt < 0 := by
    rw [h.found]
    omega
  unfold instanceSet setFound
  simp only [if_neg hindex, h.place, hproperty, htype, hclass, setProperty_eq allocator _ hfield]
  split
  · rfl
  split
  · rfl
  cases setField allocator data.box field.1 index
      (fromVariant request.engine request.incoming true).1
    with
  | none => rfl
  | some result =>
    obtain ⟨status, next⟩ := result
    cases status <;> rfl

theorem instanceSet_not_found (h : findProperty tables request.name = -1) :
    instanceSet allocator descriptor tables data request = some (false, data) := by
  unfold instanceSet
  rw [h]
  rfl

theorem setField_typed (box : Box script) {name : ByteString}
    (htype : fieldType script name = some type) (value : GzValue F32 F64) :
    setField allocator box name index value =
      match decode type value with
      | .illegalCast => none
      | .error _ => some (.typeMismatch, box)
      | .value converted => some (replaceField allocator box name index type htype converted) := by
  unfold setField
  split
  next hnone =>
    rw [hnone] at htype
    cases htype
  next found hfound =>
    obtain rfl := Option.some.inj (hfound.symm.trans htype)
    rfl

theorem toValue_of_text {converted : type.Carrier} {text : ByteString}
    (htext : text? type converted = some text) : toValue type converted = .string text := by
  cases type with
  | string =>
    obtain rfl : converted = text := Option.some.inj htext
    rfl
  | _ => cases htext

theorem dupe_eq_none {memory : Memory UInt8} {text : ByteString}
    (hdupe : dupe allocator memory text = none) : allocator memory text.length = none := by
  cases text with
  | nil => cases hdupe
  | cons first rest =>
    rw [dupe] at hdupe
    split at hdupe
    next hnone => exact hnone
    next => cases hdupe

/-- A field is set to a value of its type unless there is no memory for a text. -/
theorem replaceField_cases (allocator : Allocator UInt8) (box : Box script) {name : ByteString}
    (index : ℕ) (htype : fieldType script name = some type) (converted : type.Carrier) :
    (∃ next, replaceField allocator box name index type htype converted = (.ok, next)) ∨
      replaceField allocator box name index type htype converted = (.outOfMemory, box) ∧
        ∃ text, toValue type converted = .string text ∧
          allocator box.memory text.length = none := by
  unfold replaceField
  split
  next => exact .inl ⟨_, rfl⟩
  next text htext =>
    split
    next hreplace =>
      refine .inr ⟨rfl, text, toValue_of_text htext, ?_⟩
      rw [replace] at hreplace
      split at hreplace
      next hdupe => exact dupe_eq_none hdupe
      next => split at hreplace <;> cases hreplace
    next => exact .inl ⟨_, rfl⟩

/-- The instance after a request for an exported field was accepted. -/
def accepted (data : InstanceData Object script) (request : Request Object F32 F64) (index : ℕ)
    (type : FieldType F32 F64) (box : Box script) : InstanceData Object script where
  box := box
  retainedObjects :=
    if type.valueType = gzValueObject then
      Function.update data.retainedObjects index request.incoming
    else data.retainedObjects

/-- What becomes of a request for an exported field. -/
theorem setFound_cases (allocator : Allocator UInt8) (data : InstanceData Object script)
    (request : Request Object F32 F64) (index : ℕ)
    {name : ByteString} (htype : fieldType script name = some type) :
    (setFound allocator data request index name type = none ∧
        OutsideOpenEnum type (fromVariant request.engine request.incoming true).1) ∨
      (setFound allocator data request index name type = some (false, data) ∧
        ∀ value, settled type request = some value →
          ∃ text, value = .string text ∧ allocator data.box.memory text.length = none) ∨
      ∃ converted box, settled type request = some (toValue type converted) ∧
        replaceField allocator data.box name index type htype converted = (.ok, box) ∧
        setFound allocator data request index name type =
          some (true, accepted data request index type box) := by
  unfold setFound settled
  by_cases hfits : type.valueType = gzValueObject ∧ request.fits type.objectClassName = false
  · simp only [if_pos hfits]
    exact .inr (.inl ⟨trivial, fun value hvalue ↦ by cases hvalue⟩)
  simp only [if_neg hfits]
  by_cases hvalid : (fromVariant request.engine request.incoming true).2 = false
  · simp only [if_pos hvalid]
    exact .inr (.inl ⟨trivial, fun value hvalue ↦ by cases hvalue⟩)
  simp only [if_neg hvalid, setField_typed data.box htype, ← result?_decode]
  cases hdecode : decode type (fromVariant request.engine request.incoming true).1 with
  | illegalCast => exact .inl ⟨rfl, (decode_eq_illegalCast_iff type _).mp hdecode⟩
  | error code => exact .inr (.inl ⟨rfl, fun value hvalue ↦ by cases hvalue⟩)
  | value converted =>
    obtain ⟨box, hbox⟩ | ⟨hrefused, text, htext, hnone⟩ :=
      replaceField_cases allocator data.box index htype converted
    · refine .inr (.inr ⟨converted, box, rfl, hbox, ?_⟩)
      simp only [hbox]
      rfl
    · refine .inr (.inl ⟨?_, fun value hvalue ↦ ⟨text, ?_, hnone⟩⟩)
      · simp only [hrefused]
      · rw [← htext]
        exact (Option.some.inj hvalue).symm

end Request

/-! ### Strings that are not shared -/

section Unshared

variable {allocator : Allocator UInt8} {box after : Box script} {index : ℕ}
  {field : ByteString × Property F64} {type : FieldType F32 F64} {converted : type.Carrier}

/-- The instance is valid, and the copy that it owns for a property has no part of another text. -/
structure Unshared (box : Box script) : Prop where
  valid : Valid box
  apart : ∀ index other, other ∈ exported script → (exported script)[index]? ≠ some other →
    ¬ InCopy box other.1 index

theorem text_untyped (box : Box script) {name : ByteString}
    (htype : fieldType script name = none) : box.text name = none := by
  unfold Box.text
  split
  · rfl
  next found hfound =>
    rw [htype] at hfound
    cases hfound

theorem text_eq_of_sameField {name : ByteString} (hsame : SameField box after name) :
    after.text name = box.text name := by
  cases htype : fieldType script name with
  | none => rw [text_untyped after htype, text_untyped box htype]
  | some type => rw [text_eq after htype, text_eq box htype, hsame type htype]

theorem slice_eq_none (htext : text? type converted = none) (held : Stored type) :
    slice? type held = none := by
  cases type with
  | string => cases htext
  | _ => rfl

theorem slice_stored {text : ByteString} (htext : text? type converted = some text)
    (copy : Slice) : slice? type (stored copy type converted) = some copy := by
  cases type with
  | string => rfl
  | _ => cases htext

/-- A field of another type than a string is set in place. -/
theorem replaceField_plain {name : ByteString} {htype : fieldType script name = some type}
    (hset : replaceField allocator box name index type htype converted = (.ok, after))
    (htext : text? type converted = none) :
    after.text name = none ∧ after.ownedStrings = box.ownedStrings := by
  unfold replaceField at hset
  rw [htext] at hset
  obtain ⟨-, rfl⟩ := Prod.mk.inj hset
  refine ⟨?_, rfl⟩
  rw [text_eq _ htype, slice_eq_none htext]

/-- A string is set to a copy of its own. -/
theorem replaceField_text (hblock : ∀ copy ∈ box.owned index, IsBlock box.memory copy)
    {name : ByteString} {htype : fieldType script name = some type} {text : ByteString}
    (hset : replaceField allocator box name index type htype converted = (.ok, after))
    (htext : text? type converted = some text) :
    ∃ copy, after.text name = some copy ∧
      Replaced box.memory (box.owned index) text copy after.memory ∧
      after.ownedStrings = box.ownedStrings.setIfInBounds index (some copy) := by
  unfold replaceField at hset
  rw [htext] at hset
  simp only at hset
  split at hset
  next => cases hset
  next replacement memory hreplace =>
    have hreplaced := replaced_replace hblock hreplace
    obtain ⟨-, rfl⟩ := Prod.mk.inj hset
    refine ⟨replacement, ?_, hreplaced, rfl⟩
    rw [text_eq _ htype]
    exact (congrArg (slice? type) (fields_assign_self htype _)).trans (slice_stored htext _)

/-- Setting a field changes what that field holds and no other, and shares no string. -/
theorem Unshared.replaceField (h : Unshared box)
    (hnodup : ((exported script).map Prod.fst).Nodup)
    (hfield : (exported script)[index]? = some field)
    {htype : fieldType script field.1 = some type}
    (hset : PropertyAccess.replaceField allocator box field.1 index type htype converted =
      (.ok, after)) :
    Unshared after ∧ after.value field.1 = some (toValue type converted) ∧
      ∀ other ∈ exported script, other.1 ≠ field.1 → after.value other.1 = box.value other.1 := by
  have hblock : ∀ copy ∈ box.owned index, IsBlock box.memory copy := fun copy hcopy ↦
    h.valid.isBlock index copy hcopy
  have hwritten := written_replaceField hblock hset
  have hother (other : ByteString × Property F64) (hne : other.1 ≠ field.1) :
      (exported script)[index]? ≠ some other := by
    rw [hfield]
    exact fun hsame ↦ hne (congrArg Prod.fst (Option.some.inj hsame)).symm
  have hkept (other : ByteString × Property F64) (hmem : other ∈ exported script)
      (hne : other.1 ≠ field.1) : ¬ InCopy box other.1 index :=
    h.apart index other hmem (hother other hne)
  refine ⟨⟨h.valid.written hfield htype hwritten hkept, ?_⟩, hwritten.value,
    fun other hmem hne ↦ (value_eq_iff h.valid hfield htype hwritten hmem hne).mpr
      (hkept other hmem hne)⟩
  intro place other hmem hplace ⟨slice, found, hslice, hfound, hshares⟩
  cases htext : text? type converted with
  | none =>
    obtain ⟨hnone, howned⟩ := replaceField_plain hset htext
    by_cases hname : other.1 = field.1
    · rw [hname, hnone] at hslice
      cases hslice
    · rw [text_eq_of_sameField (hwritten.others other.1 hname)] at hslice
      rw [Box.owned, howned] at hfound
      exact h.apart place other hmem hplace ⟨slice, found, hslice, hfound, hshares⟩
  | some text =>
    obtain ⟨copy, hcopy, hreplaced, howned⟩ := replaceField_text hblock hset htext
    by_cases hname : other.1 = field.1
    · rw [hname, hcopy] at hslice
      obtain rfl := Option.some.inj hslice
      have hsame : other = field :=
        List.inj_on_of_nodup_map hnodup hmem (List.mem_of_getElem? hfield) hname
      obtain ⟨rfl, -⟩ | ⟨-, hold⟩ := owned_replaced howned hfound
      · exact hplace (hfield.trans (congrArg some hsame.symm))
      · exact hreplaced.not_shares (h.valid.isBlock place found hold) hshares.symm
    · rw [text_eq_of_sameField (hwritten.others other.1 hname)] at hslice
      obtain ⟨rfl, rfl⟩ | ⟨-, hold⟩ := owned_replaced howned hfound
      · obtain ⟨contents, hread⟩ := exists_read_of_text (h.valid.readable other hmem) hslice
        refine block_of_read hread hshares.1 ?_
        rw [hshares.2.2]
        exact hreplaced.fresh hshares.2.1
      · exact h.apart place other hmem hplace ⟨slice, found, hslice, hold, hshares⟩

end Unshared

/-! ### Every run is one of the store -/

section Runs

variable {allocator : Allocator UInt8} {engine : Engine Object} {num : F64 → String}
  {toDictionary : Inspector.PropertyInfo → Dictionary} {zero : F64}
  {descriptor : RawScriptDescriptor F32 F64} {tables : Tables Object F32 F64 Dictionary}

theorem Store.ext {first second : Store Object F32 F64} (hvalue : first.value = second.value)
    (hretained : first.retained = second.retained) : first = second := by
  cases first
  cases second
  cases hvalue
  cases hretained
  rfl

theorem typeNamed_of_found {request : Request Object F32 F64} {index : ℕ}
    {field : ByteString × Property F64} {type : FieldType F32 F64}
    (hindex : indexNamed engine script request.name = some index)
    (h : Found script descriptor tables request.name index field type) :
    typeNamed engine script request.name = some type := by
  rw [typeNamed, hindex, Option.bind_some, h.exported, Option.bind_some, h.typed]

/-- Two names with one index are the same. -/
theorem name_eq_of_indexNamed {name other : String} {index : ℕ}
    (hname : indexNamed engine script name = some index)
    (hother : indexNamed engine script other = some index) : other = name := by
  obtain ⟨field, hfield, rfl⟩ := exists_of_indexNamed hname
  obtain ⟨otherField, hotherField, rfl⟩ := exists_of_indexNamed hother
  obtain rfl := Option.some.inj (hfield.symm.trans hotherField)
  rfl

/-- An instance that was set to a value exposes it, and else what it did before. -/
theorem exposed_accepted {data : InstanceData Object script} {request : Request Object F32 F64}
    {index : ℕ} {field : ByteString × Property F64} {type : FieldType F32 F64}
    {converted : type.Carrier} {box : Box script}
    (hindex : indexNamed engine script request.name = some index)
    (h : Found script descriptor tables request.name index field type)
    (hsettled : settled type request = some (toValue type converted))
    (hvalue : box.value field.1 = some (toValue type converted))
    (hothers : ∀ other ∈ exported script, other.1 ≠ field.1 →
      box.value other.1 = data.box.value other.1) :
    exposed engine (accepted data request index type box) =
      (exposed engine data).accept engine script request := by
  rw [Store.accept, typeNamed_of_found hindex h]
  refine Store.ext (funext fun name ↦ ?_) ?_
  · show ((indexNamed engine script name).bind fun index ↦
      (exported script)[index]?.bind fun field ↦ box.value field.1) =
        Function.update (exposed engine data).value request.name (settled type request) name
    by_cases hname : name = request.name
    · rw [hname, Function.update_self, hindex, Option.bind_some, h.exported, Option.bind_some,
        hvalue, hsettled]
    · rw [Function.update_of_ne hname]
      show _ = (indexNamed engine script name).bind fun index ↦
        (exported script)[index]?.bind fun field ↦ data.box.value field.1
      cases hother : indexNamed engine script name with
      | none => rfl
      | some place =>
        obtain ⟨other, hfound, hotherName⟩ := exists_of_indexNamed hother
        obtain ⟨same, hsame, hsameName⟩ := exists_of_indexNamed hindex
        obtain rfl := Option.some.inj (hsame.symm.trans h.exported)
        rw [Option.bind_some, Option.bind_some, hfound, Option.bind_some, Option.bind_some]
        refine hothers other (List.mem_of_getElem? hfound) fun hbytes ↦ hname ?_
        rw [← hotherName, ← hsameName, hbytes]
  · show (fun name ↦ (indexNamed engine script name).map
      (accepted data request index type box).retainedObjects) = _
    by_cases hobject : type.valueType = gzValueObject
    · have hretained : (accepted data request index type box).retainedObjects =
          Function.update data.retainedObjects index request.incoming := if_pos hobject
      simp only [if_pos hobject, hretained]
      refine funext fun name ↦ ?_
      by_cases hname : name = request.name
      · rw [hname, Function.update_self, hindex, Option.map_some, Function.update_self]
      · rw [Function.update_of_ne hname]
        show _ = (indexNamed engine script name).map data.retainedObjects
        cases hother : indexNamed engine script name with
        | none => rfl
        | some place =>
          have hne : place ≠ index := fun hsame ↦
            hname (name_eq_of_indexNamed hindex (hsame ▸ hother))
          rw [Option.map_some, Option.map_some, Function.update_of_ne hne]
    · have hretained : (accepted data request index type box).retainedObjects =
          data.retainedObjects := if_neg hobject
      simp only [if_neg hobject, hretained]
      rfl

/-- What a request does, in terms of the store. -/
theorem instanceSet_spec (allocator : Allocator UInt8)
    (h : Loaded engine num toDictionary zero script descriptor tables)
    {data : InstanceData Object script} (hdata : Unshared data.box)
    (request : Request Object F32 F64) :
    match instanceSet allocator descriptor tables data request with
    | none => Illegal engine script request
    | some (accepted, after) => Unshared after.box ∧
        Answers allocator data.box.memory engine script request accepted ∧
        exposed engine after =
          if accepted then (exposed engine data).accept engine script request
          else exposed engine data := by
  have hnodup := nodup_exported (compiledFrom_of_compile h.compiled).properties
  cases hindex : indexNamed engine script request.name with
  | none =>
    have htype : typeNamed engine script request.name = none := by
      rw [typeNamed, hindex, Option.bind_none]
    rw [instanceSet_not_found (h.not_found hindex)]
    refine ⟨hdata, fun type value hsome ↦ ?_, rfl⟩
    rw [htype] at hsome
    cases hsome
  | some index =>
    obtain ⟨field, type, hfound⟩ := h.exists_found hindex
    have htype := typeNamed_of_found hindex hfound
    rw [instanceSet_found hfound]
    obtain ⟨hnone, hillegal⟩ | ⟨hrefused, hreason⟩ | ⟨converted, box, hsettled, hset, haccepted⟩ :=
      setFound_cases allocator data request index hfound.typed
    · rw [hnone]
      exact ⟨type, htype, hillegal⟩
    · rw [hrefused]
      refine ⟨hdata, fun other value hother hvalue ↦ ?_, rfl⟩
      obtain rfl := Option.some.inj (htype.symm.trans hother)
      exact hreason value hvalue
    · rw [haccepted]
      obtain ⟨hafter, hvalue, hothers⟩ := hdata.replaceField hnodup hfound.exported hset
      exact ⟨hafter, ⟨type, _, htype, hsettled⟩,
        exposed_accepted hindex hfound hsettled hvalue hothers⟩

theorem typeNamed_eq_some {name : String} {type : FieldType F32 F64}
    (htype : typeNamed engine script name = some type) :
    ∃ index, indexNamed engine script name = some index := by
  rw [typeNamed] at htype
  obtain ⟨index, hindex, -⟩ := Option.bind_eq_some_iff.mp htype
  exact ⟨index, hindex⟩

theorem setFound_illegal (data : InstanceData Object script) (request : Request Object F32 F64)
    (index : ℕ) {name : ByteString} {type : FieldType F32 F64}
    (htype : fieldType script name = some type)
    (hillegal : OutsideOpenEnum type (fromVariant request.engine request.incoming true).1) :
    setFound allocator data request index name type = none := by
  have hdecode := (decode_eq_illegalCast_iff type _).mpr hillegal
  cases type with
  | enum tags =>
    cases hincoming : request.incoming with
    | int value =>
      rw [hincoming] at hdecode
      have hvalid : fromVariant request.engine (.int value : Variant Object F32 F64) true =
        (.int value, true) := rfl
      have hnot : ¬ ((FieldType.enum tags : FieldType F32 F64).valueType = gzValueObject ∧
          request.fits (FieldType.enum tags : FieldType F32 F64).objectClassName = false) :=
        fun h ↦ absurd h.1 (show ¬ (2 : UInt32) = 6 by decide)
      unfold setFound
      rw [if_neg hnot, hincoming, hvalid]
      simp only [setField_typed data.box htype, Bool.true_eq_false, if_false]
      rw [hvalid] at hdecode
      rw [hdecode]
    | _ =>
      rw [hincoming] at hillegal
      exact hillegal.elim
  | _ => exact hillegal.elim

/-- Decoding a request ends in an illegal cast exactly if the request is for an open enum. -/
theorem instanceSet_eq_none_iff (allocator : Allocator UInt8)
    (h : Loaded engine num toDictionary zero script descriptor tables)
    {data : InstanceData Object script} (hdata : Unshared data.box)
    (request : Request Object F32 F64) :
    instanceSet allocator descriptor tables data request = none ↔
      Illegal engine script request := by
  constructor
  · intro hnone
    have hspec := instanceSet_spec allocator h hdata request
    rw [hnone] at hspec
    exact hspec
  · rintro ⟨type, htype, hillegal⟩
    obtain ⟨index, hindex⟩ := typeNamed_eq_some htype
    obtain ⟨field, found, hfound⟩ := h.exists_found hindex
    obtain rfl := Option.some.inj ((typeNamed_of_found hindex hfound).symm.trans htype)
    rw [instanceSet_found hfound]
    exact setFound_illegal data request index hfound.typed hillegal

/-- A property is read as the store has it. -/
theorem instanceGet_eq (h : Loaded engine num toDictionary zero script descriptor tables)
    {data : InstanceData Object script} (hdata : Unshared data.box) (reader : Engine Object)
    (name : String) :
    instanceGet reader tables data name = some ((exposed engine data).read reader name) := by
  unfold instanceGet Store.read
  cases hindex : indexNamed engine script name with
  | none =>
    have hnone : (exposed engine data).value name = none := by
      show (indexNamed engine script name).bind _ = none
      rw [hindex, Option.bind_none]
    rw [h.not_found hindex, hnone]
    rfl
  | some index =>
    obtain ⟨field, type, hfound⟩ := h.exists_found hindex
    have hfield : fieldAt script (findProperty tables name).toUInt32 = some field := by
      rw [fieldAt, hfound.place]
      exact hfound.exported
    have hplace : ¬ (findProperty tables name).toInt < 0 := by
      rw [hfound.found]
      omega
    have hexposed : (exposed engine data).value name = data.box.value field.1 := by
      show (indexNamed engine script name).bind _ = _
      rw [hindex, Option.bind_some, hfound.exported, Option.bind_some]
    obtain ⟨value, hvalue⟩ := Option.ne_none_iff_exists'.mp
      (hdata.valid.readable field (List.mem_of_getElem? hfound.exported))
    simp only [if_neg hplace, getProperty_eq data.box hfield, hexposed, hvalue]

/-- Requests that set the properties of an instance by name act on it as on a store, whatever they
are: each is accepted or refused for its own reason, an accepted one sets its name to what the type
of the field makes of the value and nothing else, and the store is what is read afterwards. The only
requests that do not come to an end are those for an open enum. -/
theorem run_refines_store (allocator : Allocator UInt8)
    (h : Loaded engine num toDictionary zero script descriptor tables)
    (data : InstanceData Object script) (hdata : Unshared data.box)
    (requests : List (Request Object F32 F64)) :
    (run allocator descriptor tables data requests = none ↔
        ∃ request ∈ requests, Illegal engine script request) ∧
      ∀ results after, run allocator descriptor tables data requests = some (results, after) →
        Unshared after.box ∧
        Answered allocator descriptor tables engine data requests results ∧
        exposed engine after =
          Store.acceptAll engine script (exposed engine data) (requests.zip results) ∧
        ∀ reader name, instanceGet reader tables after name =
          some ((Store.acceptAll engine script (exposed engine data)
            (requests.zip results)).read reader name) := by
  induction requests generalizing data with
  | nil =>
    refine ⟨by simp [run], fun results after hrun ↦ ?_⟩
    obtain ⟨rfl, rfl⟩ := Prod.mk.inj (Option.some.inj hrun)
    exact ⟨hdata, trivial, rfl, fun reader name ↦ instanceGet_eq h hdata reader name⟩
  | cons request requests ih =>
    have hspec := instanceSet_spec allocator h hdata request
    have hillegal := instanceSet_eq_none_iff allocator h hdata request
    rw [run, List.exists_mem_cons_iff, ← hillegal]
    cases hset : instanceSet allocator descriptor tables data request with
    | none => exact ⟨iff_of_true rfl (.inl rfl), fun results after hrun ↦ by cases hrun⟩
    | some outcome =>
      obtain ⟨answer, next⟩ := outcome
      rw [hset] at hspec
      obtain ⟨hnext, hanswer, hexposed⟩ := hspec
      obtain ⟨hstuck, hrest⟩ := ih next hnext
      refine ⟨?_, fun results after hrun ↦ ?_⟩
      · simp only [Option.map_eq_none_iff, hstuck, reduceCtorEq, false_or]
      · obtain ⟨⟨rest, last⟩, hran, heq⟩ := Option.map_eq_some_iff.mp hrun
        obtain ⟨rfl, rfl⟩ := Prod.mk.inj heq
        obtain ⟨hlast, hanswers, hlastExposed, hread⟩ := hrest rest last hran
        rw [hexposed] at hlastExposed hread
        exact ⟨hlast, ⟨hanswer, next, hset, hanswers⟩, hlastExposed, hread⟩

end Runs

/-! ### What is read back -/

/-- The engine's value comes back as it is from a field of the type: the type holds it unchanged, an
object is live, and the basis of a `Transform3D` is symmetric. -/
structure Kept (type : FieldType F32 F64) (request : Request Object F32 F64) : Prop where
  represents : Represents type (fromVariant request.engine request.incoming true).1
  live : ∀ object, request.incoming = .object (some object) → request.engine.Live object
  symmetric : ∀ transform, request.incoming = .transform3d transform →
    transform.basis.transpose = transform.basis

theorem eq_of_settled {type : FieldType F32 F64} {request : Request Object F32 F64}
    {value : GzValue F32 F64} (hsettled : settled type request = some value) :
    (fromVariant request.engine request.incoming true).2 = true ∧
      (fromValue type (fromVariant request.engine request.incoming true).1).map (toValue type) =
        some value := by
  unfold settled at hsettled
  split at hsettled
  · cases hsettled
  · simp only at hsettled
    split at hsettled
    · cases hsettled
    next hvalid => exact ⟨Bool.of_not_eq_false hvalid, hsettled⟩

/-- A number that comes back as it was has the precision of the field. -/
theorem represents_of_read {engine : Engine Object} {type : FieldType F32 F64}
    {incoming : Variant Object F32 F64} {value : GzValue F32 F64}
    (hvalue : (fromValue type (fromVariant engine incoming true).1).map (toValue type) = some value)
    (hread : toVariant engine value = (incoming, true)) :
    Represents type (fromVariant engine incoming true).1 := by
  cases type with
  | int type =>
    cases incoming with
    | int number =>
      obtain ⟨converted, hconverted, -⟩ := Option.map_eq_some_iff.mp hvalue
      exact holds_of_isSome (Option.isSome_of_eq_some hconverted)
    | _ => cases hvalue
  | enum type =>
    cases incoming with
    | int number =>
      obtain ⟨converted, hconverted, -⟩ := Option.map_eq_some_iff.mp hvalue
      exact holds_of_isSome (Option.isSome_of_eq_some hconverted)
    | _ => cases hvalue
  | float format =>
    cases incoming with
    | float number =>
      obtain rfl := Option.some.inj hvalue
      exact Variant.float.inj (Prod.mk.inj hread).1
    | _ => cases hvalue
  | vector2 x y =>
    cases incoming with
    | vector2 vector =>
      obtain rfl := Option.some.inj hvalue
      obtain ⟨hx, hy⟩ := Vector2.mk.inj (Variant.vector2.inj (Prod.mk.inj hread).1)
      exact ⟨hx, hy⟩
    | _ => cases hvalue
  | vector3 x y z =>
    cases incoming with
    | vector3 vector =>
      obtain rfl := Option.some.inj hvalue
      obtain ⟨hx, hy, hz⟩ := Vector3.mk.inj (Variant.vector3.inj (Prod.mk.inj hread).1)
      exact ⟨hx, hy, hz⟩
    | _ => cases hvalue
  | object godotClass =>
    cases incoming with
    | object object =>
      intro hzero
      have hrefused : fromValue (.object godotClass : FieldType F32 F64)
          (fromVariant engine (.object object : Variant Object F32 F64) true).1 = none :=
        if_pos hzero
      rw [hrefused] at hvalue
      cases hvalue
    | _ => cases hvalue
  | optional godotClass =>
    cases incoming with
    | nil => trivial
    | object object =>
      intro hzero
      have hnull : fromValue (.optional godotClass : FieldType F32 F64)
          (fromVariant engine (.object object : Variant Object F32 F64) true).1 = some none :=
        congrArg some (if_pos hzero)
      rw [hnull] at hvalue
      obtain rfl := Option.some.inj hvalue
      cases (Prod.mk.inj hread).1
    | other => cases (Prod.mk.inj (Option.some.inj hvalue ▸ hread)).1
    | _ => cases hvalue
  | _ => cases incoming <;> trivial

theorem toVariant_settled_iff {type : FieldType F32 F64} {request : Request Object F32 F64}
    {value : GzValue F32 F64} (hsettled : settled type request = some value) :
    toVariant request.engine value = (request.incoming, true) ↔ Kept type request := by
  obtain ⟨hvalid, hvalue⟩ := eq_of_settled hsettled
  constructor
  · intro hread
    have hrepresents := represents_of_read hvalue hread
    -- The value is the one that was set, so it was read back as it is.
    rw [(fromValue_toValue_iff type _).mpr hrepresents] at hvalue
    obtain rfl := Option.some.inj hvalue
    refine ⟨hrepresents, fun object hincoming ↦ ?_, fun transform hincoming ↦ ?_⟩
    · rw [hincoming] at hread
      exact Variant.object.inj (Prod.mk.inj hread).1
    · rw [hincoming, toVariant_fromVariant_transform3d] at hread
      exact congrArg Transform3D.basis (Variant.transform3d.inj (Prod.mk.inj hread).1)
  · intro hkept
    rw [(fromValue_toValue_iff type _).mpr hkept.represents] at hvalue
    obtain rfl := Option.some.inj hvalue
    by_cases htransform : ∃ transform, request.incoming = .transform3d transform
    · obtain ⟨transform, hincoming⟩ := htransform
      rw [hincoming, toVariant_fromVariant_transform3d, hkept.symmetric transform hincoming]
    · have hsupported : Supported request.engine request.incoming := by
        cases hincoming : request.incoming with
        | object object =>
          cases object with
          | none => trivial
          | some object => exact hkept.live object hincoming
        | other type =>
          rw [hincoming] at hvalid
          cases hvalid
        | _ => trivial
      exact (roundTrips_of_not_transform3d request.engine request.incoming hsupported
        fun transform hincoming ↦ htransform ⟨transform, hincoming⟩).2

/-- After a set that was accepted the property reads what its field has made of the value. -/
theorem instanceGet_accepted {engine later : Engine Object} {num : F64 → String}
    {toDictionary : Inspector.PropertyInfo → Dictionary} {zero : F64}
    {descriptor : RawScriptDescriptor F32 F64} {tables : Tables Object F32 F64 Dictionary}
    (h : Loaded engine num toDictionary zero script descriptor tables)
    {data after : InstanceData Object script} (hafter : Unshared after.box)
    {request : Request Object F32 F64}
    (hexposed : exposed engine after = (exposed engine data).accept engine script request)
    {type : FieldType F32 F64} (htype : typeNamed engine script request.name = some type)
    {value : GzValue F32 F64} (hsettled : settled type request = some value) :
    instanceGet later tables after request.name =
      some ((toVariant later value).2, some (toVariant later value).1) := by
  have hvalue : (exposed engine after).value request.name = some value := by
    rw [hexposed, Store.accept, htype, ← hsettled]
    exact Function.update_self _ _ _
  rw [instanceGet_eq h hafter, Store.read, hvalue]

/-- In an instance in which no two texts share memory, a property that was set to a value is read
back as that value exactly if the field of the script keeps it: a number is not rounded, an object
is still there, and a `Transform3D` has a symmetric basis. -/
theorem instanceGet_instanceSet_iff {allocator : Allocator UInt8} {engine : Engine Object}
    {num : F64 → String} {toDictionary : Inspector.PropertyInfo → Dictionary} {zero : F64}
    {descriptor : RawScriptDescriptor F32 F64} {tables : Tables Object F32 F64 Dictionary}
    (h : Loaded engine num toDictionary zero script descriptor tables)
    {data after : InstanceData Object script} (hdata : Unshared data.box)
    {request : Request Object F32 F64}
    (hset : instanceSet allocator descriptor tables data request = some (true, after)) :
    instanceGet request.engine tables after request.name = some (true, some request.incoming) ↔
      ∃ type, typeNamed engine script request.name = some type ∧ Kept type request := by
  have hspec := instanceSet_spec allocator h hdata request
  rw [hset] at hspec
  obtain ⟨hafter, ⟨type, value, htype, hsettled⟩, hexposed⟩ := hspec
  have haccepted := hexposed.trans (if_pos rfl)
  have hpair : some ((toVariant request.engine value).2, some (toVariant request.engine value).1) =
      some (true, some request.incoming) ↔
        toVariant request.engine value = (request.incoming, true) := by
    rw [Option.some.injEq, Prod.mk.injEq, Option.some.injEq, and_comm, ← Prod.mk.injEq]
  rw [instanceGet_accepted h hafter haccepted htype hsettled]
  refine hpair.trans ((toVariant_settled_iff hsettled).trans ⟨fun hkept ↦ ⟨type, htype, hkept⟩, ?_⟩)
  rintro ⟨other, hother, hkept⟩
  obtain rfl := Option.some.inj (htype.symm.trans hother)
  exact hkept

/-! ### A script of two texts -/

/-- Nothing is known of any object, since there is none. -/
def setFirst : Request Empty Empty ℕ where
  engine := replacingEngine
  isClass := fun object _ ↦ nomatch object
  name := "a"
  incoming := .string "x"

def newData : InstanceData Empty textScript := ⟨newBox, fun _ ↦ .nil⟩

theorem unshared_newBox : Unshared newBox := by
  refine ⟨valid_newBox, fun index other hother hindex ⟨slice, copy, hslice, hcopy, hshares⟩ ↦ ?_⟩
  rw [Box.owned, newBox, Box.create, Vector.getElem?_replicate] at hcopy
  split_ifs at hcopy <;> cases hcopy

theorem names_textScript :
    ((exported textScript).map fun field ↦ replacingEngine.ofUtf8 field.1) = ["a", "b"] := by
  decide +kernel

/-- A script that is compiled is loaded if its names are distinct for the engine. -/
theorem exists_loaded {engine : Engine Object} {num : F64 → String}
    {toDictionary : Inspector.PropertyInfo → Dictionary} {zero : F64}
    {descriptor : RawScriptDescriptor F32 F64} (hcompiled : compile zero script = .ok descriptor)
    (haccepted : (compiledLibrary descriptor).accepted = .ok descriptor)
    (hnames : ((exported script).map fun field ↦ engine.ofUtf8 field.1).Nodup) :
    ∃ tables, Loaded engine num toDictionary zero script descriptor tables := by
  have hnodup : (propertyNames engine descriptor).Nodup := by
    rw [propertyNames_compiled engine (compiledFrom_of_compile hcompiled)]
    exact hnames
  have hloaded : ∃ module closed,
      Load.load engine (compiledLibrary descriptor) = (.ok module, closed) := by
    obtain ⟨module, hload, -⟩ | ⟨message, -, hrepeated⟩ := Load.load_accepted engine haccepted
    · exact ⟨module, 0, hload⟩
    · exact absurd hnodup hrepeated
  have hmeets : Library.Fallible.Meets _ _ (buildTables engine num toDictionary descriptor) :=
    buildTables_meets (accepted_of_descriptorError (descriptorError_of_accepted haccepted))
  cases htables : buildTables engine num toDictionary descriptor with
  | error failure =>
    rw [htables] at hmeets
    exact absurd hnodup hmeets.2
  | ok tables => exact ⟨tables, hcompiled, hloaded, htables⟩

theorem loaded_textScript : ∃ descriptor tables,
    Loaded replacingEngine Nat.repr id 0 textScript descriptor tables := by
  obtain ⟨descriptor, hcompiled, haccepted⟩ : ∃ descriptor,
      compile 0 textScript = .ok descriptor ∧
        (compiledLibrary descriptor).accepted = .ok descriptor := ⟨_, rfl, rfl⟩
  have hnames : ((exported textScript).map fun field ↦ replacingEngine.ofUtf8 field.1).Nodup := by
    rw [names_textScript]
    decide
  exact ⟨descriptor, exists_loaded hcompiled haccepted hnames⟩

/-- The first text of a new instance is set to `x`, and read as that. -/
theorem setFirst_refines_store : ∃ descriptor tables,
    Loaded replacingEngine Nat.repr id 0 textScript descriptor tables ∧
      ∃ results after,
        run twoBlocks descriptor tables newData [setFirst] = some (results, after) ∧
        ∀ reader name, instanceGet reader tables after name =
          some ((Store.acceptAll replacingEngine textScript (exposed replacingEngine newData)
            ([setFirst].zip results)).read reader name) := by
  obtain ⟨descriptor, tables, hloaded⟩ := loaded_textScript
  obtain ⟨hstuck, hruns⟩ := run_refines_store twoBlocks hloaded newData
    unshared_newBox [setFirst]
  have hlegal : ¬ ∃ request ∈ [setFirst], Illegal replacingEngine textScript request := by
    rintro ⟨request, hrequest, type, htype, hillegal⟩
    rw [List.mem_singleton.mp hrequest] at hillegal
    cases type <;> exact hillegal.elim
  obtain ⟨⟨results, after⟩, hrun⟩ := Option.ne_none_iff_exists'.mp (mt hstuck.mp hlegal)
  exact ⟨descriptor, tables, hloaded, results, after, hrun, (hruns results after hrun).2.2.2⟩

/-- It is read back as it was set. -/
theorem setFirst_kept : ∃ descriptor tables after,
    Loaded replacingEngine Nat.repr id 0 textScript descriptor tables ∧
      instanceSet twoBlocks descriptor tables newData setFirst = some (true, after) ∧
      instanceGet replacingEngine tables after "a" = some (true, some (.string "x")) := by
  obtain ⟨descriptor, tables, hloaded⟩ := loaded_textScript
  have hindex : indexNamed replacingEngine textScript setFirst.name = some 0 := by decide +kernel
  obtain ⟨field, type, hfound⟩ := hloaded.exists_found hindex
  obtain rfl : ([97], {}) = field := Option.some.inj hfound.exported
  obtain rfl := type_textScript hfound.typed
  obtain ⟨after, hset⟩ : ∃ after,
      setFound twoBlocks newData setFirst 0 [97] .string = some (true, after) := ⟨_, rfl⟩
  rw [← instanceSet_found hfound] at hset
  refine ⟨descriptor, tables, after, hloaded, hset, ?_⟩
  refine (instanceGet_instanceSet_iff hloaded unshared_newBox hset).mpr
    ⟨.string, typeNamed_of_found hindex hfound, trivial, ?_, ?_⟩
  · rintro object -
    exact object.elim
  · intro transform htransform
    cases htransform

end Gzscript.Abi.InstanceProperties
