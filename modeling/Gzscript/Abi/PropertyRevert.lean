import Gzscript.Abi.InstanceProperties

/-!
# Reverting a property

The Inspector reverts a property of an instance by setting it to the value that
`instance_property_get_revert` returns, which is the default that the module keeps for it. The
default has come a long way: from the field of the script into the descriptor of its library, and
from there, decoded, into the table of the module.

A new instance reads the same default from its field (`instanceGet_new`). A property that is
reverted reads it too, unless it is a `Transform3D` whose basis is not symmetric, which arrives
transposed, or an object field whose default was no live object of its class when the module was
loaded, or is none any more, which is refused or read as null (`revert_restores_iff`).
-/

set_option autoImplicit false
set_option relaxedAutoImplicit false

namespace Gzscript.Abi.PropertyRevert

open Library.Bytes Library.Blocks Value ValueCodec FieldCodec CodecOutcomes RawDescriptor
  PropertyTable Adapter AdapterLoad PropertyAccess OwnedStrings InstanceProperties

variable {Object F32 F64 Dictionary : Type} {script : Script F32 F64}

/-! ### The source -/

def instancePropertyCanRevert (tables : Tables Object F32 F64 Dictionary) (name : String) : Bool :=
  decide (0 ≤ (findProperty tables name).toInt)

/-- What is written to the result, if there is such a property. -/
def instancePropertyGetRevert (tables : Tables Object F32 F64 Dictionary) (name : String) :
    Option (Variant Object F32 F64) :=
  if (findProperty tables name).toInt < 0 then none
  else some ((tables.propertyDefaults.lookup name).getD .nil)

/-- The property is set to what it is to be reverted to. -/
def revert (allocator : Allocator UInt8) (descriptor : RawScriptDescriptor F32 F64)
    (tables : Tables Object F32 F64 Dictionary) (data : InstanceData Object script)
    (engine : Engine Object) (isClass : Object → String → Bool) (name : String) :
    Option (Bool × InstanceData Object script) :=
  match instancePropertyGetRevert tables name with
  | none => some (false, data)
  | some incoming => instanceSet allocator descriptor tables data ⟨engine, isClass, name, incoming⟩

/-! ### Defaults -/

/-- The default of a field, as the script encodes it. -/
def defaultValue (script : Script F32 F64) (name : ByteString) : Option (GzValue F32 F64) :=
  (findField script name).bind fun field ↦
    match htype : field.type with
    | none => none
    | some type => (field.default type htype).map (toValue type)

/-- The default of the exported field with a name. -/
def defaultNamed (engine : Engine Object) (script : Script F32 F64) (name : String) :
    Option (GzValue F32 F64) :=
  (indexNamed engine script name).bind fun index ↦
    (exported script)[index]?.bind fun field ↦ defaultValue script field.1

/-- The floats of the type are not changed by widening them and narrowing them again. -/
def Lossless : FieldType F32 F64 → Prop
  | .float format => ∀ number, format.write (format.read number) = number
  | .vector2 x y => (∀ number, x.write (x.read number) = number) ∧
    ∀ number, y.write (y.read number) = number
  | .vector3 x y z => (∀ number, x.write (x.read number) = number) ∧
    (∀ number, y.write (y.read number) = number) ∧ ∀ number, z.write (z.read number) = number
  | _ => True

/-- The default, as the engine had it when the module was loaded, is no null object, nor an object
that is gone later or that is not of the class of the field, and no `Transform3D` that is
transposed. -/
structure Restorable (engine later : Engine Object) (isClass : Object → String → Bool)
    (className : ByteString) (default : GzValue F32 F64) : Prop where
  object : ∀ object, (toVariant engine default).1 = .object object →
    ∃ live, object = some live ∧ later.Live live ∧
      (later.ofUtf8 className = "" ∨ isClass live (later.ofUtf8 className) = true)
  symmetric : ∀ transform, (toVariant engine default).1 = .transform3d transform →
    transform.basis.transpose = transform.basis

/-! ### From the field to the table -/

section Defaults

variable {engine : Engine Object} {num : F64 → String}
  {toDictionary : Inspector.PropertyInfo → Dictionary} {zero : F64}
  {descriptor : RawScriptDescriptor F32 F64} {tables : Tables Object F32 F64 Dictionary}

/-- The value of a descriptor's default is the default of the field. -/
theorem defaultValue_of_propertyDescriptor {name : ByteString} {options : Property F64}
    {property : RawProperty F32 F64}
    (hbuilt : propertyDescriptor zero script name options = .ok property) :
    ∃ (type : FieldType F32 F64) (default : type.Carrier), fieldType script name = some type ∧
      defaultValue script name = some (toValue type default) ∧
      property.name.slice = name ∧ property.defaultValue.value = toValue type default := by
  unfold propertyDescriptor at hbuilt
  split at hbuilt
  · cases hbuilt
  next field hfield =>
    split at hbuilt
    · cases hbuilt
    next type htype =>
      split at hbuilt
      · cases hbuilt
      next default hdefault =>
        split at hbuilt
        · cases hbuilt
        · obtain rfl := Except.ok.inj hbuilt
          refine ⟨type, default, ?_, ?_, rfl, ?_⟩
          · rw [fieldType, hfield, Option.bind_some, htype]
          · rw [defaultValue, hfield, Option.bind_some]
            split
            next hnone =>
              rw [htype] at hnone
              cases hnone
            next other hother =>
              obtain rfl := Option.some.inj (htype.symm.trans hother)
              rw [hdefault]
              rfl
          · show (rawDefault type default).value = toValue type default
            unfold rawDefault
            split
            next htext => exact htext.symm
            · rfl

theorem lookup_eq_of_getElem? {α : Type} {entries : List (String × α)}
    (hnodup : (entries.map Prod.fst).Nodup) {index : ℕ} {key : String} {value : α}
    (hentry : entries[index]? = some (key, value)) : entries.lookup key = some value := by
  induction entries generalizing index with
  | nil => cases hentry
  | cons entry entries ih =>
    obtain ⟨habsent, hrest⟩ := List.nodup_cons.mp hnodup
    cases index with
    | zero =>
      obtain rfl := Option.some.inj hentry
      exact List.lookup_cons_self
    | succ index =>
      have hkey : (key == entry.1) = false := by
        refine beq_eq_false_iff_ne.mpr fun heq ↦ habsent ?_
        rw [← heq]
        exact List.mem_map.mpr ⟨(key, value), List.mem_of_getElem? hentry, rfl⟩
      obtain ⟨other, held⟩ := entry
      rw [List.lookup_cons, hkey]
      exact ih hrest hentry

/-- What the tables have for an exported name is what its field has. -/
theorem exists_default
    (h : Loaded engine num toDictionary zero script descriptor tables) {name : String}
    {type : FieldType F32 F64} (htype : typeNamed engine script name = some type) :
    ∃ default : type.Carrier, defaultNamed engine script name = some (toValue type default) ∧
      instancePropertyCanRevert tables name = true ∧
      instancePropertyGetRevert tables name = some (toVariant engine (toValue type default)).1 := by
  obtain ⟨index, hindex, -⟩ := Option.bind_eq_some_iff.mp htype
  obtain ⟨field, hfield, hname⟩ := exists_of_indexNamed hindex
  have hbuilt := builtFrom_buildProperties (compiledFrom_of_compile h.compiled).properties
  obtain ⟨property, hproperty, hfrom⟩ := exists_of_forall₂ hbuilt hfield
  obtain ⟨other, default, hother, hdefault, hslice, hvalue⟩ :=
    defaultValue_of_propertyDescriptor hfrom
  have hsame : typeNamed engine script name = some other := by
    rw [typeNamed, hindex, Option.bind_some, hfield, Option.bind_some, hother]
  obtain rfl := Option.some.inj (htype.symm.trans hsame)
  have hfound : (findProperty tables name).toInt = index := by
    rw [← hname, ← hslice]
    exact h.coherent.found index _ hproperty
  have hentry : tables.propertyDefaults[index]? =
      some (name, (toVariant engine (toValue type default)).1) := by
    rw [h.coherent.defaults, Inspector.propertyDefaults]
    show (((descriptor.properties.list.map RawProperty.read).map _))[index]? = _
    rw [List.getElem?_map, List.getElem?_map, hproperty]
    show some (engine.ofUtf8 property.name.slice, (toVariant engine property.defaultValue.value).1)
      = _
    rw [hslice, hname, hvalue]
  refine ⟨default, ?_, ?_, ?_⟩
  · rw [defaultNamed, hindex, Option.bind_some, hfield, Option.bind_some, hdefault]
  · exact decide_eq_true (by omega)
  · rw [instancePropertyGetRevert, if_neg (by omega),
      lookup_eq_of_getElem? h.coherent.defaultsDistinct hentry]
    rfl

/-- Names that are not exported cannot be reverted. -/
theorem not_revertible (h : Loaded engine num toDictionary zero script descriptor tables)
    {name : String} (hname : indexNamed engine script name = none) :
    instancePropertyCanRevert tables name = false ∧
      instancePropertyGetRevert tables name = none := by
  rw [instancePropertyCanRevert, instancePropertyGetRevert, h.not_found hname]
  exact ⟨rfl, rfl⟩

end Defaults

/-! ### There and back -/

section Restoring

variable {engine later : Engine Object} {isClass : Object → String → Bool} {name : String}
  {type : FieldType F32 F64} {default : type.Carrier}

/-- The request that reverts a property to a default. -/
def reverting (engine later : Engine Object) (isClass : Object → String → Bool) (name : String)
    (default : GzValue F32 F64) : InstanceProperties.Request Object F32 F64 :=
  ⟨later, isClass, name, (toVariant engine default).1⟩

/-- What a field of a type without objects makes of a value. -/
theorem settled_eq {request : InstanceProperties.Request Object F32 F64} {converted : type.Carrier}
    (hobject : decide (type.valueType = gzValueObject) = false)
    (hvalid : (fromVariant request.engine request.incoming true).2 = true)
    (hconverted : fromValue type (fromVariant request.engine request.incoming true).1 =
      some converted) : settled type request = some (toValue type converted) := by
  rw [settled, if_neg fun hboth ↦ of_decide_eq_false hobject hboth.1]
  dsimp only
  rw [if_neg (by simp [hvalid]), hconverted, Option.map_some]

/-- An object field takes a live object of its class, and it is read as it was. -/
theorem settled_object {request : InstanceProperties.Request Object F32 F64} {live : Object}
    (hincoming : request.incoming = .object (some live)) (hlive : request.engine.Live live)
    (hclass : request.engine.ofUtf8 type.objectClassName = "" ∨
      request.isClass live (request.engine.ofUtf8 type.objectClassName) = true)
    (htype : ∀ owner ≠ 0, (fromValue type (.object owner)).map (toValue type) =
      some (.object owner)) :
    settled type request = some (.object (request.engine.getInstanceId live)) := by
  have hfits : request.fits type.objectClassName = true := by
    rw [Request.fits, hincoming]
    simpa only [Bool.or_eq_true, beq_iff_eq] using hclass
  have hnonzero : request.engine.getInstanceId live ≠ 0 := by
    intro hzero
    rw [Engine.Live, hzero, request.engine.getInstance_zero] at hlive
    cases hlive
  have hencoded : fromVariant request.engine request.incoming true =
      (.object (request.engine.getInstanceId live), true) := by
    rw [hincoming]
    rfl
  rw [settled, hfits, if_neg fun hboth ↦ Bool.noConfusion hboth.2, hencoded]
  exact htype _ hnonzero

/-- So does an object field whose default is restorable. -/
theorem settled_objectDefault (name : String)
    (hrestorable : Restorable engine later isClass type.objectClassName (toValue type default))
    {owner : UInt64} (howner : toValue type default = .object owner)
    (htype : ∀ owner ≠ 0, (fromValue type (.object owner)).map (toValue type) =
      some (.object owner)) :
    ∃ value,
      settled type (reverting engine later isClass name (toValue type default)) = some value ∧
        toVariant later value = ((toVariant engine (toValue type default)).1, true) := by
  obtain ⟨live, hfound, hlive, hclass⟩ :=
    hrestorable.object (engine.getInstance owner) (by rw [howner]; rfl)
  have hincoming : (toVariant engine (toValue type default)).1 = .object (some live) := by
    rw [howner, ← hfound]
    rfl
  refine ⟨_, settled_object hincoming hlive hclass htype, ?_⟩
  rw [hincoming]
  exact congrArg (fun object ↦ (Variant.object object, true)) hlive

/-- A field takes its default back, and it is read as it was. -/
theorem settled_default (name : String) (hlossless : Lossless type)
    (hrestorable : Restorable engine later isClass type.objectClassName (toValue type default)) :
    ∃ value,
      settled type (reverting engine later isClass name (toValue type default)) = some value ∧
        toVariant later value = ((toVariant engine (toValue type default)).1, true) := by
  cases type with
  | bool => exact ⟨_, rfl, rfl⟩
  | int type => exact ⟨_, settled_eq rfl rfl (dif_pos default.2), rfl⟩
  | enum type => exact ⟨_, settled_eq rfl rfl (dif_pos default.2), rfl⟩
  | float format =>
    refine ⟨_, settled_eq rfl rfl rfl, ?_⟩
    show (Variant.float (format.read (format.write (format.read default))), true) = _
    rw [hlossless]
    rfl
  | string =>
    refine ⟨_, settled_eq rfl rfl rfl, ?_⟩
    show (Variant.string (later.ofUtf8 (later.utf8 (engine.ofUtf8 default))), true) = _
    rw [later.ofUtf8_utf8]
    rfl
  | vector2 x y =>
    refine ⟨_, settled_eq rfl rfl rfl, ?_⟩
    show (Variant.vector2 ⟨x.read (x.write (x.read default.1)),
      y.read (y.write (y.read default.2))⟩, true) = _
    rw [hlossless.1, hlossless.2]
    rfl
  | vector3 x y z =>
    refine ⟨_, settled_eq rfl rfl rfl, ?_⟩
    show (Variant.vector3 ⟨x.read (x.write (x.read default.1)),
      y.read (y.write (y.read default.2.1)), z.read (z.write (z.read default.2.2))⟩, true) = _
    rw [hlossless.1, hlossless.2.1, hlossless.2.2]
    rfl
  | color => exact ⟨_, rfl, rfl⟩
  | transform2d => exact ⟨_, settled_eq rfl rfl rfl, rfl⟩
  | transform3d =>
    refine ⟨_, settled_eq rfl rfl rfl, ?_⟩
    refine (toVariant_fromVariant_transform3d later _).trans ?_
    rw [hrestorable.symmetric _ rfl]
    rfl
  | rect2 => exact ⟨_, rfl, rfl⟩
  | object godotClass =>
    refine settled_objectDefault name hrestorable rfl fun owner howner ↦ ?_
    rw [fromValue, if_neg howner]
    rfl
  | optional godotClass =>
    cases default with
    | none => exact ⟨.nil, rfl, rfl⟩
    | some owner =>
      refine settled_objectDefault name hrestorable rfl fun owner howner ↦ ?_
      rw [fromValue, if_neg howner]
      rfl

variable {num : F64 → String} {toDictionary : Inspector.PropertyInfo → Dictionary} {zero : F64}
  {descriptor : RawScriptDescriptor F32 F64} {tables : Tables Object F32 F64 Dictionary}
  {data : InstanceData Object script}

/-- A new instance, of which every field has its default, reads what it may be reverted to. -/
theorem instanceGet_new (h : Loaded engine num toDictionary zero script descriptor tables)
    (hdata : Unshared data.box) (htype : typeNamed engine script name = some type)
    (hnew : (exposed engine data).value name = defaultNamed engine script name) :
    instanceGet engine tables data name =
      some (true, instancePropertyGetRevert tables name) := by
  obtain ⟨default, hdefault, -, hrevert⟩ := exists_default h htype
  rw [instanceGet_eq h hdata, Store.read, hnew, hdefault, hrevert]
  have hvalid : (toVariant engine (toValue type default)).2 = true := by
    cases type with
    | optional godotClass => cases default <;> rfl
    | _ => rfl
  exact congrArg (fun valid ↦ some (valid, some (toVariant engine (toValue type default)).1)) hvalid

/-- An object that a field takes is not null, and of its class. -/
theorem fits_of_settled {request : InstanceProperties.Request Object F32 F64}
    {value : GzValue F32 F64} (hsettled : settled type request = some value)
    {object : Option Object} (hincoming : request.incoming = .object object) :
    ∃ live, object = some live ∧ (request.engine.ofUtf8 type.objectClassName = "" ∨
      request.isClass live (request.engine.ofUtf8 type.objectClassName) = true) := by
  have hobject : type.valueType = gzValueObject := by
    obtain ⟨-, hvalue⟩ := eq_of_settled hsettled
    rw [hincoming] at hvalue
    cases type with
    | object godotClass => rfl
    | optional godotClass => rfl
    | _ => cases hvalue
  have hfits : request.fits type.objectClassName = true := by
    rw [← Bool.not_eq_false]
    intro hfits
    rw [settled, if_pos ⟨hobject, hfits⟩] at hsettled
    cases hsettled
  rw [Request.fits, hincoming] at hfits
  cases object with
  | none => cases hfits
  | some live => exact ⟨live, rfl, by simpa only [Bool.or_eq_true, beq_iff_eq] using hfits⟩

/-- A value that the type takes ends in no illegal cast. -/
theorem not_outsideOpenEnum_of_settled {request : InstanceProperties.Request Object F32 F64}
    {value : GzValue F32 F64} (hsettled : settled type request = some value) :
    ¬ OutsideOpenEnum type (fromVariant request.engine request.incoming true).1 := by
  intro houtside
  have hnone := result?_decode type (fromVariant request.engine request.incoming true).1
  rw [(decode_eq_illegalCast_iff type _).mpr houtside] at hnone
  have hvalue := (eq_of_settled hsettled).2
  rw [← hnone] at hvalue
  cases hvalue

/-- Reverting a property is accepted and restores the default, as the engine reads it, exactly if
the default, as the engine had it when the module was loaded, is no `Transform3D` with an asymmetric
basis and no object but one that is live and of the class of the field. -/
theorem revert_restores_iff {allocator : Allocator UInt8}
    (hmemory : ∀ length, allocator data.box.memory length ≠ none)
    (h : Loaded engine num toDictionary zero script descriptor tables)
    (hdata : Unshared data.box) (htype : typeNamed engine script name = some type)
    (hlossless : Lossless type) {default : GzValue F32 F64}
    (hdefault : defaultNamed engine script name = some default) :
    (∃ after, revert allocator descriptor tables data later isClass name = some (true, after) ∧
      instanceGet later tables after name = some (true, instancePropertyGetRevert tables name)) ↔
      Restorable engine later isClass type.objectClassName default := by
  obtain ⟨held, hheld, -, hrevert⟩ := exists_default h htype
  obtain rfl := Option.some.inj (hheld.symm.trans hdefault)
  have hrequest : revert allocator descriptor tables data later isClass name = instanceSet allocator
      descriptor tables data (reverting engine later isClass name (toValue type held)) := by
    rw [revert, hrevert]
    rfl
  have hspec := instanceSet_spec allocator h hdata
    (reverting engine later isClass name (toValue type held))
  rw [hrequest, hrevert]
  constructor
  · rintro ⟨after, hset, hget⟩
    rw [hset] at hspec
    obtain ⟨hafter, ⟨other, value, hother, hsettled⟩, hexposed⟩ := hspec
    obtain rfl := Option.some.inj (htype.symm.trans hother)
    have hread := (instanceGet_accepted h hafter hexposed htype hsettled).symm.trans hget
    obtain ⟨hvalid, hsame⟩ := Prod.mk.inj (Option.some.inj hread)
    have hkept := (toVariant_settled_iff hsettled).mp (Prod.ext (Option.some.inj hsame) hvalid)
    refine ⟨fun object hobject ↦ ?_, hkept.symmetric⟩
    obtain ⟨live, rfl, hclass⟩ := fits_of_settled hsettled hobject
    exact ⟨live, rfl, hkept.live live hobject, hclass⟩
  · intro hrestorable
    obtain ⟨value, hsettled, hback⟩ := settled_default name hlossless hrestorable
    cases hset : instanceSet allocator descriptor tables data
        (reverting engine later isClass name (toValue type held)) with
    | none =>
      rw [hset] at hspec
      obtain ⟨other, hother, houtside⟩ := hspec
      obtain rfl := Option.some.inj (htype.symm.trans hother)
      exact absurd houtside (not_outsideOpenEnum_of_settled hsettled)
    | some result =>
      obtain ⟨accepted, after⟩ := result
      rw [hset] at hspec
      obtain ⟨hafter, hanswers, hexposed⟩ := hspec
      cases accepted with
      | false =>
        obtain ⟨text, -, hnone⟩ := hanswers type value htype hsettled
        exact absurd hnone (hmemory text.length)
      | true =>
        refine ⟨after, rfl, (instanceGet_accepted h hafter hexposed htype hsettled).trans ?_⟩
        rw [hback]

end Restoring

/-! ### A text that is changed -/

theorem string_eq {type : FieldType Empty ℕ} (htype : type ∈ some FieldType.string) :
    FieldType.string = type :=
  Option.some.inj htype

/-- A text that is `hi` by default. -/
def greetingField : ScriptField Empty ℕ where
  name := [97]
  type := some .string
  default := fun _ htype ↦ some (string_eq htype ▸ [104, 105])

/-- The script of two texts with this one for its first. -/
def greetingScript : Script Empty ℕ :=
  { textScript with
    fields := [greetingField, textField [98]]
    fieldNames := textNames }

theorem type_greetingScript {name : ByteString} {type : FieldType Empty ℕ}
    (htype : fieldType greetingScript name = some type) : type = .string := by
  obtain ⟨field, hfield, hfieldType⟩ := Option.bind_eq_some_iff.mp htype
  have hmem : field ∈ [greetingField, textField [98]] := List.mem_of_find?_eq_some hfield
  have hstring : field.type = some .string := by
    rcases List.mem_cons.mp hmem with rfl | hrest
    · rfl
    · obtain rfl := List.mem_singleton.mp hrest
      rfl
  exact Option.some.inj (hfieldType.symm.trans hstring)

/-- An instance whose texts are empty. -/
def emptyData : InstanceData Empty greetingScript where
  box := .create (fun _ ↦ none) fun _ _ htype ↦ type_greetingScript htype ▸ (⟨0, 0, 0⟩ : Slice)
  retainedObjects _ := .nil

theorem unshared_emptyData : Unshared emptyData.box := by
  refine ⟨valid_create ?_, fun index _ _ _ ⟨_, copy, _, hcopy, _⟩ ↦ ?_⟩
  · exact List.forall_mem_cons.mpr
      ⟨Option.some_ne_none _, List.forall_mem_singleton.mpr (Option.some_ne_none _)⟩
  · rw [Box.owned, emptyData, Box.create, Vector.getElem?_replicate] at hcopy
    split_ifs at hcopy <;> cases hcopy

theorem loaded_greetingScript : ∃ descriptor tables,
    Loaded replacingEngine Nat.repr id 0 greetingScript descriptor tables := by
  obtain ⟨descriptor, hcompiled, haccepted⟩ : ∃ descriptor,
      compile 0 greetingScript = .ok descriptor ∧
        (compiledLibrary descriptor).accepted = .ok descriptor := ⟨_, rfl, rfl⟩
  have hnames : ((exported greetingScript).map fun field ↦
      replacingEngine.ofUtf8 field.1).Nodup := by decide +kernel
  exact ⟨descriptor, exists_loaded hcompiled haccepted hnames⟩

/-- The text is set to `x` and reverted to `hi`. -/
theorem text_reverted : ∃ descriptor tables changed after,
    Loaded replacingEngine Nat.repr id 0 greetingScript descriptor tables ∧
      instanceSet twoBlocks descriptor tables emptyData setFirst =
        some (true, changed) ∧
      instanceGet replacingEngine tables changed "a" = some (true, some (.string "x")) ∧
      revert twoBlocks descriptor tables changed replacingEngine (fun object _ ↦ object.elim)
        "a" = some (true, after) ∧
      instanceGet replacingEngine tables after "a" = some (true, some (.string "hi")) := by
  obtain ⟨descriptor, tables, hloaded⟩ := loaded_greetingScript
  have hindex : indexNamed replacingEngine greetingScript setFirst.name = some 0 := by
    decide +kernel
  have htype : typeNamed replacingEngine greetingScript setFirst.name = some .string := by
    rw [typeNamed, hindex]
    rfl
  have hdefault : defaultNamed replacingEngine greetingScript "a" = some (.string [104, 105]) := by
    rw [defaultNamed, show indexNamed replacingEngine greetingScript "a" = some 0 from hindex]
    rfl
  obtain ⟨field, type, hfound⟩ := hloaded.exists_found hindex
  obtain rfl : ([97], {}) = field := Option.some.inj hfound.exported
  obtain rfl := type_greetingScript hfound.typed
  obtain ⟨changed, hset, hmemory⟩ : ∃ changed,
      setFound twoBlocks emptyData setFirst 0 [97] .string = some (true, changed) ∧
        ∀ length, twoBlocks changed.box.memory length ≠ none :=
    ⟨_, rfl, fun _ ↦ Option.some_ne_none _⟩
  rw [← instanceSet_found hfound] at hset
  have hspec := instanceSet_spec twoBlocks hloaded unshared_emptyData setFirst
  rw [hset] at hspec
  obtain ⟨hunshared, -, hexposed⟩ := hspec
  have hread : instanceGet replacingEngine tables changed "a" =
      some (true, some (.string "x")) := by
    have hsettled : settled (.string : FieldType Empty ℕ) setFirst =
        some (.string (replacingEngine.utf8 "x")) := rfl
    have haccepted := hexposed.trans (if_pos rfl)
    refine (instanceGet_accepted hloaded hunshared haccepted htype hsettled).trans ?_
    exact congrArg (fun text ↦ some (true, some (Variant.string text)))
      (replacingEngine.ofUtf8_utf8 "x")
  have hgreeting : instancePropertyGetRevert tables "a" = some (.string "hi") := by
    obtain ⟨held, hheld, -, hrevert⟩ := exists_default hloaded htype
    have hdecoded : replacingEngine.ofUtf8 [104, 105] = "hi" := by decide +kernel
    refine hrevert.trans ?_
    rw [← Option.some.inj (hdefault.symm.trans hheld), ← hdecoded]
    rfl
  have hrestored : ∃ after, revert twoBlocks descriptor tables changed replacingEngine
      (fun object _ ↦ object.elim) "a" = some (true, after) ∧
      instanceGet replacingEngine tables after "a" =
        some (true, instancePropertyGetRevert tables "a") := by
    refine (revert_restores_iff hmemory hloaded hunshared htype trivial hdefault).mpr ⟨?_, ?_⟩
    · intro object hobject
      cases hobject
    · intro transform htransform
      cases htransform
  obtain ⟨after, hrevert, hback⟩ := hrestored
  rw [hgreeting] at hback
  exact ⟨descriptor, tables, changed, after, hloaded, hset, hread, hrevert, hback⟩

end Gzscript.Abi.PropertyRevert
