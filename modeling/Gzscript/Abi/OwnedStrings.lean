import Gzscript.Abi.PropertyAccess
import Gzscript.Library.Transition

/-!
# The strings that an instance owns

A string property is set to a copy that the instance owns, and the copy before it is freed. The
script may have made another of its fields point into that copy. A property that is set is read back
as the value that was decoded, and another one is unchanged exactly if its text is not in the copy
that was freed (`consistentAccess_of_compile`). `shared_text_freed` is a script that loses a text in
this way.
-/

set_option autoImplicit false
set_option relaxedAutoImplicit false

namespace Gzscript.Abi.OwnedStrings

open Library.Bytes Library.Blocks Library.Transition
open Value Descriptor Inspector RawDescriptor FieldCodec
open CodecOutcomes Adapter AdapterLoad PropertyAccess

variable {F32 F64 : Type} {script : Script F32 F64}

/-- The text of a field is in the copy that the instance owns for a property. -/
def InCopy (box : Box script) (name : ByteString) (index : ℕ) : Prop :=
  ∃ slice copy, box.text name = some slice ∧ box.owned index = some copy ∧ Shares slice copy

/-- Every exported string of the instance can be read, and the copies that it owns are blocks of
their own, for string properties. -/
structure Valid (box : Box script) : Prop where
  readable : ∀ field ∈ exported script, box.value field.1 ≠ none
  isBlock : ∀ index copy, box.owned index = some copy → IsBlock box.memory copy
  ofString : ∀ index copy, box.owned index = some copy →
    ∃ field, (exported script)[index]? = some field ∧ fieldType script field.1 = some .string
  apart : ∀ first second firstCopy secondCopy, first ≠ second → box.owned first = some firstCopy →
    box.owned second = some secondCopy → ¬ Shares firstCopy secondCopy

/-! ### Fields -/

theorem load_congr {memory after : Memory UInt8} {type : FieldType F32 F64} {held : Stored type}
    (hsame : ∀ slice, slice? type held = some slice → read after slice = read memory slice) :
    load after type held = load memory type held := by
  cases type with
  | string => exact hsame held rfl
  | _ => rfl

theorem load_eq_none_iff {memory : Memory UInt8} {type : FieldType F32 F64} {held : Stored type}
    {slice : Slice} (hslice : slice? type held = some slice) :
    load memory type held = none ↔ read memory slice = none := by
  cases type with
  | string =>
    obtain rfl := Option.some.inj hslice
    exact Iff.rfl
  | _ => cases hslice

theorem load_stored {memory : Memory UInt8} {copy : Slice} {type : FieldType F32 F64}
    {converted : type.Carrier}
    (hcopy : ∀ text, text? type converted = some text → read memory copy = some text) :
    load memory type (stored copy type converted) = some converted := by
  cases type with
  | string => exact hcopy converted rfl
  | _ => rfl

theorem type_eq_string {type : FieldType F32 F64} {converted : type.Carrier} {text : ByteString}
    (htext : text? type converted = some text) : type = .string := by
  cases type with
  | string => rfl
  | _ => cases htext

variable {box after : Box script} {name : ByteString} {type : FieldType F32 F64}

theorem value_untyped (box : Box script) (htype : fieldType script name = none) :
    box.value name = none := by
  unfold Box.value
  split
  · rfl
  next found hfound =>
    rw [htype] at hfound
    cases hfound

theorem value_eq (box : Box script) (htype : fieldType script name = some type) :
    box.value name = (load box.memory type (box.fields name type htype)).map (toValue type) := by
  unfold Box.value
  split
  next hnone =>
    rw [hnone] at htype
    cases htype
  next found hfound =>
    obtain rfl := Option.some.inj (hfound.symm.trans htype)
    rfl

theorem text_eq (box : Box script) (htype : fieldType script name = some type) :
    box.text name = slice? type (box.fields name type htype) := by
  unfold Box.text
  split
  next hnone =>
    rw [hnone] at htype
    cases htype
  next found hfound =>
    obtain rfl := Option.some.inj (hfound.symm.trans htype)
    rfl

theorem exists_type_of_value (hvalue : box.value name ≠ none) :
    ∃ type, fieldType script name = some type :=
  Option.ne_none_iff_exists'.mp fun hnone ↦ hvalue (value_untyped box hnone)

/-- A field holds the same in two instances. -/
def SameField (box after : Box script) (name : ByteString) : Prop :=
  ∀ type htype, after.fields name type htype = box.fields name type htype

theorem SameField.value_eq (hsame : SameField box after name)
    (hread : ∀ slice, box.text name = some slice →
      read after.memory slice = read box.memory slice) :
    after.value name = box.value name := by
  cases htype : fieldType script name with
  | none => rw [value_untyped after htype, value_untyped box htype]
  | some type =>
    rw [OwnedStrings.value_eq after htype, OwnedStrings.value_eq box htype, hsame type htype]
    rw [text_eq box htype] at hread
    rw [load_congr hread]

theorem SameField.value_eq_none (hsame : SameField box after name) {slice : Slice}
    (htext : box.text name = some slice) (hlost : read after.memory slice = none) :
    after.value name = none := by
  cases htype : fieldType script name with
  | none => exact value_untyped after htype
  | some type =>
    rw [text_eq box htype] at htext
    rw [OwnedStrings.value_eq after htype, hsame type htype, (load_eq_none_iff htext).mpr hlost]
    rfl

theorem exists_read_of_text {slice : Slice} (hvalue : box.value name ≠ none)
    (htext : box.text name = some slice) : ∃ contents, read box.memory slice = some contents := by
  obtain ⟨type, htype⟩ := exists_type_of_value hvalue
  rw [text_eq box htype] at htext
  rw [value_eq box htype] at hvalue
  refine Option.ne_none_iff_exists'.mp fun hnone ↦ hvalue ?_
  rw [(load_eq_none_iff htext).mpr hnone]
  rfl

section Assign

variable (htype : fieldType script name = some type) (held : Stored type)

theorem fields_assign_self : (box.assign name type htype held).fields name type htype = held :=
  dif_pos rfl

theorem sameField_assign {other : ByteString} (hne : other ≠ name) :
    SameField box (box.assign name type htype held) other :=
  fun _ _ ↦ dif_neg hne

end Assign

/-! ### Writing a field -/

/-- A field has been set to a value of its type. -/
structure Written (box after : Box script) (name : ByteString) (index : ℕ)
    (type : FieldType F32 F64) (converted : type.Carrier) : Prop where
  value : after.value name = some (toValue type converted)
  others : ∀ other, other ≠ name → SameField box after other
  plain : text? type converted = none →
    after.memory = box.memory ∧ after.ownedStrings = box.ownedStrings
  text : ∀ text, text? type converted = some text → ∃ copy,
    Replaced box.memory (box.owned index) text copy after.memory ∧
      after.ownedStrings = box.ownedStrings.setIfInBounds index (some copy)

section Write

variable {allocator : Allocator UInt8} {index : ℕ} {status : Status} {value : GzValue F32 F64}
  {htype : fieldType script name = some type} {converted : type.Carrier}

theorem value_of_fields {copy : Slice}
    (hfields : after.fields name type htype = stored copy type converted)
    (hcopy : ∀ text, text? type converted = some text → read after.memory copy = some text) :
    after.value name = some (toValue type converted) := by
  rw [value_eq after htype, hfields, load_stored hcopy]
  rfl

theorem written_replaceField (hblock : ∀ copy ∈ box.owned index, IsBlock box.memory copy)
    (hwrite : replaceField allocator box name index type htype converted = (.ok, after)) :
    Written box after name index type converted := by
  unfold replaceField at hwrite
  split at hwrite
  next hplain =>
    obtain ⟨-, rfl⟩ := Prod.mk.inj hwrite
    refine ⟨?_, fun other ↦ sameField_assign htype _, fun _ ↦ ⟨rfl, rfl⟩, ?_⟩
    · refine value_of_fields (fields_assign_self htype _) fun text htext ↦ ?_
      rw [hplain] at htext
      cases htext
    · intro text htext
      rw [hplain] at htext
      cases htext
  next text htext =>
    split at hwrite
    · cases hwrite
    next replacement memory hreplace =>
      have hreplaced := replaced_replace hblock hreplace
      obtain ⟨-, rfl⟩ := Prod.mk.inj hwrite
      refine ⟨?_, fun other ↦ sameField_assign htype _, ?_, ?_⟩
      · refine value_of_fields (fields_assign_self htype _) fun other hother ↦ ?_
        obtain rfl := Option.some.inj (htext.symm.trans hother)
        exact hreplaced.read
      · intro hplain
        rw [hplain] at htext
        cases htext
      · intro other hother
        obtain rfl := Option.some.inj (htext.symm.trans hother)
        exact ⟨replacement, hreplaced, rfl⟩

theorem replaceField_of_ne_ok
    (hwrite : replaceField allocator box name index type htype converted = (status, after))
    (hstatus : status ≠ .ok) : after = box := by
  unfold replaceField at hwrite
  split at hwrite
  · exact absurd (congrArg Prod.fst hwrite).symm hstatus
  · split at hwrite
    · exact (congrArg Prod.snd hwrite).symm
    · exact absurd (congrArg Prod.fst hwrite).symm hstatus

/-- A field is set to a value that was decoded, or nothing happens. -/
theorem setField_cases (hset : setField allocator box name index value = some (status, after)) :
    (∃ type htype converted, decode type value = .value converted ∧
      replaceField allocator box name index type htype converted = (status, after)) ∨
        status = .typeMismatch ∧ after = box := by
  unfold setField at hset
  split at hset
  · cases hset
  next type htype =>
    split at hset
    · cases hset
    · obtain ⟨rfl, rfl⟩ := Prod.mk.inj (Option.some.inj hset)
      exact Or.inr ⟨rfl, rfl⟩
    next converted hdecode =>
      exact Or.inl ⟨type, htype, converted, hdecode, Option.some.inj hset⟩

theorem setField_of_ne_ok (hset : setField allocator box name index value = some (status, after))
    (hstatus : status ≠ .ok) : after = box := by
  rcases setField_cases hset with ⟨type, htype, converted, -, hwrite⟩ | ⟨-, hsame⟩
  · exact replaceField_of_ne_ok hwrite hstatus
  · exact hsame

theorem written_setField (hblock : ∀ copy ∈ box.owned index, IsBlock box.memory copy)
    (hset : setField allocator box name index value = some (.ok, after)) :
    ∃ type converted, fieldType script name = some type ∧ decode type value = .value converted ∧
      Written box after name index type converted := by
  rcases setField_cases hset with ⟨type, htype, converted, hdecode, hwrite⟩ | ⟨hstatus, -⟩
  · exact ⟨type, converted, htype, hdecode, written_replaceField hblock hwrite⟩
  · cases hstatus

end Write

/-! ### The other properties -/

section Others

variable {index : ℕ} {field other : ByteString × Property F64} {converted : type.Carrier}

/-- An instance owns no copy for a property that is no string. -/
theorem Valid.owned_eq_none (hvalid : Valid box) (hfield : (exported script)[index]? = some field)
    (htype : fieldType script field.1 = some type) (hplain : text? type converted = none) :
    box.owned index = none := by
  refine Option.eq_none_iff_forall_ne_some.mpr fun copy hcopy ↦ ?_
  obtain ⟨found, hfound, hstring⟩ := hvalid.ofString index copy hcopy
  obtain rfl := Option.some.inj (hfound.symm.trans hfield)
  obtain rfl := Option.some.inj (hstring.symm.trans htype)
  cases hplain

theorem value_eq_iff (hvalid : Valid box) (hfield : (exported script)[index]? = some field)
    (htype : fieldType script field.1 = some type)
    (hwritten : Written box after field.1 index type converted)
    (hother : other ∈ exported script) (hne : other.1 ≠ field.1) :
    after.value other.1 = box.value other.1 ↔ ¬ InCopy box other.1 index := by
  have hsame := hwritten.others other.1 hne
  cases htext : text? type converted with
  | none =>
    have hnone := hvalid.owned_eq_none hfield htype htext
    have hnot : ¬ InCopy box other.1 index := by
      rintro ⟨slice, copy, -, hcopy, -⟩
      rw [hnone] at hcopy
      cases hcopy
    refine iff_of_true (hsame.value_eq fun slice _ ↦ ?_) hnot
    rw [(hwritten.plain htext).1]
  | some text =>
    obtain ⟨copy, hreplaced, -⟩ := hwritten.text text htext
    constructor
    · rintro hvalue ⟨slice, owned, hslice, howned, hshares⟩
      rw [hsame.value_eq_none hslice (hreplaced.lost slice owned howned hshares)] at hvalue
      exact hvalid.readable other hother hvalue.symm
    · intro hnot
      refine hsame.value_eq fun slice hslice ↦ ?_
      obtain ⟨contents, hread⟩ := exists_read_of_text (hvalid.readable other hother) hslice
      rw [hread, hreplaced.kept_iff hread]
      exact fun owned howned hshares ↦ hnot ⟨slice, owned, hslice, howned, hshares⟩

/-- The copies that an instance owns after one was replaced. -/
theorem owned_replaced {copy found : Slice} {place : ℕ}
    (hset : after.ownedStrings = box.ownedStrings.setIfInBounds index (some copy))
    (hfound : after.owned place = some found) :
    place = index ∧ found = copy ∨ place ≠ index ∧ box.owned place = some found := by
  rw [Box.owned, hset, Vector.getElem?_setIfInBounds] at hfound
  split_ifs at hfound with hsame hbound
  · exact Or.inl ⟨hsame.symm, (Option.some.inj hfound).symm⟩
  · cases hfound
  · exact Or.inr ⟨fun heq ↦ hsame heq.symm, hfound⟩

/-- An instance stays valid if no other property has its text in the copy that is freed. -/
theorem Valid.written (hvalid : Valid box) (hfield : (exported script)[index]? = some field)
    (htype : fieldType script field.1 = some type)
    (hwritten : Written box after field.1 index type converted)
    (hkept : ∀ other ∈ exported script, other.1 ≠ field.1 → ¬ InCopy box other.1 index) :
    Valid after := by
  have hreadable : ∀ other ∈ exported script, after.value other.1 ≠ none := by
    intro other hother
    by_cases hsame : other.1 = field.1
    · rw [hsame, hwritten.value]
      exact Option.some_ne_none _
    · rw [(value_eq_iff hvalid hfield htype hwritten hother hsame).mpr (hkept other hother hsame)]
      exact hvalid.readable other hother
  cases htext : text? type converted with
  | none =>
    obtain ⟨hmemory, howned⟩ := hwritten.plain htext
    have hcopies : after.owned = box.owned := by
      unfold Box.owned
      rw [howned]
    refine ⟨hreadable, ?_, ?_, ?_⟩
    · rw [hmemory, hcopies]
      exact hvalid.isBlock
    · rw [hcopies]
      exact hvalid.ofString
    · rw [hcopies]
      exact hvalid.apart
  | some text =>
    obtain ⟨copy, hreplaced, hset⟩ := hwritten.text text htext
    have hblock : ∀ place found, place ≠ index → box.owned place = some found →
        IsBlock after.memory found := by
      intro place found hne hfound
      refine hreplaced.isBlock_of_isBlock (hvalid.isBlock place found hfound) ?_
      exact fun owned howned ↦ hvalid.apart place index found owned hne hfound howned
    refine ⟨hreadable, ?_, ?_, ?_⟩
    · intro place found hfound
      rcases owned_replaced hset hfound with ⟨-, rfl⟩ | ⟨hne, hold⟩
      · exact hreplaced.isBlock
      · exact hblock place found hne hold
    · intro place found hfound
      rcases owned_replaced hset hfound with ⟨rfl, -⟩ | ⟨-, hold⟩
      · exact ⟨field, hfield, type_eq_string htext ▸ htype⟩
      · exact hvalid.ofString place found hold
    · intro first second firstCopy secondCopy hne hfirst hsecond
      rcases owned_replaced hset hfirst with ⟨rfl, rfl⟩ | ⟨-, hfirstOld⟩
      · rcases owned_replaced hset hsecond with ⟨rfl, -⟩ | ⟨-, hsecondOld⟩
        · exact absurd rfl hne
        · exact fun hshares ↦ hreplaced.not_shares (hvalid.isBlock second secondCopy hsecondOld)
            hshares.symm
      · rcases owned_replaced hset hsecond with ⟨rfl, rfl⟩ | ⟨-, hsecondOld⟩
        · exact hreplaced.not_shares (hvalid.isBlock first firstCopy hfirstOld)
        · exact hvalid.apart first second firstCopy secondCopy hne hfirstOld hsecondOld

end Others

theorem valid_create {memory : Memory UInt8} {fields : (name : ByteString) →
    (type : FieldType F32 F64) → fieldType script name = some type → Stored type}
    (hreadable : ∀ field ∈ exported script, (Box.create memory fields).value field.1 ≠ none) :
    Valid (Box.create memory fields) := by
  have hnone : ∀ index, (Box.create memory fields).owned index = none := by
    intro index
    rw [Box.owned, Box.create, Vector.getElem?_replicate]
    split_ifs <;> rfl
  refine ⟨hreadable, ?_, ?_, ?_⟩
  · intro index copy hcopy
    rw [hnone] at hcopy
    cases hcopy
  · intro index copy hcopy
    rw [hnone] at hcopy
    cases hcopy
  · intro first second firstCopy secondCopy hne hfirst
    rw [hnone] at hfirst
    cases hfirst

/-! ### Access to the properties of a compiled script -/

/-- An outcome that is not a success leaves the instance as it was. -/
theorem setProperty_of_ne_ok {allocator : Allocator UInt8} {pointer next : Option (Box script)}
    {index : UInt32} {value : GzValue F32 F64} {status : Status}
    (hset : setProperty allocator pointer index value = some (status, next))
    (hstatus : status ≠ .ok) : next = pointer := by
  unfold setProperty at hset
  split at hset
  · exact (congrArg Prod.snd (Option.some.inj hset)).symm
  next box =>
    rw [accessExports_eq] at hset
    cases hfield : fieldAt script index with
    | none =>
      rw [hfield] at hset
      exact (congrArg Prod.snd (Option.some.inj hset)).symm
    | some field =>
      rw [hfield, Option.map_some] at hset
      cases hfieldSet : setField allocator box field.1 index.toNat value with
      | none =>
        rw [hfieldSet] at hset
        cases hset
      | some result =>
        rw [hfieldSet] at hset
        obtain ⟨rfl, rfl⟩ := Prod.mk.inj (Option.some.inj hset)
        rw [setField_of_ne_ok hfieldSet hstatus]

theorem exists_of_setProperty_ok {allocator : Allocator UInt8} {next : Option (Box script)}
    {index : UInt32} {value : GzValue F32 F64}
    (hset : setProperty allocator (some box) index value = some (.ok, next)) :
    ∃ field after, fieldAt script index = some field ∧ next = some after ∧
      setField allocator box field.1 index.toNat value = some (.ok, after) := by
  cases hfield : fieldAt script index with
  | none =>
    rw [setProperty, accessExports_eq, hfield] at hset
    cases hset
  | some field =>
    rw [setProperty_eq allocator box hfield] at hset
    obtain ⟨⟨status, after⟩, hfieldSet, hresult⟩ := Option.map_eq_some_iff.mp hset
    obtain ⟨rfl, rfl⟩ := Prod.mk.inj hresult
    exact ⟨field, after, rfl, rfl, hfieldSet⟩

theorem name_ne_of_index_ne (hnodup : ((exported script).map Prod.fst).Nodup)
    {index other : UInt32} {field otherField : ByteString × Property F64}
    (hfield : fieldAt script index = some field)
    (hother : fieldAt script other = some otherField) (hne : other ≠ index) :
    otherField.1 ≠ field.1 := by
  intro hname
  have hnames : ((exported script).map Prod.fst)[other.toNat]? =
      ((exported script).map Prod.fst)[index.toNat]? := by
    rw [List.getElem?_map, List.getElem?_map, ← fieldAt, ← fieldAt, hfield, hother]
    exact congrArg some hname
  have hbound : other.toNat < ((exported script).map Prod.fst).length := by
    rw [List.length_map]
    exact (List.getElem?_eq_some_iff.mp hother).1
  exact hne (UInt32.toNat_inj.mp ((List.getElem?_inj hbound hnodup).mp hnames))

/-- A property was set to a value: it is read back as the value that was decoded, and another
property is unchanged unless its text is in the copy that was freed. -/
structure Sets (box after : Box script) (index : UInt32) (field : ByteString × Property F64)
    (value : GzValue F32 F64) : Prop where
  set : ∃ type decoded, fieldType script field.1 = some type ∧
    decode type value = .value decoded ∧
      getProperty (some after) index = .ok (some (toValue type decoded))
  others : ∀ other otherField, other ≠ index → fieldAt script other = some otherField →
    (getProperty (some after) other = getProperty (some box) other ↔
      ¬ InCopy box otherField.1 index.toNat)

/-- The properties of a compiled script are counted, described, shown, read and written alike. -/
structure ConsistentAccess (zero : F64) (script : Script F32 F64)
    (descriptor : RawScriptDescriptor F32 F64) : Prop where
  propertyCount : descriptor.properties.list.length = exportCount script.exports
  entryCount : descriptor.inspectorEntries.list.length = inspectorEntryCount script.exports
  fieldCount : (exported script).length = exportCount script.exports
  distinct : ((exported script).map Prod.fst).Nodup
  concerns : ∀ index field, fieldAt script index = some field →
    Concerns zero script descriptor index field
  sets : ∀ allocator (box : Box script) index value next, Valid box →
    setProperty allocator (some box) index value = some (.ok, next) →
      ∃ field after, fieldAt script index = some field ∧ next = some after ∧
        Sets box after index field value
  unchanged : ∀ allocator (pointer : Option (Box script)) index value status next,
    setProperty allocator pointer index value = some (status, next) → status ≠ .ok →
      next = pointer

section Compiled

variable {zero : F64} {descriptor : RawScriptDescriptor F32 F64}

theorem sets_of_written (hvalid : Valid box) (hnodup : ((exported script).map Prod.fst).Nodup)
    {index : UInt32} {field : ByteString × Property F64} {value : GzValue F32 F64}
    {converted : type.Carrier} (hfield : fieldAt script index = some field)
    (htype : fieldType script field.1 = some type) (hdecode : decode type value = .value converted)
    (hwritten : Written box after field.1 index.toNat type converted) :
    Sets box after index field value := by
  refine ⟨⟨type, converted, htype, hdecode, ?_⟩, fun other otherField hne hother ↦ ?_⟩
  · rw [getProperty_eq after hfield, hwritten.value]
  · have hname := name_ne_of_index_ne hnodup hfield hother hne
    have hmem := List.mem_of_getElem? hother
    rw [getProperty_eq after hother, getProperty_eq box hother, Except.ok.injEq]
    exact value_eq_iff hvalid hfield htype hwritten hmem hname

theorem consistentAccess_of_compile (hcompiled : compile zero script = .ok descriptor) :
    ConsistentAccess zero script descriptor := by
  have hfrom := compiledFrom_of_compile hcompiled
  have hnodup := nodup_exported hfrom.properties
  constructor
  case propertyCount => exact length_buildProperties zero script hfrom.properties
  case entryCount => exact length_buildInspectorEntries hfrom.entries
  case fieldCount => exact length_exported hfrom
  case distinct => exact hnodup
  case concerns => exact fun index field hfield ↦ concerns_of_compiled hfrom hfield
  case sets =>
    intro allocator box index value next hvalid hset
    obtain ⟨field, after, hfield, rfl, hfieldSet⟩ := exists_of_setProperty_ok hset
    obtain ⟨type, converted, htype, hdecode, hwritten⟩ :=
      written_setField (fun copy hcopy ↦ hvalid.isBlock index.toNat copy hcopy) hfieldSet
    exact ⟨field, after, hfield, rfl,
      sets_of_written hvalid hnodup hfield htype hdecode hwritten⟩
  case unchanged =>
    exact fun allocator pointer index value status next ↦ setProperty_of_ne_ok

/-- An instance stays valid when a property is set, if the texts of the others are elsewhere. -/
theorem Valid.setProperty (hvalid : Valid box) {allocator : Allocator UInt8} {index : UInt32}
    {value : GzValue F32 F64}
    (hset : PropertyAccess.setProperty allocator (some box) index value = some (.ok, some after))
    (hkept : ∀ other ∈ exported script, fieldAt script index ≠ some other →
      ¬ InCopy box other.1 index.toNat) : Valid after := by
  obtain ⟨field, next, hfield, hnext, hfieldSet⟩ := exists_of_setProperty_ok hset
  obtain rfl := Option.some.inj hnext
  obtain ⟨type, converted, htype, -, hwritten⟩ :=
    written_setField (fun copy hcopy ↦ hvalid.isBlock index.toNat copy hcopy) hfieldSet
  refine hvalid.written hfield htype hwritten fun other hother hne ↦ hkept other hother ?_
  rw [hfield]
  exact fun hsame ↦ hne (congrArg Prod.fst (Option.some.inj hsame)).symm

end Compiled

/-! ### Runs of an instance -/

/-- What happens to an instance: a property is set, or the script's own code runs, which leaves some
memory and some fields. -/
inductive Operation (script : Script F32 F64)
  | set (index : UInt32) (value : GzValue F32 F64)
  | script (memory : Memory UInt8) (fields : (name : ByteString) → (type : FieldType F32 F64) →
      fieldType script name = some type → Stored type)

def step (allocator : Allocator UInt8) (box : Box script) : Operation script → Box script
  | .set index value =>
    match setProperty allocator (some box) index value with
    | some (_, some after) => after
    | _ => box
  | .script memory fields => { box with memory := memory, fields := fields }

/-- No exported text is left without memory: not in a copy that is freed, and not by the script,
which does not touch the copies. -/
def Keeps (box : Box script) : Operation script → Prop
  | .set index _ =>
    ∀ other ∈ exported script, fieldAt script index ≠ some other → ¬ InCopy box other.1 index.toNat
  | .script memory fields =>
    (∀ index copy, box.owned index = some copy → IsBlock memory copy) ∧
      ∀ field ∈ exported script, ({ box with memory, fields } : Box script).value field.1 ≠ none

theorem Valid.step {allocator : Allocator UInt8} (box : Box script) (operation : Operation script)
    (hkeeps : Keeps box operation) (hvalid : Valid box) :
    Valid (step allocator box operation) := by
  cases operation with
  | script memory fields => exact ⟨hkeeps.2, hkeeps.1, hvalid.ofString, hvalid.apart⟩
  | set index value =>
    simp only [OwnedStrings.step]
    split
    next status after hset =>
      by_cases hok : status = .ok
      · rw [hok] at hset
        exact hvalid.setProperty hset hkeeps
      · obtain rfl := Option.some.inj (setProperty_of_ne_ok hset hok)
        exact hvalid
    · exact hvalid

/-- An instance is valid after every run that leaves no exported text without memory. -/
theorem valid_exec {allocator : Allocator UInt8} {operations : List (Operation script)}
    (hkeeps : Along (step allocator) Keeps box operations) (hvalid : Valid box) :
    Valid (exec (step allocator) box operations) :=
  exec_along (step allocator) Keeps Valid Valid.step hkeeps hvalid

/-! ### A script that shares a text -/

/-- A text that is empty by default. -/
def textField (name : ByteString) : ScriptField Empty ℕ where
  name := name
  type := some .string
  default := fun _ htype ↦ some (Option.some.inj htype ▸ [])

theorem textNames : FieldNames ([textField [97], textField [98]].map ScriptField.name) :=
  ⟨by decide, by decide⟩

theorem noNames : FieldNames (([] : List (Signal Empty ℕ)).map Signal.name) :=
  ⟨List.nodup_nil, fun _ hname ↦ absurd hname List.not_mem_nil⟩

/-- A script that exports two texts under a heading. -/
def textScript : Script Empty ℕ where
  godotClass := [78]
  declares := fun _ ↦ false
  fields := [textField [97], textField [98]]
  fieldNames := textNames
  exports := .ordered [.category { name := [67] }, .field [97] {}, .field [98] {}]
  signals := []
  signalNames := noNames

theorem type_textScript {name : ByteString} {type : FieldType Empty ℕ}
    (htype : fieldType textScript name = some type) : type = .string := by
  obtain ⟨field, hfield, hfieldType⟩ := Option.bind_eq_some_iff.mp htype
  have hmem : field ∈ [textField [97], textField [98]] := List.mem_of_find?_eq_some hfield
  have hstring : field.type = some .string := by
    rcases List.mem_cons.mp hmem with rfl | hrest
    · rfl
    · obtain rfl := List.mem_singleton.mp hrest
      rfl
  exact Option.some.inj (hfieldType.symm.trans hstring)

/-- An allocator that has two blocks. -/
def twoBlocks : Allocator UInt8 := fun memory _ ↦
  if hfirst : memory 1 = none then some ⟨1, hfirst⟩
  else if hsecond : memory 2 = none then some ⟨2, hsecond⟩ else none

/-- An instance with the two defaults. -/
def newBox : Box textScript :=
  .create (fun _ ↦ none) fun _ _ htype ↦ type_textScript htype ▸ (⟨0, 0, 0⟩ : Slice)

/-- Its first text is set to `x`. -/
def setText : Operation textScript := .set 0 (.string [120])

/-- The script lets its second text be the first. -/
def shareText : Operation textScript :=
  .script (step twoBlocks newBox setText).memory fun _ _ htype ↦
    type_textScript htype ▸ (step twoBlocks newBox setText).fields [97] .string rfl

/-- The instance afterwards. -/
def sharedBox : Box textScript := exec (step twoBlocks) newBox [setText, shareText]

theorem exported_textScript {property : ByteString × Property ℕ → Prop}
    (hfirst : property ([97], {})) (hsecond : property ([98], {})) :
    ∀ field ∈ exported textScript, property field :=
  List.forall_mem_cons.mpr ⟨hfirst, List.forall_mem_singleton.mpr hsecond⟩

theorem valid_newBox : Valid newBox :=
  valid_create (exported_textScript (Option.some_ne_none _) (Option.some_ne_none _))

theorem keeps_setText : Keeps newBox setText := by
  rintro other - - ⟨slice, copy, -, hcopy, -⟩
  cases hcopy

theorem valid_sharedBox : Valid sharedBox := by
  refine valid_exec ⟨keeps_setText, ⟨?_, ?_⟩, trivial⟩ valid_newBox
  · exact (valid_newBox.step newBox setText keeps_setText).isBlock
  · exact exported_textScript (Option.some_ne_none _) (Option.some_ne_none _)

/-- When the first text of that instance is set again, the second cannot be read any more. -/
theorem shared_text_freed : ∃ descriptor after, compile 0 textScript = .ok descriptor ∧
    Valid sharedBox ∧
      setProperty twoBlocks (some sharedBox) 0 (.string [121]) = some (.ok, some after) ∧
        getProperty (some sharedBox) 1 = .ok (some (.string [120])) ∧
          getProperty (some after) 1 = .ok none :=
  ⟨_, _, rfl, valid_sharedBox, rfl, rfl, rfl⟩

/-- The script is compiled, and its properties are consistent. -/
theorem consistentAccess_textScript : ∃ descriptor, compile 0 textScript = .ok descriptor ∧
    ConsistentAccess 0 textScript descriptor :=
  ⟨_, rfl, consistentAccess_of_compile rfl⟩

end Gzscript.Abi.OwnedStrings
