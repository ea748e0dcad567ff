import Gzscript.Abi.AdapterLoad
import Gzscript.Abi.CodecOutcomes
import Gzscript.Library.Blocks
import Mathlib.Data.List.Nodup

/-!
# The properties of an instance

The adapter reads and writes an instance's exported fields by index. The index runs over the fields
among the exports in the tables of the descriptor and in each access, in both forms of a
declaration, and so it means one field everywhere (`concerns_of_compiled`).
-/

set_option autoImplicit false
set_option relaxedAutoImplicit false

namespace Gzscript.Abi.PropertyAccess

open Library.Bytes Library.Blocks Value Descriptor Inspector RawDescriptor FieldCodec
open CodecOutcomes Adapter AdapterLoad

variable {F32 F64 : Type}

/-! ### What an instance holds -/

/-- What a field has in memory: a string is a slice. -/
abbrev Stored : FieldType F32 F64 → Type
  | .string => Slice
  | type => type.Carrier

/-- The value of a field; a string cannot be read when its memory is not in use. -/
def load (memory : Memory UInt8) : (type : FieldType F32 F64) → Stored type → Option type.Carrier
  | .bool, value => some value
  | .int _, value => some value
  | .enum _, value => some value
  | .float _, value => some value
  | .string, slice => read memory slice
  | .vector2 _ _, value => some value
  | .vector3 _ _ _, value => some value
  | .color, value => some value
  | .transform2d, value => some value
  | .transform3d, value => some value
  | .rect2, value => some value
  | .object _, owner => some owner
  | .optional _, owner => some owner

/-- What a field holds for a value. A string is in a copy. -/
def stored (copy : Slice) : (type : FieldType F32 F64) → type.Carrier → Stored type
  | .bool, value => value
  | .int _, value => value
  | .enum _, value => value
  | .float _, value => value
  | .string, _ => copy
  | .vector2 _ _, value => value
  | .vector3 _ _ _, value => value
  | .color, value => value
  | .transform2d, value => value
  | .transform3d, value => value
  | .rect2, value => value
  | .object _, owner => owner
  | .optional _, owner => owner

/-- The text of a string. -/
def text? : (type : FieldType F32 F64) → type.Carrier → Option ByteString
  | .string, text => some text
  | _, _ => none

/-- The slice that a field of a string has. -/
def slice? : (type : FieldType F32 F64) → Stored type → Option Slice
  | .string, slice => some slice
  | _, _ => none

variable {script : Script F32 F64}

/-- An instance, with the memory around it. -/
structure Box (script : Script F32 F64) where
  memory : Memory UInt8
  fields : (name : ByteString) → (type : FieldType F32 F64) →
    fieldType script name = some type → Stored type
  ownedStrings : Vector (Option Slice) (exportCount script.exports)

namespace Box

/-- A new instance, with what the script's `init` returned. -/
def create (memory : Memory UInt8) (fields : (name : ByteString) → (type : FieldType F32 F64) →
    fieldType script name = some type → Stored type) : Box script where
  memory := memory
  fields := fields
  ownedStrings := Vector.replicate _ none

/-- `toValue` of a field, as it is read afterwards. -/
def value (box : Box script) (name : ByteString) : Option (GzValue F32 F64) :=
  match htype : fieldType script name with
  | none => none
  | some type => (load box.memory type (box.fields name type htype)).map (toValue type)

/-- An assignment to a field. -/
def assign (box : Box script) (name : ByteString) (type : FieldType F32 F64)
    (htype : fieldType script name = some type) (held : Stored type) : Box script where
  memory := box.memory
  fields := fun other otherType hother ↦
    if hname : other = name then
      Option.some.inj (htype.symm.trans (hname ▸ hother)) ▸ held
    else box.fields other otherType hother
  ownedStrings := box.ownedStrings

/-- The copy that the instance owns for a property. -/
def owned (box : Box script) (index : ℕ) : Option Slice := box.ownedStrings[index]?.join

/-- The slice in the field of a string. -/
def text (box : Box script) (name : ByteString) : Option Slice :=
  match htype : fieldType script name with
  | none => none
  | some type => slice? type (box.fields name type htype)

end Box

/-! ### Access by index -/

inductive Status
  | ok | invalidArgument | propertyNotFound | typeMismatch | outOfMemory
  deriving DecidableEq

section Access

variable {R : Type*} (access : ByteString → ℕ → R) (propertyIndex : ℕ)

/-- The loop over a tuple, which ends at the field with the index of the property. -/
def orderedAccess : ℕ → List (ExportEntry F64) → Option R
  | _, [] => none
  | index, .field name _ :: entries =>
    if propertyIndex = index then some (access name index)
    else orderedAccess (index + 1) entries
  | index, _ :: entries => orderedAccess index entries

/-- The loop over a struct. -/
def structAccess : ℕ → List (ByteString × Property F64) → Option R
  | _, [] => none
  | index, (name, _) :: fields =>
    if propertyIndex = index then some (access name index) else structAccess (index + 1) fields

def accessExports : Exports F64 → Option R
  | .none => none
  | .ordered entries => orderedAccess access propertyIndex 0 entries
  | .struct fields _ => structAccess access propertyIndex 0 fields

end Access

def getProperty (pointer : Option (Box script)) (propertyIndex : UInt32) :
    Except Status (Option (GzValue F32 F64)) :=
  match pointer with
  | none => .error .invalidArgument
  | some box =>
    match accessExports (fun name _ ↦ box.value name) propertyIndex.toNat script.exports with
    | none => .error .propertyNotFound
    | some value => .ok value

/-- Sets a field to a value that was converted to its type. A string is copied, and then the copy
before it is freed. -/
def replaceField (allocator : Allocator UInt8) (box : Box script) (name : ByteString) (index : ℕ)
    (type : FieldType F32 F64) (htype : fieldType script name = some type)
    (converted : type.Carrier) : Status × Box script :=
  match text? type converted with
  | none => (.ok, box.assign name type htype (stored ⟨0, 0, 0⟩ type converted))
  | some text =>
    match replace allocator box.memory (box.owned index) text with
    | none => (.outOfMemory, box)
    | some (replacement, memory) =>
      (.ok,
        { box.assign name type htype (stored replacement type converted) with
          memory := memory
          ownedStrings := box.ownedStrings.setIfInBounds index (some replacement) })

/-- Nothing is returned where decoding ends in an illegal cast. -/
def setField (allocator : Allocator UInt8) (box : Box script) (name : ByteString) (index : ℕ)
    (value : GzValue F32 F64) : Option (Status × Box script) :=
  match htype : fieldType script name with
  -- Such a script does not compile.
  | none => none
  | some type =>
    match decode type value with
    | .illegalCast => none
    | .error _ => some (.typeMismatch, box)
    | .value converted => some (replaceField allocator box name index type htype converted)

def setProperty (allocator : Allocator UInt8) (pointer : Option (Box script))
    (propertyIndex : UInt32) (value : GzValue F32 F64) : Option (Status × Option (Box script)) :=
  match pointer with
  | none => some (.invalidArgument, none)
  | some box =>
    match accessExports (fun name index ↦ setField allocator box name index value)
        propertyIndex.toNat script.exports with
    | none => some (.propertyNotFound, some box)
    | some none => none
    | some (some (status, after)) => some (status, some after)

/-! ### One field for an index -/

/-- The exported fields in declaration order. -/
def exported (script : Script F32 F64) : List (ByteString × Property F64) :=
  exportedFields (layout script.exports)

/-- The exported field with an index. -/
def fieldAt (script : Script F32 F64) (index : UInt32) : Option (ByteString × Property F64) :=
  (exported script)[index.toNat]?

section Access

variable {R : Type*} (access : ByteString → ℕ → R)

theorem orderedAccess_eq (index offset : ℕ) (entries : List (ExportEntry F64)) :
    orderedAccess access (index + offset) index entries =
      (exportedFields entries)[offset]?.map fun field ↦ access field.1 (index + offset) := by
  induction entries generalizing index offset with
  | nil => rfl
  | cons entry entries ih =>
    cases entry with
    | field name property =>
      cases offset with
      | zero => exact if_pos rfl
      | succ offset =>
        have hne : ¬ index + (offset + 1) = index := by omega
        have hrest := ih (index + 1) offset
        rw [Nat.add_assoc, Nat.add_comm 1] at hrest
        rw [orderedAccess, if_neg hne, hrest]
        rfl
    | category marker => exact ih index offset
    | group marker => exact ih index offset
    | subgroup marker => exact ih index offset

/-- The loop over a struct is the loop over the tuple of its fields. -/
theorem structAccess_eq (propertyIndex index : ℕ) (fields : List (ByteString × Property F64)) :
    structAccess access propertyIndex index fields = orderedAccess access propertyIndex index
      (fields.map fun field ↦ .field field.1 field.2) := by
  induction fields generalizing index with
  | nil => rfl
  | cons field fields ih =>
    rw [structAccess, ih, List.map_cons, orderedAccess]

theorem exportedFields_map (fields : List (ByteString × Property F64)) :
    exportedFields (fields.map fun field ↦ .field field.1 field.2) = fields := by
  induction fields with
  | nil => rfl
  | cons field fields ih => exact congrArg (field :: ·) ih

/-- Both loops end at the exported field with the index. -/
theorem accessExports_eq (script : Script F32 F64) (index : UInt32) :
    accessExports access index.toNat script.exports =
      (fieldAt script index).map fun field ↦ access field.1 index.toNat := by
  have hloop : ∀ entries : List (ExportEntry F64), orderedAccess access index.toNat 0 entries =
      (exportedFields entries)[index.toNat]?.map fun field ↦ access field.1 index.toNat := by
    intro entries
    have hordered := orderedAccess_eq access 0 index.toNat entries
    rwa [Nat.zero_add] at hordered
  unfold fieldAt exported
  cases script.exports with
  | none => rfl
  | ordered entries => exact hloop entries
  | struct fields names =>
    rw [accessExports, structAccess_eq, hloop, exportedFields_map, layout,
      exportedFields_structLayout]

end Access

theorem getProperty_eq (box : Box script) {index : UInt32} {field : ByteString × Property F64}
    (hfield : fieldAt script index = some field) :
    getProperty (some box) index = .ok (box.value field.1) := by
  rw [getProperty, accessExports_eq, hfield]
  rfl

theorem setProperty_eq (allocator : Allocator UInt8) (box : Box script) {index : UInt32}
    {field : ByteString × Property F64} (hfield : fieldAt script index = some field)
    (value : GzValue F32 F64) :
    setProperty allocator (some box) index value =
      (setField allocator box field.1 index.toNat value).map fun result ↦
        (result.1, some result.2) := by
  rw [setProperty, accessExports_eq, hfield, Option.map_some]
  cases setField allocator box field.1 index.toNat value <;> rfl

/-! ### The tables -/

theorem nodup_orderedProperties {zero : F64} {previous : List ByteString}
    {entries : List (ExportEntry F64)} {properties : List (RawProperty F32 F64)}
    (hbuilt : orderedProperties zero script previous entries = .ok properties) :
    ((exportedFields entries).map Prod.fst).Nodup ∧
      ∀ name ∈ (exportedFields entries).map Prod.fst, name ∉ previous := by
  induction entries generalizing previous properties with
  | nil => exact ⟨List.nodup_nil, fun _ hname ↦ absurd hname List.not_mem_nil⟩
  | cons entry entries ih =>
    cases entry with
    | field name property =>
      obtain ⟨hname, -, rest, -, hrest, -⟩ := orderedProperties_field hbuilt
      obtain ⟨hnodup, hapart⟩ := ih hrest
      refine ⟨List.nodup_cons.mpr ⟨?_, hnodup⟩, List.forall_mem_cons.mpr ⟨hname, ?_⟩⟩
      · exact fun hmem ↦ hapart name hmem List.mem_cons_self
      · exact fun other hother hmem ↦ hapart other hother (List.mem_cons_of_mem name hmem)
    | category marker => exact ih hbuilt
    | group marker => exact ih hbuilt
    | subgroup marker => exact ih hbuilt

/-- A compiled script exports no field twice. -/
theorem nodup_exported {zero : F64} {properties : List (RawProperty F32 F64)}
    (hbuilt : buildProperties zero script = .ok properties) :
    ((exported script).map Prod.fst).Nodup := by
  rw [buildProperties] at hbuilt
  unfold exported
  cases hexports : script.exports with
  | none => exact List.nodup_nil
  | ordered entries =>
    rw [hexports] at hbuilt
    exact (nodup_orderedProperties hbuilt).1
  | struct fields names =>
    rw [layout, exportedFields_structLayout]
    exact names.distinct

/-- The Inspector entry at a place addresses the property with an index. -/
def Addresses (entries : List RawInspectorEntry) (place index : ℕ) : Prop :=
  ∃ entry, entries[place]? = some entry ∧ entry.kind = inspectorEntryProperty ∧
    entry.propertyIndex.toNat = index

section Addresses

variable {entry : RawInspectorEntry} {entries : List RawInspectorEntry} {place index : ℕ}

theorem addresses_zero : Addresses (entry :: entries) 0 index ↔
    entry.kind = inspectorEntryProperty ∧ entry.propertyIndex.toNat = index := by
  simp [Addresses]

theorem addresses_succ :
    Addresses (entry :: entries) (place + 1) index ↔ Addresses entries place index := by
  simp [Addresses]

theorem not_addresses_marker {kind : UInt32} {marker : Marker}
    (hkind : kind ≠ inspectorEntryProperty) :
    ¬ Addresses (inspectorMarker kind marker :: entries) 0 index :=
  fun haddresses ↦ hkind (addresses_zero.mp haddresses).1

theorem addresses_marker {kind : UInt32} {marker : Marker} (hkind : kind ≠ inspectorEntryProperty)
    (haddresses : Addresses (inspectorMarker kind marker :: entries) place index) :
    ∃ rest, place = rest + 1 ∧ Addresses entries rest index := by
  cases place with
  | zero => exact absurd haddresses (not_addresses_marker hkind)
  | succ rest => exact ⟨rest, rfl, addresses_succ.mp haddresses⟩

/-- An entry that does not address the property moves the one that does by one place. -/
theorem addresses_cons (hentry : ¬ Addresses (entry :: entries) 0 index)
    (hplace : ∀ other, Addresses entries other index ↔ other = place) (other : ℕ) :
    Addresses (entry :: entries) other index ↔ other = place + 1 := by
  cases other with
  | zero => exact iff_of_false hentry (Nat.succ_ne_zero place).symm
  | succ other => rw [addresses_succ, hplace, Nat.add_right_cancel_iff]

theorem toNat_propertyEntry (hindex : index < 2 ^ 32) :
    (propertyEntry index).propertyIndex.toNat = index :=
  UInt32.toNat_ofNat_of_lt' hindex

theorem le_of_addresses_numbered {start : ℕ} {declared : List (ExportEntry F64)}
    (hfits : start + (exportedFields declared).length ≤ 2 ^ 32)
    (haddresses : Addresses (numbered start declared) place index) : start ≤ index := by
  induction declared generalizing start place with
  | nil =>
    obtain ⟨entry, hentry, -⟩ := haddresses
    cases hentry
  | cons first declared ih =>
    cases first with
    | field name property =>
      have hlength : (exportedFields (.field name property :: declared)).length =
          (exportedFields declared).length + 1 := rfl
      rw [hlength] at hfits
      cases place with
      | zero =>
        have hstart := (addresses_zero.mp haddresses).2
        rw [toNat_propertyEntry (by omega)] at hstart
        exact Nat.le_of_eq hstart
      | succ place =>
        have hrest := ih (by omega) (addresses_succ.mp haddresses)
        omega
    | category marker =>
      obtain ⟨rest, -, hrest⟩ := addresses_marker (by decide) haddresses
      exact ih hfits hrest
    | group marker =>
      obtain ⟨rest, -, hrest⟩ := addresses_marker (by decide) haddresses
      exact ih hfits hrest
    | subgroup marker =>
      obtain ⟨rest, -, hrest⟩ := addresses_marker (by decide) haddresses
      exact ih hfits hrest

/-- Exactly one entry addresses an exported field, and it stands where the field is declared. -/
theorem exists_place {start offset : ℕ} {declared : List (ExportEntry F64)}
    {field : ByteString × Property F64}
    (hfits : start + (exportedFields declared).length ≤ 2 ^ 32)
    (hfield : (exportedFields declared)[offset]? = some field) :
    ∃ place, declared[place]? = some (.field field.1 field.2) ∧
      ∀ other, Addresses (numbered start declared) other (start + offset) ↔ other = place := by
  induction declared generalizing start offset with
  | nil => cases hfield
  | cons first declared ih =>
    cases first with
    | field name property =>
      have hlength : (exportedFields (.field name property :: declared)).length =
          (exportedFields declared).length + 1 := rfl
      rw [hlength] at hfits
      have hindex := toNat_propertyEntry (show start < 2 ^ 32 by omega)
      cases offset with
      | zero =>
        obtain rfl := Option.some.inj hfield
        refine ⟨0, rfl, fun other ↦ ?_⟩
        cases other with
        | zero => exact iff_of_true (addresses_zero.mpr ⟨rfl, hindex⟩) rfl
        | succ other =>
          refine iff_of_false (fun haddresses ↦ ?_) (Nat.succ_ne_zero other)
          have hle := le_of_addresses_numbered (by omega) (addresses_succ.mp haddresses)
          omega
      | succ offset =>
        have hrest : start + 1 + (exportedFields declared).length ≤ 2 ^ 32 := by omega
        obtain ⟨place, hplace, hothers⟩ := ih hrest hfield
        rw [Nat.add_right_comm, Nat.add_assoc] at hothers
        refine ⟨place + 1, hplace, addresses_cons (fun hfirst ↦ ?_) hothers⟩
        have hsame := (addresses_zero.mp hfirst).2
        rw [hindex] at hsame
        omega
    | category marker =>
      obtain ⟨place, hplace, hothers⟩ := ih hfits hfield
      exact ⟨place + 1, hplace, addresses_cons (not_addresses_marker (by decide)) hothers⟩
    | group marker =>
      obtain ⟨place, hplace, hothers⟩ := ih hfits hfield
      exact ⟨place + 1, hplace, addresses_cons (not_addresses_marker (by decide)) hothers⟩
    | subgroup marker =>
      obtain ⟨place, hplace, hothers⟩ := ih hfits hfield
      exact ⟨place + 1, hplace, addresses_cons (not_addresses_marker (by decide)) hothers⟩

end Addresses

/-- The tables and both accesses concern one exported field at an index. -/
structure Concerns (zero : F64) (script : Script F32 F64)
    (descriptor : RawScriptDescriptor F32 F64) (index : UInt32)
    (field : ByteString × Property F64) : Prop where
  described : ∃ property, descriptor.properties.list[index.toNat]? = some property ∧
    BuiltFrom zero script field property
  shown : ∃ place, (layout script.exports)[place]? = some (.field field.1 field.2) ∧
    ∀ other, Addresses descriptor.inspectorEntries.list other index.toNat ↔ other = place
  got : ∀ box : Box script, getProperty (some box) index = .ok (box.value field.1)
  set : ∀ allocator (box : Box script) value, setProperty allocator (some box) index value =
    (setField allocator box field.1 index.toNat value).map fun result ↦ (result.1, some result.2)

theorem exists_of_forall₂ {α β : Type*} {relation : α → β → Prop} {firsts : List α}
    {seconds : List β} (hrelated : List.Forall₂ relation firsts seconds) {index : ℕ} {first : α}
    (hfirst : firsts[index]? = some first) :
    ∃ second, seconds[index]? = some second ∧ relation first second := by
  induction hrelated generalizing index with
  | nil => cases hfirst
  | cons hhead htail ih =>
    cases index with
    | zero =>
      obtain rfl := Option.some.inj hfirst
      exact ⟨_, rfl, hhead⟩
    | succ index => exact ih hfirst

section Compiled

variable {zero : F64} {descriptor : RawScriptDescriptor F32 F64}

theorem length_exported (hcompiled : CompiledFrom zero script descriptor) :
    (exported script).length = exportCount script.exports := by
  have hbuilt := builtFrom_buildProperties hcompiled.properties
  exact hbuilt.length_eq.trans (length_buildProperties zero script hcompiled.properties)

theorem length_exported_lt (hcompiled : CompiledFrom zero script descriptor) :
    (exported script).length < 2 ^ 32 := by
  have hbuilt := builtFrom_buildProperties hcompiled.properties
  rw [exported, hbuilt.length_eq, Table.length_list (missing_eq_false hcompiled)]
  exact descriptor.properties.count.toNat_lt

theorem concerns_of_compiled (hcompiled : CompiledFrom zero script descriptor) {index : UInt32}
    {field : ByteString × Property F64} (hfield : fieldAt script index = some field) :
    Concerns zero script descriptor index field := by
  have hbuilt := builtFrom_buildProperties hcompiled.properties
  refine ⟨exists_of_forall₂ hbuilt hfield, ?_, ?_, ?_⟩
  · have hfits : 0 + (exported script).length ≤ 2 ^ 32 := by
      have hlength := length_exported_lt hcompiled
      omega
    rw [buildInspectorEntries_eq hcompiled.entries]
    obtain ⟨place, hplace, hothers⟩ := exists_place hfits hfield
    rw [Nat.zero_add] at hothers
    exact ⟨place, hplace, hothers⟩
  · exact fun box ↦ getProperty_eq box hfield
  · exact fun allocator box value ↦ setProperty_eq allocator box hfield value

end Compiled

end Gzscript.Abi.PropertyAccess
