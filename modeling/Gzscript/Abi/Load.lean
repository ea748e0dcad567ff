import Gzscript.Abi.RawDescriptor
import Gzscript.Library.Transition

/-!
# Loading a compiled script

`GzCompiledModule::load` opens a library, checks what it hands out, and returns a module that owns
the library's handle: the destructor of the module closes it when the last owner drops the module.
The model counts how often the handle is closed. On each error exit before the module exists `load`
closes it (`load_eq`). The one exit after that, on a property name that occurs twice, closes it too
and then drops the module, whose destructor closes it again: `closedOnce_iff` says that the handle
is closed exactly once, at the right time, on every other path and on that one never.

A module that is returned has properties with distinct names (`GzCompiledModule`).
-/

set_option autoImplicit false
set_option relaxedAutoImplicit false

namespace Gzscript.Abi.Load

open Library.Bytes Library.Transition Value ValueCodec Descriptor Inspector RawDescriptor

variable {Object F32 F64 : Type}

/-! ### The library -/

/-- What `gzscript_script_init` returns. -/
structure InitResult (F32 F64 : Type) where
  status : UInt32
  descriptor : Option (RawScriptDescriptor F32 F64)

/-- A library that was opened: what its `gzscript_script_init` returns, if it exports one. -/
structure ScriptLibrary (F32 F64 : Type) where
  init : Option (InitResult F32 F64)

/-- `GZ_STATUS_OK`. -/
def gzStatusOk : UInt32 := 0

/-- The checks of `load` up to the creation of the module. -/
def ScriptLibrary.accepted (library : ScriptLibrary F32 F64) :
    Except String (RawScriptDescriptor F32 F64) :=
  match library.init with
  | none => .error "Compiled Zig script does not export gzscript_script_init"
  | some result =>
    match result.descriptor with
    | none => .error "Compiled Zig script initialization failed"
    | some descriptor =>
      if result.status ≠ gzStatusOk then .error "Compiled Zig script initialization failed"
      else
        match descriptorError descriptor with
        | some message => .error message
        | none => .ok descriptor

/-! ### The module -/

/-- The first name that occurs again after some names. -/
def duplicateName : List String → List String → Option String
  | _, [] => none
  | seen, name :: names => if name ∈ seen then some name else duplicateName (name :: seen) names

theorem duplicateName_eq_none_iff (seen names : List String) :
    duplicateName seen names = none ↔ names.Nodup ∧ ∀ name ∈ names, name ∉ seen := by
  induction names generalizing seen with
  | nil => simp [duplicateName]
  | cons name names ih =>
    rw [duplicateName]
    split_ifs with hmem
    · simp [hmem]
    · rw [ih, List.nodup_cons, List.forall_mem_cons]
      constructor
      · rintro ⟨hnodup, hseen⟩
        refine ⟨⟨fun hname ↦ hseen name hname List.mem_cons_self, hnodup⟩, hmem, ?_⟩
        intro other hother hin
        exact hseen other hother (List.mem_cons_of_mem name hin)
      · rintro ⟨⟨hname, hnodup⟩, -, hrest⟩
        refine ⟨hnodup, fun other hother hin ↦ ?_⟩
        rcases List.mem_cons.mp hin with rfl | hseen
        · exact hname hother
        · exact hrest other hother hseen

/-- The decoded names of the properties of a script. -/
def decodedNames (engine : Engine Object) (script : ScriptDescriptor F32 F64) : List String :=
  script.properties.map fun property ↦ engine.ofUtf8 property.name

/-- A loaded module: a script whose properties have distinct names. -/
structure GzCompiledModule (engine : Engine Object) (F32 F64 : Type) where
  script : ScriptDescriptor F32 F64
  namesDistinct : (decodedNames engine script).Nodup

theorem decodedNames_script (engine : Engine Object) (descriptor : RawScriptDescriptor F32 F64) :
    decodedNames engine descriptor.script = propertyNames engine descriptor := by
  simp [decodedNames, propertyNames, RawScriptDescriptor.script, RawProperty.read]

variable (engine : Engine Object)

/-- How often a handle has been closed. -/
abbrev Closed : Type := ℕ

def closeLibrary (closed : Closed) : Closed := closed + 1

/-- `~GzCompiledModule`, of a module with a handle. -/
def destroyModule (closed : Closed) : Closed := closeLibrary closed

/-- The end of `load`: a module or an error, and how often the handle has been closed by the time
the caller continues. -/
abbrev Outcome (F32 F64 : Type) : Type :=
  Except String (GzCompiledModule engine F32 F64) × Closed

/-- The loop over the Inspector entries, which closes the library where it stops. -/
def checkEntries (propertyCount : ℕ) (closed : Closed) : List RawInspectorEntry → List ℕ →
    Except (String × Closed) (List ℕ)
  | [], listed => .ok listed
  | entry :: entries, listed =>
    if inspectorEntrySubgroup < entry.kind then
      .error ("Compiled Zig script has an invalid Inspector entry", closeLibrary closed)
    else if entry.kind ≠ inspectorEntryProperty then
      checkEntries propertyCount closed entries listed
    else if propertyCount ≤ entry.propertyIndex.toNat ∨ entry.propertyIndex.toNat ∈ listed then
      .error ("Compiled Zig script has an invalid Inspector property index", closeLibrary closed)
    else checkEntries propertyCount closed entries (entry.propertyIndex.toNat :: listed)

/-- `load` from the creation of the module on. -/
def makeModule (descriptor : RawScriptDescriptor F32 F64) (closed : Closed) :
    Outcome engine F32 F64 :=
  match hnames : duplicateName [] (propertyNames engine descriptor) with
  | some name =>
    -- The module owns the handle already, and the return drops its only owner.
    (.error ("Compiled Zig script has duplicate property name: " ++ name),
      destroyModule (closeLibrary closed))
  | none =>
    (.ok
      { script := descriptor.script
        namesDistinct := by
          rw [decodedNames_script]
          exact ((duplicateName_eq_none_iff _ _).mp hnames).1 }, closed)

/-- `load` of a script that is initialised. -/
def loadDescriptor (descriptor : RawScriptDescriptor F32 F64) (closed : Closed) :
    Outcome engine F32 F64 :=
  if descriptor.abiVersion ≠ gzscriptAbiVersion ∨ descriptor.structSize ≠ descriptorSize then
    (.error "Compiled Zig script ABI does not match gzscript", closeLibrary closed)
  else if incomplete descriptor then
    (.error "Compiled Zig script descriptor is incomplete", closeLibrary closed)
  else
    match validateDescriptor descriptor with
    | some message => (.error message, closeLibrary closed)
    | none =>
      match checkEntries descriptor.properties.count.toNat closed
          descriptor.inspectorEntries.list [] with
      | .error (message, closed) => (.error message, closed)
      | .ok listed =>
        if (List.range descriptor.properties.count.toNat).all (· ∈ listed) then
          makeModule engine descriptor closed
        else
          (.error "Compiled Zig script Inspector layout omits a property", closeLibrary closed)

/-- `load`, of a library that was opened. -/
def load (library : ScriptLibrary F32 F64) : Outcome engine F32 F64 :=
  match library.init with
  | none =>
    (.error "Compiled Zig script does not export gzscript_script_init", closeLibrary 0)
  | some result =>
    match result.descriptor with
    | none => (.error "Compiled Zig script initialization failed", closeLibrary 0)
    | some descriptor =>
      if result.status ≠ gzStatusOk then
        (.error "Compiled Zig script initialization failed", closeLibrary 0)
      else loadDescriptor engine descriptor 0

theorem checkEntries_eq (propertyCount : ℕ) (closed : Closed) (entries : List RawInspectorEntry)
    (listed : List ℕ) : checkEntries propertyCount closed entries listed =
      (listProperties propertyCount entries listed).mapError (·, closeLibrary closed) := by
  induction entries generalizing listed with
  | nil => rfl
  | cons entry entries ih =>
    rw [checkEntries, listProperties]
    split_ifs
    · rfl
    · exact ih listed
    · rfl
    · exact ih (entry.propertyIndex.toNat :: listed)

theorem loadDescriptor_eq (descriptor : RawScriptDescriptor F32 F64) (closed : Closed) :
    loadDescriptor engine descriptor closed =
      match descriptorError descriptor with
      | some message => (.error message, closeLibrary closed)
      | none => makeModule engine descriptor closed := by
  rw [loadDescriptor, descriptorError, inspectorError, checkEntries_eq]
  split_ifs with habi hincomplete
  · rfl
  · rfl
  · cases validateDescriptor descriptor with
    | some message => rfl
    | none =>
      generalize listProperties descriptor.properties.count.toNat
        descriptor.inspectorEntries.list [] = properties
      cases properties with
      | error message => rfl
      | ok listed =>
        dsimp only [Except.mapError]
        split_ifs <;> rfl

/-- Every exit before the module exists closes the library once. -/
theorem load_eq (library : ScriptLibrary F32 F64) : load engine library =
    match library.accepted with
    | .error message => (.error message, closeLibrary 0)
    | .ok descriptor => makeModule engine descriptor 0 := by
  rw [load, ScriptLibrary.accepted]
  cases library.init with
  | none => rfl
  | some result =>
    dsimp only
    cases result.descriptor with
    | none => rfl
    | some descriptor =>
      dsimp only
      rw [loadDescriptor_eq]
      split_ifs
      · rfl
      · cases descriptorError descriptor <;> rfl

/-! ### Owners -/

inductive OwnerOp
  /-- A `shared_ptr` to the module is copied. -/
  | share
  /-- A `shared_ptr` to the module is destroyed or made to point elsewhere. -/
  | drop

/-- The owners of a module, and how often its handle has been closed. -/
structure Owned where
  owners : ℕ
  closed : Closed

/-- One operation on an owner. Without an owner there is nothing to operate on. -/
def ownerStep (owned : Owned) : OwnerOp → Owned
  | .share => if owned.owners = 0 then owned else { owned with owners := owned.owners + 1 }
  | .drop =>
    if owned.owners = 0 then owned
    else if owned.owners = 1 then ⟨0, destroyModule owned.closed⟩
    else { owned with owners := owned.owners - 1 }

/-- The handle is open while there is an owner, and closed once when there is none. -/
def HandleBalanced (owned : Owned) : Prop :=
  owned.closed = if owned.owners = 0 then 1 else 0

theorem handleBalanced_ownerStep (owned : Owned) (op : OwnerOp) (h : HandleBalanced owned) :
    HandleBalanced (ownerStep owned op) := by
  unfold HandleBalanced at h ⊢
  cases op with
  | share =>
    simp only [ownerStep]
    split_ifs at h ⊢ <;> simp_all
  | drop =>
    simp only [ownerStep]
    split_ifs at h ⊢ <;> simp_all [destroyModule, closeLibrary]
    all_goals omega

/-- On an error the handle is closed once when `load` returns. A module that is returned has one
owner, and whatever happens to its owners, the handle is closed exactly when the last one is
dropped, and then once. -/
def ClosedOnce (outcome : Except String (GzCompiledModule engine F32 F64) × Closed) : Prop :=
  match outcome with
  | (.error _, closed) => closed = 1
  | (.ok _, closed) => ∀ ops, HandleBalanced (exec ownerStep ⟨1, closed⟩ ops)

/-- An accepted descriptor makes a module exactly if its properties have distinct names; a name that
occurs twice closes the handle twice. -/
theorem load_accepted {library : ScriptLibrary F32 F64}
    {descriptor : RawScriptDescriptor F32 F64} (haccepted : library.accepted = .ok descriptor) :
    (∃ module, load engine library = (.ok module, 0) ∧ module.script = descriptor.script ∧
        (propertyNames engine descriptor).Nodup) ∨
      (∃ message, load engine library = (.error message, 2) ∧
        ¬ (propertyNames engine descriptor).Nodup) := by
  have hnodup : duplicateName [] (propertyNames engine descriptor) = none ↔
      (propertyNames engine descriptor).Nodup := by
    simp [duplicateName_eq_none_iff]
  rw [load_eq, haccepted]
  dsimp only [makeModule]
  split
  next name hname =>
    refine Or.inr ⟨_, rfl, fun h ↦ ?_⟩
    rw [hnodup.mpr h] at hname
    cases hname
  next hnone => exact Or.inl ⟨_, rfl, rfl, hnodup.mp hnone⟩

/-- Whatever the library hands out, its handle is closed exactly once, unless the descriptor passes
every check and two of its properties have the same name. -/
theorem closedOnce_iff (library : ScriptLibrary F32 F64) :
    ClosedOnce engine (load engine library) ↔
      ∀ descriptor, library.accepted = .ok descriptor →
        (propertyNames engine descriptor).Nodup := by
  cases hlibrary : library.accepted with
  | error message =>
    have hload : load engine library = (.error message, 1) := by
      rw [load_eq, hlibrary, closeLibrary]
    rw [hload]
    exact iff_of_true rfl fun descriptor h ↦ nomatch h
  | ok descriptor =>
    rcases load_accepted engine hlibrary with ⟨module, hload, -, hnodup⟩ | ⟨message, hload, hnot⟩
    · rw [hload]
      refine iff_of_true (fun ops ↦ ?_) fun other hother ↦ ?_
      · have hstart : HandleBalanced ⟨1, 0⟩ := rfl
        exact exec_invariant ownerStep HandleBalanced handleBalanced_ownerStep hstart ops
      · rwa [← Except.ok.inj hother]
    · rw [hload]
      refine iff_of_false (fun hclosed ↦ ?_) fun hall ↦ hnot (hall descriptor rfl)
      exact absurd hclosed (by decide : (2 : ℕ) ≠ 1)

/-! ### A library with a property that occurs twice -/

/-- A property of a script: an integer with the default zero. -/
def sampleProperty (name : ByteString) : RawProperty Empty ℕ where
  name := .bytes name
  type := 2
  hint := 0
  hintString := .bytes []
  className := .bytes []
  rangeMin := 0
  rangeMax := 0
  rangeStep := 0
  defaultValue := .plain (.int 0)

/-- The Inspector entry of the property at an index. -/
def sampleEntry (index : UInt32) : RawInspectorEntry where
  kind := inspectorEntryProperty
  propertyIndex := index
  name := .bytes []
  groupPrefix := .bytes []

/-- A script of two properties. -/
def sampleDescriptor (first second : ByteString) : RawScriptDescriptor Empty ℕ where
  abiVersion := gzscriptAbiVersion
  structSize := descriptorSize
  baseClass := .bytes (ascii "Node")
  methods := .counted 0 [] rfl (by decide)
  properties := .counted 2 [sampleProperty first, sampleProperty second] rfl (by decide)
  inspectorEntries := .counted 2 [sampleEntry 0, sampleEntry 1] rfl (by decide)
  signals := .counted 0 [] rfl (by decide)
  createInstance := true
  destroyInstance := true
  callMethod := true
  getProperty := true
  setProperty := true
  notification := true

/-- A library that hands out a script of two properties. -/
def sampleLibrary (first second : ByteString) : ScriptLibrary Empty ℕ where
  init := some ⟨gzStatusOk, some (sampleDescriptor first second)⟩

/-- Two properties of one name: by the time `load` reports the error, the handle has been closed
twice. -/
theorem duplicate_closed_twice :
    ¬ ClosedOnce sampleEngine (load sampleEngine
      (sampleLibrary (ascii "speed") (ascii "speed"))) := by
  have haccepted : (sampleLibrary (ascii "speed") (ascii "speed")).accepted =
      .ok (sampleDescriptor (ascii "speed") (ascii "speed")) := rfl
  intro hclosed
  rcases load_accepted sampleEngine haccepted with ⟨-, -, -, hnodup⟩ | ⟨message, hload, -⟩
  · simp [propertyNames, sampleDescriptor, Table.counted, Table.list, sampleProperty] at hnodup
  · rw [hload] at hclosed
    exact absurd hclosed (by decide : (2 : ℕ) ≠ 1)

end Gzscript.Abi.Load
