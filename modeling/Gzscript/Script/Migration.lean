import Gzscript.Abi.Load
import Gzscript.Script.Instances

/-!
# The migration of an instance

`migrate_editor_instance` creates an instance of the next module, copies the properties that both
modules have, and then brings what is retained up to date, which may set an object property once
more. Any of the functions of the two modules may fail at any call: they are functions of a world
that is not restricted, and the calls are recorded in order. `migrateEditorInstance_allOrNothing`
says what holds whatever they return.

The second part looks at an object as the new instance gives it back. If that fails the object
stays, of whatever class it is (`incompatible_object_kept`).

The functions of a module do not call back into the instance, and the registry of objects does not
change during a migration. What a deferred call does with the instances of a script is this
migration, in a world without state (`migrateEditorInstance_refresh`).
-/

set_option autoImplicit false
set_option relaxedAutoImplicit false

namespace Gzscript.Script.Migration

open Library.Bytes Abi.Value Abi.ValueCodec Abi.Descriptor Abi.Load

/-- An instance inside a module, as the module knows it. -/
abbrev ZigInstance : Type := ℕ

/-- The functions of a module's descriptor. What one returns, and what it does, depends on the state
of the world, so that it may fail at any call. -/
structure ScriptFunctions (World : Type*) (F32 F64 : Type) where
  createInstance : UInt64 → World → Option ZigInstance × World
  getProperty : ZigInstance → ℕ → World → Option (GzValue F32 F64) × World
  setProperty : ZigInstance → ℕ → GzValue F32 F64 → World → Bool × World
  destroyInstance : ZigInstance → World → World

variable {Object F32 F64 : Type} {World : Type*}

/-- A loaded module with its functions. -/
structure ScriptModule (engine : Engine Object) (F32 F64 : Type) (World : Type*) where
  loaded : GzCompiledModule engine F32 F64
  functions : ScriptFunctions World F32 F64

/-- The properties that a module exports. -/
def ScriptModule.properties {engine : Engine Object}
    (module : ScriptModule engine F32 F64 World) : List (PropertyDescriptor F32 F64) :=
  module.loaded.script.properties

structure InstanceData (engine : Engine Object) (F32 F64 : Type) (World : Type*) where
  owner : UInt64
  module : ScriptModule engine F32 F64 World
  zigInstance : ZigInstance
  retainedObjects : List (Variant Object F32 F64)

/-! ### What is recorded -/

/-- The instance a migration starts from, and the one it creates. -/
inductive Role
  | previous | next
  deriving DecidableEq

/-- A call of a function of one of the two modules, with what it returned. -/
inductive Call (F32 F64 : Type)
  | create (result : Option ZigInstance)
  | get (role : Role) (index : ℕ) (result : Option (GzValue F32 F64))
  | set (role : Role) (index : ℕ) (value : GzValue F32 F64) (accepted : Bool)
  | destroy (role : Role)

/-! ### Retained objects -/

/-- `GZ_VALUE_OBJECT`. -/
def gzValueObject : UInt32 := 6

/-- A variant as an object: null unless it is one. -/
def asObject : Variant Object F32 F64 → Option Object
  | .object object => object
  | _ => none

variable {engine : Engine Object} (isClass : Object → String → Bool)

/-- The object that is read for a property is not of the declared class. -/
def incompatible (engine : Engine Object) (property : PropertyDescriptor F32 F64)
    (object : Variant Object F32 F64) : Bool :=
  match asObject object with
  | none => false
  | some assigned =>
    let expected := engine.ofUtf8 property.className
    expected ≠ "" && !isClass assigned expected

/-- The identifier of the object in a slot; zero if there is none. -/
def retainedId (data : InstanceData engine F32 F64 World) (index : ℕ) : UInt64 :=
  ((data.retainedObjects[index]?.bind asObject).map engine.getInstanceId).getD 0

/-- One pass of the loop of `sync_retained_objects`. -/
def syncProperty (data : InstanceData engine F32 F64 World) (index : ℕ)
    (property : PropertyDescriptor F32 F64) (world : World) :
    InstanceData engine F32 F64 World × World × List (Call F32 F64) :=
  if property.type ≠ gzValueObject then (data, world, [])
  else
    match data.module.functions.getProperty data.zigInstance index world with
    | (none, world) => (data, world, [.get .next index none])
    | (some value, world) =>
      let (object, valid) := toVariant engine value
      if !valid then (data, world, [.get .next index (some value)])
      else if incompatible isClass engine property object then
        let previous := GzValue.object (retainedId data index)
        let (accepted, world) :=
          data.module.functions.setProperty data.zigInstance index previous world
        (data, world, [.get .next index (some value), .set .next index previous accepted])
      else
        ({ data with retainedObjects := data.retainedObjects.set index object }, world,
          [.get .next index (some value)])

/-- The loop of `sync_retained_objects` from a property on. -/
def syncFrom : List (PropertyDescriptor F32 F64) → ℕ → InstanceData engine F32 F64 World → World →
    InstanceData engine F32 F64 World × World × List (Call F32 F64)
  | [], _, data, world => (data, world, [])
  | property :: properties, index, data, world =>
    let (data, world, calls) := syncProperty isClass data index property world
    let (data, world, rest) := syncFrom properties (index + 1) data world
    (data, world, calls ++ rest)

/-- `sync_retained_objects`, of the instance a migration has created. -/
def syncRetainedObjects (data : InstanceData engine F32 F64 World) (world : World) :
    InstanceData engine F32 F64 World × World × List (Call F32 F64) :=
  syncFrom isClass data.module.properties 0 data world

/-! ### Migration -/

/-- The index in the next module of a property with the same name and type. -/
def commonIndex (next : ScriptModule engine F32 F64 World)
    (property : PropertyDescriptor F32 F64) : Option ℕ :=
  match findProperty engine next.loaded.script property.name with
  | none => none
  | some nextIndex =>
    if next.properties[nextIndex]?.map PropertyDescriptor.type = some property.type then
      some nextIndex
    else none

/-- The loop of `migrate_editor_instance` from a property on: whether it ran to its end. -/
def copyFrom (data : InstanceData engine F32 F64 World)
    (next : ScriptModule engine F32 F64 World) (nextInstance : ZigInstance) :
    List (PropertyDescriptor F32 F64) → ℕ → World → Bool × World × List (Call F32 F64)
  | [], _, world => (true, world, [])
  | property :: properties, index, world =>
    match commonIndex next property with
    | none => copyFrom data next nextInstance properties (index + 1) world
    | some nextIndex =>
      match data.module.functions.getProperty data.zigInstance index world with
      | (none, world) => (false, world, [.get .previous index none])
      | (some value, world) =>
        match next.functions.setProperty nextInstance nextIndex value world with
        | (false, world) =>
          (false, world,
            [.get .previous index (some value), .set .next nextIndex value false])
        | (true, world) =>
          let (copied, world, calls) :=
            copyFrom data next nextInstance properties (index + 1) world
          (copied, world,
            .get .previous index (some value) :: .set .next nextIndex value true :: calls)

/-- What a migration comes to. -/
structure Outcome (engine : Engine Object) (F32 F64 : Type) (World : Type*) where
  migrated : Bool
  data : InstanceData engine F32 F64 World
  world : World
  calls : List (Call F32 F64)

/-- The instance under the next module, with nothing retained yet. -/
def freshData (data : InstanceData engine F32 F64 World)
    (next : ScriptModule engine F32 F64 World) (nextInstance : ZigInstance) :
    InstanceData engine F32 F64 World :=
  { data with
    module := next
    zigInstance := nextInstance
    retainedObjects := List.replicate next.properties.length .nil }

/-- `migrate_editor_instance`. -/
def migrateEditorInstance (data : InstanceData engine F32 F64 World)
    (next : ScriptModule engine F32 F64 World) (world : World) :
    Outcome engine F32 F64 World :=
  match next.functions.createInstance data.owner world with
  | (none, world) => ⟨false, data, world, [.create none]⟩
  | (some nextInstance, world) =>
    match copyFrom data next nextInstance data.module.properties 0 world with
    | (false, world, copies) =>
      ⟨false, data, next.functions.destroyInstance nextInstance world,
        .create (some nextInstance) :: copies ++ [.destroy .next]⟩
    | (true, world, copies) =>
      let (migrated, world, syncs) :=
        syncRetainedObjects isClass (freshData data next nextInstance) world
      ⟨true, migrated, data.module.functions.destroyInstance data.zigInstance world,
        .create (some nextInstance) :: copies ++ syncs ++ [.destroy .previous]⟩

/-! ### The calls about one property -/

/-- The call reads or sets a property of an instance. -/
def Call.isAbout (role : Role) (index : ℕ) : Call F32 F64 → Bool
  | .get other otherIndex _ => other = role && otherIndex = index
  | .set other otherIndex _ _ => other = role && otherIndex = index
  | _ => false

/-- The calls about a property of an instance, in order. -/
def callsAbout (role : Role) (index : ℕ) (calls : List (Call F32 F64)) : List (Call F32 F64) :=
  calls.filter (Call.isAbout role index)

theorem callsAbout_append (role : Role) (index : ℕ) (first second : List (Call F32 F64)) :
    callsAbout role index (first ++ second) =
      callsAbout role index first ++ callsAbout role index second :=
  List.filter_append first second

theorem callsAbout_cons_of_pos {role : Role} {index : ℕ} {call : Call F32 F64}
    (habout : call.isAbout role index = true) (calls : List (Call F32 F64)) :
    callsAbout role index (call :: calls) = call :: callsAbout role index calls :=
  List.filter_cons_of_pos habout

theorem callsAbout_cons_of_neg {role : Role} {index : ℕ} {call : Call F32 F64}
    (habout : ¬ call.isAbout role index = true) (calls : List (Call F32 F64)) :
    callsAbout role index (call :: calls) = callsAbout role index calls :=
  List.filter_cons_of_neg habout

theorem callsAbout_eq_nil {role : Role} {index : ℕ} {calls : List (Call F32 F64)}
    (hnone : ∀ call ∈ calls, call.isAbout role index = false) :
    callsAbout role index calls = [] := by
  refine List.filter_eq_nil_iff.mpr fun call hcall ↦ ?_
  rw [hnone call hcall]
  exact Bool.false_ne_true

/-- Instances that were created, by their calls. -/
def created (calls : List (Call F32 F64)) : List ZigInstance :=
  calls.filterMap fun call ↦
    match call with
    | .create result => result
    | _ => none

/-- Instances that were destroyed. -/
def destroyed (calls : List (Call F32 F64)) : List Role :=
  calls.filterMap fun call ↦
    match call with
    | .destroy role => some role
    | _ => none

/-- The call neither creates nor destroys an instance. -/
def Call.isCopy : Call F32 F64 → Bool
  | .get _ _ _ | .set _ _ _ _ => true
  | _ => false

theorem created_of_copies {calls : List (Call F32 F64)}
    (hcopies : ∀ call ∈ calls, call.isCopy = true) : created calls = [] := by
  refine List.filterMap_eq_nil_iff.mpr fun call hcall ↦ ?_
  have hcopy := hcopies call hcall
  cases call with
  | create result => exact absurd hcopy Bool.false_ne_true
  | _ => rfl

theorem destroyed_of_copies {calls : List (Call F32 F64)}
    (hcopies : ∀ call ∈ calls, call.isCopy = true) : destroyed calls = [] := by
  refine List.filterMap_eq_nil_iff.mpr fun call hcall ↦ ?_
  have hcopy := hcopies call hcall
  cases call with
  | destroy role => exact absurd hcopy Bool.false_ne_true
  | _ => rfl

/-! ### Synchronising one property -/

/-- The calls of the synchronisation about a property, with nothing retained for it yet: it reads an
object property, and sets null where the object is not of the declared class. -/
inductive Synced (isClass : Object → String → Bool) (engine : Engine Object)
    (property : PropertyDescriptor F32 F64) (index : ℕ) : List (Call F32 F64) → Prop
  | skipped (htype : property.type ≠ gzValueObject) : Synced isClass engine property index []
  | unread (htype : property.type = gzValueObject) :
    Synced isClass engine property index [.get .next index none]
  | kept (htype : property.type = gzValueObject) (value : GzValue F32 F64)
    (hkept : incompatible isClass engine property (toVariant engine value).1 = false) :
    Synced isClass engine property index [.get .next index (some value)]
  | rejected (htype : property.type = gzValueObject) (value : GzValue F32 F64)
    (hrejected : incompatible isClass engine property (toVariant engine value).1 = true)
    (accepted : Bool) :
    Synced isClass engine property index
      [.get .next index (some value), .set .next index (.object 0) accepted]

/-- Nothing is retained for the properties from an index on. -/
def NothingRetainedFrom (data : InstanceData engine F32 F64 World) (index : ℕ) : Prop :=
  ∀ other, index ≤ other → (data.retainedObjects[other]?.bind asObject) = none

/-- What a pass over a property leaves. -/
structure SyncedPast (data : InstanceData engine F32 F64 World) (index : ℕ)
    (synced : InstanceData engine F32 F64 World) : Prop where
  owner : synced.owner = data.owner
  module : synced.module = data.module
  zigInstance : synced.zigInstance = data.zigInstance
  length : synced.retainedObjects.length = data.retainedObjects.length
  later : ∀ other, index < other →
    synced.retainedObjects[other]? = data.retainedObjects[other]?

theorem SyncedPast.refl (data : InstanceData engine F32 F64 World) (index : ℕ) :
    SyncedPast data index data :=
  ⟨rfl, rfl, rfl, rfl, fun _ _ ↦ rfl⟩

theorem syncedPast_syncProperty (data : InstanceData engine F32 F64 World) (index : ℕ)
    (property : PropertyDescriptor F32 F64) (world : World) :
    SyncedPast data index (syncProperty isClass data index property world).1 := by
  unfold syncProperty
  split
  · exact .refl data index
  · split
    · exact .refl data index
    next value after hget =>
      simp only
      split
      · exact .refl data index
      · split
        · exact .refl data index
        · refine ⟨rfl, rfl, rfl, List.length_set, fun other hlater ↦ ?_⟩
          exact List.getElem?_set_ne (Nat.ne_of_lt hlater)

theorem incompatible_of_invalid (property : PropertyDescriptor F32 F64) {value : GzValue F32 F64}
    (hinvalid : (toVariant engine value).2 = false) :
    incompatible isClass engine property (toVariant engine value).1 = false := by
  cases value with
  | other type => rfl
  | _ => exact absurd hinvalid (Bool.false_ne_true ·.symm)

theorem synced_syncProperty (data : InstanceData engine F32 F64 World) (index : ℕ)
    (property : PropertyDescriptor F32 F64) (world : World)
    (hnothing : data.retainedObjects[index]?.bind asObject = none) :
    Synced isClass engine property index
      (syncProperty isClass data index property world).2.2 := by
  have hzero : retainedId data index = 0 := by
    rw [retainedId, hnothing]
    rfl
  unfold syncProperty
  split
  next htype => exact .skipped htype
  next htype =>
    have htype := not_not.mp htype
    split
    · exact .unread htype
    next value after hget =>
      simp only [hzero]
      split
      next hinvalid =>
        refine .kept htype value (incompatible_of_invalid isClass property ?_)
        simpa using hinvalid
      · split
        next hrejected => exact .rejected htype value hrejected _
        next hkept => exact .kept htype value (by simpa using hkept)

variable {isClass}

/-- Every call of the synchronisation of a property is about the property. -/
theorem Synced.isAbout {property : PropertyDescriptor F32 F64} {index : ℕ}
    {calls : List (Call F32 F64)} (hsynced : Synced isClass engine property index calls) :
    ∀ call ∈ calls, call.isCopy = true ∧ ∀ role other,
      call.isAbout role other = (decide (Role.next = role) && decide (index = other)) := by
  cases hsynced with
  | skipped htype => simp
  | unread htype => simp [Call.isCopy, Call.isAbout]
  | kept htype value hkept => simp [Call.isCopy, Call.isAbout]
  | rejected htype value hrejected accepted => simp [Call.isCopy, Call.isAbout]

theorem Synced.callsAbout_self {property : PropertyDescriptor F32 F64} {index : ℕ}
    {calls : List (Call F32 F64)} (hsynced : Synced isClass engine property index calls) :
    callsAbout .next index calls = calls := by
  refine List.filter_eq_self.mpr fun call hcall ↦ ?_
  rw [(hsynced.isAbout call hcall).2]
  simp

theorem Synced.callsAbout_other {property : PropertyDescriptor F32 F64} {index : ℕ}
    {calls : List (Call F32 F64)} (hsynced : Synced isClass engine property index calls)
    {role : Role} {other : ℕ} (hother : role = .previous ∨ other ≠ index) :
    callsAbout role other calls = [] := by
  refine callsAbout_eq_nil fun call hcall ↦ ?_
  rw [(hsynced.isAbout call hcall).2]
  rcases hother with rfl | hne
  · rfl
  · simp [hne.symm]

/-- What the loop over the properties from an index on does. -/
structure SyncedFrom (isClass : Object → String → Bool) (engine : Engine Object)
    (properties : List (PropertyDescriptor F32 F64)) (start : ℕ)
    (data synced : InstanceData engine F32 F64 World) (calls : List (Call F32 F64)) : Prop where
  owner : synced.owner = data.owner
  module : synced.module = data.module
  zigInstance : synced.zigInstance = data.zigInstance
  length : synced.retainedObjects.length = data.retainedObjects.length
  copies : ∀ call ∈ calls, call.isCopy = true
  next : ∀ offset property, properties[offset]? = some property →
    Synced isClass engine property (start + offset) (callsAbout .next (start + offset) calls)
  before : ∀ index < start, callsAbout .next index calls = []
  previous : ∀ index, callsAbout .previous index calls = []

variable (isClass) in
theorem syncedFrom_syncFrom (properties : List (PropertyDescriptor F32 F64)) (start : ℕ)
    (data : InstanceData engine F32 F64 World) (world : World)
    (hnothing : NothingRetainedFrom data start) :
    SyncedFrom isClass engine properties start data
      (syncFrom isClass properties start data world).1
      (syncFrom isClass properties start data world).2.2 := by
  induction properties generalizing start data world with
  | nil => exact ⟨rfl, rfl, rfl, rfl, by simp [syncFrom], by simp, fun _ _ ↦ rfl, fun _ ↦ rfl⟩
  | cons property properties ih =>
    have hfirst := synced_syncProperty isClass data start property world
      (hnothing start (Nat.le_refl start))
    have hpast := syncedPast_syncProperty isClass data start property world
    simp only [syncFrom]
    generalize syncProperty isClass data start property world = first at hfirst hpast ⊢
    obtain ⟨between, after, calls⟩ := first
    have hbetween : NothingRetainedFrom between (start + 1) := by
      intro other hother
      rw [hpast.later other hother]
      exact hnothing other (Nat.le_of_succ_le hother)
    have hrest := ih (start + 1) between after hbetween
    generalize syncFrom isClass properties (start + 1) between after = rest at hrest ⊢
    obtain ⟨synced, last, others⟩ := rest
    refine ⟨hrest.owner.trans hpast.owner, hrest.module.trans hpast.module,
      hrest.zigInstance.trans hpast.zigInstance, hrest.length.trans hpast.length, ?_, ?_, ?_, ?_⟩
    · intro call hcall
      rcases List.mem_append.mp hcall with hmem | hmem
      · exact (hfirst.isAbout call hmem).1
      · exact hrest.copies call hmem
    · intro offset found hfound
      rw [callsAbout_append]
      cases offset with
      | zero =>
        obtain rfl := Option.some.inj hfound
        rw [Nat.add_zero, hfirst.callsAbout_self, hrest.before start (Nat.lt_succ_self start),
          List.append_nil]
        exact hfirst
      | succ offset =>
        have hother : start + (offset + 1) ≠ start := by omega
        rw [hfirst.callsAbout_other (Or.inr hother), List.nil_append]
        have hnext := hrest.next offset found hfound
        rwa [Nat.add_right_comm, Nat.add_assoc] at hnext
    · intro index hindex
      rw [callsAbout_append, hfirst.callsAbout_other (Or.inr (Nat.ne_of_lt hindex)),
        hrest.before index (Nat.lt_succ_of_lt hindex), List.append_nil]
    · intro index
      rw [callsAbout_append, hfirst.callsAbout_other (Or.inl rfl), hrest.previous index,
        List.append_nil]

/-! ### Copying -/

/-- No two properties are copied to one property. -/
def TargetsDistinct (next : ScriptModule engine F32 F64 World)
    (properties : List (PropertyDescriptor F32 F64)) : Prop :=
  properties.Pairwise fun first second ↦
    ∀ nextIndex, commonIndex next first = some nextIndex →
      commonIndex next second ≠ some nextIndex

theorem commonIndex_eq_some {next : ScriptModule engine F32 F64 World}
    {property : PropertyDescriptor F32 F64} {nextIndex : ℕ}
    (hcommon : commonIndex next property = some nextIndex) :
    ∃ found, next.properties[nextIndex]? = some found ∧
      engine.ofUtf8 found.name = engine.ofUtf8 property.name ∧ found.type = property.type := by
  unfold commonIndex at hcommon
  split at hcommon
  · cases hcommon
  next index hfind =>
    split at hcommon
    next htype =>
      obtain rfl := Option.some.inj hcommon
      obtain ⟨found, hfound, htype⟩ := Option.map_eq_some_iff.mp htype
      refine ⟨found, hfound, ?_, htype⟩
      rw [findProperty, List.findIdx?_eq_some_iff_getElem] at hfind
      obtain ⟨hlt, hname, -⟩ := hfind
      have hget : next.loaded.script.properties[index] = found :=
        (List.getElem?_eq_some_iff.mp hfound).2
      rw [hget] at hname
      exact of_decide_eq_true hname
    · cases hcommon

/-- The properties of a loaded module have distinct names, so they are copied apart. -/
theorem targetsDistinct (module next : ScriptModule engine F32 F64 World) :
    TargetsDistinct next module.properties := by
  have hnodup := module.loaded.namesDistinct
  unfold decodedNames List.Nodup at hnodup
  rw [List.pairwise_map] at hnodup
  refine hnodup.imp fun hnames nextIndex hfirst hsecond ↦ ?_
  obtain ⟨found, hfound, hname, -⟩ := commonIndex_eq_some hfirst
  obtain ⟨other, hother, hsame, -⟩ := commonIndex_eq_some hsecond
  rw [hfound] at hother
  obtain rfl := Option.some.inj hother
  exact hnames (hname.symm.trans hsame)

/-- What the loop that copies does from an index on, if it runs to its end. -/
structure CopiedFrom (next : ScriptModule engine F32 F64 World)
    (properties : List (PropertyDescriptor F32 F64)) (start : ℕ) (calls : List (Call F32 F64)) :
    Prop where
  common : ∀ offset property nextIndex, properties[offset]? = some property →
    commonIndex next property = some nextIndex →
      ∃ value, callsAbout .previous (start + offset) calls =
          [.get .previous (start + offset) (some value)] ∧
        callsAbout .next nextIndex calls = [.set .next nextIndex value true]
  before : ∀ index < start, callsAbout .previous index calls = []
  others : ∀ nextIndex, (∀ property ∈ properties, commonIndex next property ≠ some nextIndex) →
    callsAbout .next nextIndex calls = []

variable {data : InstanceData engine F32 F64 World} {next : ScriptModule engine F32 F64 World}
  {nextInstance : ZigInstance}

theorem isCopy_copyFrom (properties : List (PropertyDescriptor F32 F64)) (start : ℕ)
    (world : World) : ∀ call ∈ (copyFrom data next nextInstance properties start world).2.2,
      call.isCopy = true := by
  induction properties generalizing start world with
  | nil => simp [copyFrom]
  | cons property properties ih =>
    unfold copyFrom
    split
    · exact ih (start + 1) world
    · split
      · simp [Call.isCopy]
      · split
        · simp [Call.isCopy]
        next value _ _ _ after _ =>
          refine List.forall_mem_cons.mpr ⟨rfl, List.forall_mem_cons.mpr ⟨rfl, ?_⟩⟩
          exact ih (start + 1) after

/-- A property that has no counterpart makes no call. -/
theorem CopiedFrom.skip {property : PropertyDescriptor F32 F64}
    {properties : List (PropertyDescriptor F32 F64)} {start : ℕ} {calls : List (Call F32 F64)}
    (hnone : commonIndex next property = none)
    (hrest : CopiedFrom next properties (start + 1) calls) :
    CopiedFrom next (property :: properties) start calls := by
  refine ⟨?_, ?_, ?_⟩
  · intro offset found nextIndex hfound hcommon
    cases offset with
    | zero =>
      obtain rfl := Option.some.inj hfound
      rw [hnone] at hcommon
      cases hcommon
    | succ offset =>
      have hshift : start + (offset + 1) = start + 1 + offset := by omega
      rw [hshift]
      exact hrest.common offset found nextIndex hfound hcommon
  · exact fun index hindex ↦ hrest.before index (Nat.lt_succ_of_lt hindex)
  · exact fun nextIndex hothers ↦ hrest.others nextIndex (List.forall_mem_cons.mp hothers).2

/-- A property with a counterpart that no later property has is read and set. -/
theorem CopiedFrom.copy {property : PropertyDescriptor F32 F64}
    {properties : List (PropertyDescriptor F32 F64)} {start target : ℕ}
    {calls : List (Call F32 F64)} (htarget : commonIndex next property = some target)
    (hapart : ∀ other ∈ properties, commonIndex next other ≠ some target)
    (value : GzValue F32 F64) (hrest : CopiedFrom next properties (start + 1) calls) :
    CopiedFrom next (property :: properties) start
      (.get .previous start (some value) :: .set .next target value true :: calls) := by
  refine ⟨?_, ?_, ?_⟩
  · intro offset found nextIndex hfound hcommon
    cases offset with
    | zero =>
      obtain rfl := Option.some.inj hfound
      obtain rfl := Option.some.inj (htarget.symm.trans hcommon)
      refine ⟨value, ?_, ?_⟩
      · rw [Nat.add_zero, callsAbout_cons_of_pos (by simp [Call.isAbout]),
          callsAbout_cons_of_neg (by simp [Call.isAbout]),
          hrest.before start (Nat.lt_succ_self start)]
      · rw [callsAbout_cons_of_neg (by simp [Call.isAbout]),
          callsAbout_cons_of_pos (by simp [Call.isAbout]), hrest.others target hapart]
    | succ offset =>
      have hshift : start + (offset + 1) = start + 1 + offset := by omega
      have hlater : start ≠ start + 1 + offset := by omega
      have hne : target ≠ nextIndex := by
        rintro rfl
        exact hapart found (List.mem_of_getElem? hfound) hcommon
      obtain ⟨read, hread, hset⟩ := hrest.common offset found nextIndex hfound hcommon
      refine ⟨read, ?_, ?_⟩
      · rw [hshift, callsAbout_cons_of_neg (by simp [Call.isAbout, hlater]),
          callsAbout_cons_of_neg (by simp [Call.isAbout]), hread]
      · rw [callsAbout_cons_of_neg (by simp [Call.isAbout]),
          callsAbout_cons_of_neg (by simp [Call.isAbout, hne]), hset]
  · intro index hindex
    rw [callsAbout_cons_of_neg (by simp [Call.isAbout, Nat.ne_of_gt hindex]),
      callsAbout_cons_of_neg (by simp [Call.isAbout]),
      hrest.before index (Nat.lt_succ_of_lt hindex)]
  · intro nextIndex hothers
    rw [List.forall_mem_cons] at hothers
    have hne : target ≠ nextIndex := by
      rintro rfl
      exact hothers.1 htarget
    rw [callsAbout_cons_of_neg (by simp [Call.isAbout]),
      callsAbout_cons_of_neg (by simp [Call.isAbout, hne]), hrest.others nextIndex hothers.2]

theorem copiedFrom_copyFrom {properties : List (PropertyDescriptor F32 F64)} {start : ℕ}
    {world : World} (hdistinct : TargetsDistinct next properties)
    (hcopied : (copyFrom data next nextInstance properties start world).1 = true) :
    CopiedFrom next properties start
      (copyFrom data next nextInstance properties start world).2.2 := by
  induction properties generalizing start world with
  | nil => exact ⟨by simp, fun _ _ ↦ rfl, fun _ _ ↦ rfl⟩
  | cons property properties ih =>
    obtain ⟨hapart, hdistinct⟩ := List.pairwise_cons.mp hdistinct
    unfold copyFrom at hcopied ⊢
    split at hcopied
    next hnone => exact (ih hdistinct hcopied).skip hnone
    next target htarget =>
      split at hcopied
      · cases hcopied
      next value between hget =>
        simp only
        split at hcopied
        · cases hcopied
        next after hset =>
          simp only
          exact (ih hdistinct hcopied).copy htarget
            (fun other hother ↦ hapart other hother target htarget) value

/-! ### All or nothing -/

/-- The value that a property of the new instance was set to last. -/
def lastSet (index : ℕ) (calls : List (Call F32 F64)) : Option (GzValue F32 F64) :=
  ((callsAbout .next index calls).filterMap fun call ↦
    match call with
    | .set _ _ value true => some value
    | _ => none).getLast?

/-- A property of the new instance was read as an object that is not of its class, and accepted null
for it. -/
def Replaced (isClass : Object → String → Bool) (engine : Engine Object)
    (property : PropertyDescriptor F32 F64) (index : ℕ) (calls : List (Call F32 F64)) : Prop :=
  (∃ value, .get .next index (some value) ∈ calls ∧
      incompatible isClass engine property (toVariant engine value).1 = true) ∧
    .set .next index (.object 0) true ∈ calls

/-- The property was read once, and the new instance's property was set to its value. If it is an
object property it was read back then, and null was tried where the object is not of its class. So
it was last set to the value, or to null. -/
def Transferred (isClass : Object → String → Bool) (engine : Engine Object) (index nextIndex : ℕ)
    (nextProperty : PropertyDescriptor F32 F64) (calls : List (Call F32 F64)) : Prop :=
  ∃ value syncs, callsAbout .previous index calls = [.get .previous index (some value)] ∧
    callsAbout .next nextIndex calls = .set .next nextIndex value true :: syncs ∧
    Synced isClass engine nextProperty nextIndex syncs ∧
    (Replaced isClass engine nextProperty nextIndex calls →
      lastSet nextIndex calls = some (.object 0)) ∧
    (¬ Replaced isClass engine nextProperty nextIndex calls → lastSet nextIndex calls = some value)

/-- What is demanded of a migration: of two instances one is destroyed; without success nothing has
changed, and with it the new instance has every property the two modules have in common. -/
structure AllOrNothing (isClass : Object → String → Bool)
    (data : InstanceData engine F32 F64 World) (next : ScriptModule engine F32 F64 World)
    (outcome : Outcome engine F32 F64 World) : Prop where
  destroysOne : created outcome.calls = [] ∧ destroyed outcome.calls = [] ∨
    ∃ nextInstance role, created outcome.calls = [nextInstance] ∧ destroyed outcome.calls = [role]
  nothing : outcome.migrated = false → outcome.data = data ∧ .previous ∉ destroyed outcome.calls
  all : outcome.migrated = true → outcome.data.owner = data.owner ∧ outcome.data.module = next ∧
    created outcome.calls = [outcome.data.zigInstance] ∧ destroyed outcome.calls = [.previous]
  transferred : outcome.migrated = true → ∀ index property nextIndex nextProperty,
    data.module.properties[index]? = some property →
      next.properties[nextIndex]? = some nextProperty →
        engine.ofUtf8 nextProperty.name = engine.ofUtf8 property.name →
          nextProperty.type = property.type →
            Transferred isClass engine index nextIndex nextProperty outcome.calls

theorem commonIndex_of_same {property nextProperty : PropertyDescriptor F32 F64} {nextIndex : ℕ}
    (hnext : next.properties[nextIndex]? = some nextProperty)
    (hname : engine.ofUtf8 nextProperty.name = engine.ofUtf8 property.name)
    (htype : nextProperty.type = property.type) : commonIndex next property = some nextIndex := by
  obtain ⟨hlt, hget⟩ := List.getElem?_eq_some_iff.mp hnext
  have hnodup := next.loaded.namesDistinct
  have hfind : findProperty engine next.loaded.script property.name = some nextIndex := by
    rw [findProperty, List.findIdx?_eq_some_iff_getElem]
    refine ⟨hlt, ?_, fun other hother ↦ ?_⟩
    · change decide (engine.ofUtf8 next.properties[nextIndex].name = _) = true
      rw [hget]
      exact decide_eq_true hname
    · have hotherLt : other < next.loaded.script.properties.length := Nat.lt_trans hother hlt
      have hapart := List.pairwise_iff_getElem.mp (List.pairwise_map.mp hnodup) other nextIndex
        hotherLt hlt hother
      intro hsame
      refine hapart ((of_decide_eq_true hsame).trans ?_)
      change engine.ofUtf8 property.name = engine.ofUtf8 next.properties[nextIndex].name
      rw [hget, hname]
  unfold commonIndex
  rw [hfind]
  simp only [hnext, Option.map_some, htype, if_true]

/-- A copy and then a synchronisation of a property set it to the value, or to null. -/
theorem transferred_of_calls {index nextIndex : ℕ} {nextProperty : PropertyDescriptor F32 F64}
    {calls syncs : List (Call F32 F64)} {value : GzValue F32 F64}
    (hread : callsAbout .previous index calls = [.get .previous index (some value)])
    (hcalls : callsAbout .next nextIndex calls = .set .next nextIndex value true :: syncs)
    (hsynced : Synced isClass engine nextProperty nextIndex syncs) :
    Transferred isClass engine index nextIndex nextProperty calls := by
  have hmem : ∀ call : Call F32 F64, call.isAbout .next nextIndex = true →
      (call ∈ calls ↔ call ∈ callsAbout .next nextIndex calls) := by
    intro call habout
    rw [callsAbout, List.mem_filter]
    exact (and_iff_left habout).symm
  have hget : ∀ read, Call.get .next nextIndex (some read) ∈ calls ↔
      Call.get .next nextIndex (some read) ∈ syncs := by
    intro read
    rw [hmem _ (by simp [Call.isAbout]), hcalls]
    simp
  have hset : ∀ written, Call.set .next nextIndex written true ∈ calls ↔
      written = value ∨ Call.set .next nextIndex written true ∈ syncs := by
    intro written
    rw [hmem _ (by simp [Call.isAbout]), hcalls]
    simp
  refine ⟨value, syncs, hread, hcalls, hsynced, ?_⟩
  unfold Replaced lastSet
  simp only [hget, hset, hcalls]
  cases hsynced with
  | skipped htype => simp
  | unread htype => simp
  | kept htype read hkept => simp [hkept]
  | rejected htype read hrejected accepted =>
    cases accepted with
    | false =>
      -- Null was refused, so the value stands, be it null itself.
      constructor
      · rintro ⟨-, hnull⟩
        rcases hnull with hnull | hnull
        · simp [hnull]
        · simp at hnull
      · simp
    | true => simp [hrejected]

theorem created_append (first second : List (Call F32 F64)) :
    created (first ++ second) = created first ++ created second :=
  List.filterMap_append

theorem destroyed_append (first second : List (Call F32 F64)) :
    destroyed (first ++ second) = destroyed first ++ destroyed second :=
  List.filterMap_append

/-- A migration that creates an instance, copies and destroys one of the two. -/
theorem created_destroyed {nextInstance : ZigInstance} {role : Role}
    {copies : List (Call F32 F64)} (hcopies : ∀ call ∈ copies, call.isCopy = true) :
    created (.create (some nextInstance) :: copies ++ [.destroy role]) = [nextInstance] ∧
      destroyed (.create (some nextInstance) :: copies ++ [.destroy role]) = [role] := by
  have hcons : Call.create (some nextInstance) :: copies =
      [Call.create (some nextInstance)] ++ copies := rfl
  rw [hcons, created_append, created_append, destroyed_append, destroyed_append,
    created_of_copies hcopies, destroyed_of_copies hcopies]
  exact ⟨rfl, rfl⟩

theorem nothingRetained_freshData (data : InstanceData engine F32 F64 World)
    (next : ScriptModule engine F32 F64 World) (nextInstance : ZigInstance) :
    NothingRetainedFrom (freshData data next nextInstance) 0 := by
  intro index _
  rw [freshData, List.getElem?_replicate]
  split_ifs <;> rfl

/-- A migration whose copies all succeed. -/
theorem allOrNothing_of_copied {migrated : InstanceData engine F32 F64 World}
    {copies syncs : List (Call F32 F64)} (hcopies : ∀ call ∈ copies, call.isCopy = true)
    (hcopied : CopiedFrom next data.module.properties 0 copies)
    (hsynced : SyncedFrom isClass engine next.properties 0 (freshData data next nextInstance)
      migrated syncs) (world : World) :
    AllOrNothing isClass data next ⟨true, migrated, world,
      .create (some nextInstance) :: copies ++ syncs ++ [.destroy .previous]⟩ := by
  have hcalls : ∀ call ∈ copies ++ syncs, call.isCopy = true := by
    intro call hcall
    rcases List.mem_append.mp hcall with hmem | hmem
    · exact hcopies call hmem
    · exact hsynced.copies call hmem
  have hbalance : created (.create (some nextInstance) :: (copies ++ syncs) ++
      [.destroy .previous]) = [nextInstance] ∧
        destroyed (.create (some nextInstance) :: (copies ++ syncs) ++ [.destroy .previous]) =
          [.previous] := created_destroyed hcalls
  obtain ⟨hcreated, hdestroyed⟩ := hbalance
  have habout : ∀ role index, callsAbout role index
      (.create (some nextInstance) :: copies ++ syncs ++ [.destroy .previous]) =
        callsAbout role index copies ++ callsAbout role index syncs := by
    intro role index
    have hcreate : ¬ (Call.create (some nextInstance) : Call F32 F64).isAbout role index = true :=
      Bool.false_ne_true
    have hdestroy : callsAbout role index [(.destroy .previous : Call F32 F64)] = [] := rfl
    rw [callsAbout_append, callsAbout_append, callsAbout_cons_of_neg hcreate, hdestroy,
      List.append_nil]
  refine ⟨Or.inr ⟨nextInstance, .previous, hcreated, hdestroyed⟩, ?_, ?_, ?_⟩
  · exact fun hfailed ↦ absurd hfailed.symm Bool.false_ne_true
  · refine fun _ ↦ ⟨hsynced.owner, hsynced.module, ?_, hdestroyed⟩
    rw [hsynced.zigInstance]
    exact hcreated
  · intro _ index property nextIndex nextProperty hproperty hnext hname htype
    have hcommon : commonIndex next property = some nextIndex :=
      commonIndex_of_same hnext hname htype
    obtain ⟨value, hread, hset⟩ := hcopied.common index property nextIndex hproperty hcommon
    have hsync := hsynced.next nextIndex nextProperty hnext
    rw [Nat.zero_add] at hread hsync
    have hreads : callsAbout .previous index
        (.create (some nextInstance) :: copies ++ syncs ++ [.destroy .previous]) =
          [.get .previous index (some value)] := by
      rw [habout, hread, hsynced.previous, List.append_nil]
    have hsets : callsAbout .next nextIndex
        (.create (some nextInstance) :: copies ++ syncs ++ [.destroy .previous]) =
          .set .next nextIndex value true :: callsAbout .next nextIndex syncs := by
      rw [habout, hset, List.singleton_append]
    exact transferred_of_calls hreads hsets hsync

/-- Whatever the functions of the two modules return, a migration is all or nothing. -/
theorem migrateEditorInstance_allOrNothing (data : InstanceData engine F32 F64 World)
    (next : ScriptModule engine F32 F64 World) (world : World) :
    AllOrNothing isClass data next (migrateEditorInstance isClass data next world) := by
  unfold migrateEditorInstance
  split
  next hcreate =>
    refine ⟨Or.inl ⟨rfl, rfl⟩, fun _ ↦ ⟨rfl, List.not_mem_nil⟩, ?_, ?_⟩
    · exact fun hmigrated ↦ absurd hmigrated Bool.false_ne_true
    · exact fun hmigrated ↦ absurd hmigrated Bool.false_ne_true
  next nextInstance between hcreate =>
    have hcopies : ∀ call ∈ (copyFrom data next nextInstance data.module.properties 0 between).2.2,
        call.isCopy = true := isCopy_copyFrom data.module.properties 0 between
    have hcopied : (copyFrom data next nextInstance data.module.properties 0 between).1 = true →
        CopiedFrom next data.module.properties 0
          (copyFrom data next nextInstance data.module.properties 0 between).2.2 :=
      copiedFrom_copyFrom (targetsDistinct data.module next)
    generalize copyFrom data next nextInstance data.module.properties 0 between = copied
      at hcopies hcopied ⊢
    obtain ⟨ran, after, copies⟩ := copied
    cases ran with
    | false =>
      have hbalance : created (.create (some nextInstance) :: copies ++ [.destroy .next]) =
          [nextInstance] ∧
            destroyed (.create (some nextInstance) :: copies ++ [.destroy .next]) = [.next] :=
        created_destroyed hcopies
      obtain ⟨hcreated, hdestroyed⟩ := hbalance
      refine ⟨Or.inr ⟨nextInstance, .next, hcreated, hdestroyed⟩, fun _ ↦ ⟨rfl, ?_⟩, ?_, ?_⟩
      · rw [hdestroyed]
        decide
      · exact fun hmigrated ↦ absurd hmigrated Bool.false_ne_true
      · exact fun hmigrated ↦ absurd hmigrated Bool.false_ne_true
    | true =>
      have hsynced := syncedFrom_syncFrom isClass next.properties 0
        (freshData data next nextInstance) after (nothingRetained_freshData data next nextInstance)
      exact allOrNothing_of_copied hcopies (hcopied rfl) hsynced _

/-! ### The migration of a script's instances -/

section Refresh

variable {Module : Type} (runtime : Instances.Runtime Module Object F32 F64)
  (call : Instances.RefreshCall Module F32 F64)

/-- The functions of a module during a deferred call. -/
def refreshFunctions (module : Module) : ScriptFunctions Unit F32 F64 where
  createInstance owner world := (call.createInstance module owner, world)
  getProperty zigInstance index world := (call.getProperty module zigInstance index, world)
  setProperty zigInstance index value world :=
    (call.setProperty module zigInstance index value, world)
  destroyInstance _ world := world

/-- Every module of a script is loaded. -/
def AllLoaded : Prop :=
  ∀ module, (decodedNames runtime.engine (runtime.descriptor module)).Nodup

variable {runtime}

/-- A module of a script, as it is loaded, during a deferred call. -/
def refreshModule (hloaded : AllLoaded runtime) (module : Module) :
    ScriptModule runtime.engine F32 F64 Unit where
  loaded := ⟨runtime.descriptor module, hloaded module⟩
  functions := refreshFunctions call module

/-- An instance of a script, with what it retains. -/
def refreshData (hloaded : AllLoaded runtime) (data : Instances.InstanceData Module)
    (retained : List (Variant Object F32 F64)) : InstanceData runtime.engine F32 F64 Unit where
  owner := data.owner
  module := refreshModule call hloaded data.module
  zigInstance := data.zigInstance
  retainedObjects := retained

theorem copyFrom_refresh (hloaded : AllLoaded runtime) (data : Instances.InstanceData Module)
    (retained : List (Variant Object F32 F64)) (next : Module) (nextInstance : ZigInstance)
    (properties : List (PropertyDescriptor F32 F64)) (index : ℕ) :
    (copyFrom (refreshData call hloaded data retained) (refreshModule call hloaded next)
        nextInstance properties index ()).1 =
      Instances.GzScript.copyProperties runtime call data next nextInstance properties index := by
  induction properties generalizing index with
  | nil => rfl
  | cons property properties ih =>
    have hrest := ih (index + 1)
    rw [Instances.GzScript.copyProperties, ← hrest, copyFrom, commonIndex]
    have hscript : (refreshModule call hloaded next).loaded.script = runtime.descriptor next := rfl
    have hproperties : (refreshModule call hloaded next).properties =
        (runtime.descriptor next).properties := rfl
    have hget : (refreshData call hloaded data retained).module.functions.getProperty
        (refreshData call hloaded data retained).zigInstance index () =
          (call.getProperty data.module data.zigInstance index, ()) := rfl
    have hset : ∀ nextIndex value,
        (refreshModule call hloaded next).functions.setProperty nextInstance nextIndex value () =
          (call.setProperty next nextInstance nextIndex value, ()) := fun _ _ ↦ rfl
    rw [hscript, hproperties]
    cases findProperty runtime.engine (runtime.descriptor next) property.name with
    | none => simp only [Bool.true_and]
    | some nextIndex =>
      simp only [hget]
      by_cases htype : (runtime.descriptor next).properties[nextIndex]?.map
          PropertyDescriptor.type = some property.type
      · simp only [if_pos htype]
        cases call.getProperty data.module data.zigInstance index with
        | none => rfl
        | some value =>
          simp only [hset]
          cases call.setProperty next nextInstance nextIndex value <;> rfl
      · simp only [if_neg htype, Bool.true_and]

/-- For a script, a migration does to an instance what the deferred call does with it. -/
theorem migrateEditorInstance_refresh (hloaded : AllLoaded runtime)
    (data : Instances.InstanceData Module) (retained : List (Variant Object F32 F64))
    (next : Module) :
    Instances.GzScript.migrateEditorInstance runtime call data next =
      if (migrateEditorInstance isClass (refreshData call hloaded data retained)
          (refreshModule call hloaded next) ()).migrated then
        some { data with
          module := next
          zigInstance := (migrateEditorInstance isClass (refreshData call hloaded data retained)
            (refreshModule call hloaded next) ()).data.zigInstance }
      else none := by
  have hcreate : (refreshModule call hloaded next).functions.createInstance
      (refreshData call hloaded data retained).owner () =
        (call.createInstance next data.owner, ()) := rfl
  unfold Instances.GzScript.migrateEditorInstance migrateEditorInstance
  simp only [hcreate]
  cases call.createInstance next data.owner with
  | none => rfl
  | some nextInstance =>
    have hcopy := copyFrom_refresh call hloaded data retained next nextInstance
      (runtime.descriptor data.module).properties 0
    have hproperties : (refreshData call hloaded data retained).module.properties =
        (runtime.descriptor data.module).properties := rfl
    have hsynced := syncedFrom_syncFrom isClass (refreshModule call hloaded next).properties 0
      (freshData (refreshData call hloaded data retained) (refreshModule call hloaded next)
        nextInstance)
    simp only [hproperties, ← hcopy]
    generalize copyFrom (refreshData call hloaded data retained) (refreshModule call hloaded next)
      nextInstance (runtime.descriptor data.module).properties 0 () = copied
    obtain ⟨ran, world, copies⟩ := copied
    cases ran with
    | false => rfl
    | true =>
      have hzig := (hsynced world (nothingRetained_freshData _ _ _)).zigInstance
      simp only [if_true]
      exact congrArg some (congrArg (fun zigInstance ↦
        (⟨data.address, data.owner, next, zigInstance⟩ : Instances.InstanceData Module)) hzig.symm)

end Refresh

/-! ### An instance whose object stays -/

/-- An engine with one object. -/
def soleEngine : Engine Unit where
  getInstance objectId := if objectId = 5 then some () else none
  getInstanceId _ := 5
  getInstance_zero := rfl
  utf8 := sampleEngine.utf8
  ofUtf8 := sampleEngine.ofUtf8
  ofUtf8_utf8 := sampleEngine.ofUtf8_utf8

/-- A property `a` of the class `B`. -/
def objectProperty : PropertyDescriptor Empty ℕ where
  name := [97]
  type := gzValueObject
  hint := 0
  hintString := []
  className := [66]
  rangeMin := 0
  rangeMax := 0
  rangeStep := 0
  defaultValue := .nil

/-- A module with the property. The instance it creates cannot be read, any other holds the object;
every value is accepted. -/
def objectModule : ScriptModule soleEngine Empty ℕ Unit where
  loaded := ⟨⟨[], [objectProperty], []⟩, List.pairwise_singleton _ _⟩
  functions :=
    { createInstance := fun _ world ↦ (some 1, world)
      getProperty := fun zigInstance _ world ↦
        (if zigInstance = 1 then none else some (.object 5), world)
      setProperty := fun _ _ _ world ↦ (true, world)
      destroyInstance := fun _ world ↦ world }

def objectInstance : InstanceData soleEngine Empty ℕ Unit := ⟨9, objectModule, 0, [.nil]⟩

/-- No object is of the class `B`, and the property accepts null. Still it keeps the object that was
read, because the new instance cannot be read. -/
theorem incompatible_object_kept :
    ∃ value, (migrateEditorInstance (fun _ _ ↦ false) objectInstance objectModule ()).migrated =
        true ∧
      callsAbout .previous 0 (migrateEditorInstance (fun _ _ ↦ false) objectInstance objectModule
        ()).calls = [.get .previous 0 (some value)] ∧
      incompatible (fun _ _ ↦ false) soleEngine objectProperty (toVariant soleEngine value).1 =
        true ∧
      (∀ zigInstance world,
        (objectModule.functions.setProperty zigInstance 0 (.object 0) world).1 = true) ∧
      lastSet 0 (migrateEditorInstance (fun _ _ ↦ false) objectInstance objectModule ()).calls ≠
        some (.object 0) := by
  have hcalls : (migrateEditorInstance (fun _ _ ↦ false) objectInstance objectModule ()).calls =
      [.create (some 1), .get .previous 0 (some (.object 5)), .set .next 0 (.object 5) true,
        .get .next 0 none, .destroy .previous] := by
    rfl
  refine ⟨.object 5, rfl, ?_, by decide +kernel, fun _ _ ↦ rfl, ?_⟩
  · rw [hcalls]
    rfl
  · rw [hcalls]
    change some (GzValue.object 5) ≠ some (GzValue.object 0)
    simp

end Gzscript.Script.Migration
