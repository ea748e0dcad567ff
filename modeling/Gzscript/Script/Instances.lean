import Gzscript.Abi.Descriptor

/-!
# A script and its live instances

A script publishes one module after another. In the editor the live instances follow: a publish
takes down the instances that use another module, and deferred calls migrate them, at least
`minBatch` at a time and then for as long as a time budget lasts. The owner of a migrated instance
is told to list its properties anew when the publish has changed the exports.

A module stands for itself, and the descriptor it was loaded with is given. What its code returns,
and the time, is part of each deferred call (`RefreshCall`). Instances are told apart by their
address, and the hash set of them is iterated in the order of the list.
-/

set_option autoImplicit false
set_option relaxedAutoImplicit false

namespace Gzscript.Script.Instances

open Library.Bytes Abi.Value Abi.Descriptor

/-- The address of an `InstanceData`. -/
abbrev InstanceId : Type := ℕ

/-- An instance inside a module, as the module knows it. -/
abbrev ZigInstance : Type := ℕ

structure InstanceData (Module : Type) where
  address : InstanceId
  owner : UInt64
  module : Module
  zigInstance : ZigInstance
  deriving DecidableEq

/-- A successful migration, and whether the owner was told in the same step. -/
structure Migration (Module : Type) where
  owner : UInt64
  before : Module
  after : Module
  notified : Bool
  deriving DecidableEq

structure GzScript (Module : Type) where
  module : Option Module
  pendingModule : Option Module
  pendingRefresh : Bool
  refreshCallScheduled : Bool
  /-- The calls of `_apply_pending_refresh` that the message queue of the engine holds. -/
  deferredCalls : ℕ
  pendingExportsChanged : Bool
  pendingRefreshInstances : List InstanceId
  refreshIndex : ℕ
  instances : List (InstanceData Module)
  /-- Every migration so far, the latest first. Nothing reads it. -/
  migrations : List (Migration Module)

/-- A script that has just been made. -/
def initial (Module : Type) : GzScript Module where
  module := none
  pendingModule := none
  pendingRefresh := false
  refreshCallScheduled := false
  deferredCalls := 0
  pendingExportsChanged := false
  pendingRefreshInstances := []
  refreshIndex := 0
  instances := []
  migrations := []

/-- The loaded modules and what is used of the engine. -/
structure Runtime (Module Object F32 F64 : Type) where
  descriptor : Module → ScriptDescriptor F32 F64
  engine : Engine Object
  equality : Equality Object F32 F64

/-- What a deferred call finds: the results of the modules' functions, and the microseconds that
have passed when a number of instances are processed. -/
structure RefreshCall (Module F32 F64 : Type) where
  createInstance : Module → UInt64 → Option ZigInstance
  getProperty : Module → ZigInstance → ℕ → Option (GzValue F32 F64)
  setProperty : Module → ZigInstance → ℕ → GzValue F32 F64 → Bool
  elapsed : ℕ → ℕ

variable {Module Object F32 F64 : Type} [DecidableEq Module]
variable (runtime : Runtime Module Object F32 F64)

/-- `has_same_exports` of two loaded modules. -/
def sameExports (lhs rhs : Module) : Bool :=
  hasSameExports runtime.engine runtime.equality (some (runtime.descriptor lhs))
    (some (runtime.descriptor rhs))

namespace GzScript

/-- The live instance at an address. -/
def find (script : GzScript Module) (address : InstanceId) : Option (InstanceData Module) :=
  script.instances.find? fun data ↦ data.address = address

def setInstance (script : GzScript Module) (data : InstanceData Module) : GzScript Module :=
  { script with
    instances := script.instances.map fun other ↦
      if other.address = data.address then data else other }

/-! ### Publishing -/

/-- `call_deferred` of `_apply_pending_refresh`. -/
def callDeferred (script : GzScript Module) : GzScript Module :=
  { script with deferredCalls := script.deferredCalls + 1 }

/-- `_schedule_pending_refresh`. -/
def schedulePendingRefresh (script : GzScript Module) : GzScript Module :=
  if script.refreshCallScheduled || !script.pendingRefresh || script.pendingModule.isNone then
    script
  else
    callDeferred { script with refreshCallScheduled := true }

/-- The exports change with a first module, and with one whose exports are not the current ones. -/
def exportsChanged (script : GzScript Module) (next : Module) : Bool :=
  match script.module with
  | none => true
  | some current => !sameExports runtime current next

/-- `publish_module`. -/
def publishModule (isEditorHint : Bool) (script : GzScript Module) (nextModule : Option Module) :
    GzScript Module :=
  match nextModule with
  | none => script
  | some next =>
    if !isEditorHint then { script with module := some next }
    else
      let stale := (script.instances.filter fun data ↦ data.module ≠ next).map (·.address)
      if stale = [] then
        { script with
          module := some next
          pendingModule := none
          pendingRefresh := false
          pendingExportsChanged := false
          pendingRefreshInstances := []
          refreshIndex := 0 }
      else
        schedulePendingRefresh
          { script with
            module := some next
            pendingModule := some next
            pendingRefresh := true
            pendingExportsChanged := script.exportsChanged runtime next
            pendingRefreshInstances := stale
            refreshIndex := 0 }

/-! ### Refreshing -/

/-- `MIN_BATCH`. -/
def minBatch : ℕ := 8

/-- `TIME_BUDGET_USEC`. -/
def timeBudgetUsec : ℕ := 2000

/-- The properties of an instance are read from its module and set in the next one, from an index
on; those the next module has not, or with another type, are left out. -/
def copyProperties (call : RefreshCall Module F32 F64) (data : InstanceData Module) (next : Module)
    (nextInstance : ZigInstance) : List (PropertyDescriptor F32 F64) → ℕ → Bool
  | [], _ => true
  | property :: properties, index =>
    let copied :=
      match findProperty runtime.engine (runtime.descriptor next) property.name with
      | none => true
      | some nextIndex =>
        if (runtime.descriptor next).properties[nextIndex]?.map (·.type) = some property.type then
          match call.getProperty data.module data.zigInstance index with
          | some value => call.setProperty next nextInstance nextIndex value
          | none => false
        else true
    copied && copyProperties call data next nextInstance properties (index + 1)

/-- `migrate_editor_instance`: the instance under the next module, unless a function of one of the
modules fails. -/
def migrateEditorInstance (call : RefreshCall Module F32 F64) (data : InstanceData Module)
    (next : Module) : Option (InstanceData Module) :=
  match call.createInstance next data.owner with
  | none => none
  | some nextInstance =>
    if copyProperties runtime call data next nextInstance
        (runtime.descriptor data.module).properties 0 then
      some { data with module := next, zigInstance := nextInstance }
    else none

/-- One pass of the loop, with an instance that uses another module. -/
def refreshInstance (call : RefreshCall Module F32 F64) (script : GzScript Module)
    (data : InstanceData Module) (next : Module) : GzScript Module :=
  match migrateEditorInstance runtime call data next with
  | some migrated =>
    let migration : Migration Module :=
      ⟨data.owner, data.module, next, script.pendingExportsChanged⟩
    { script.setInstance migrated with migrations := migration :: script.migrations }
  | none => script

/-- The loop of `_apply_pending_refresh` over the instances from `refresh_index` on. -/
def refreshLoop (call : RefreshCall Module F32 F64) (next : Module) :
    List InstanceId → ℕ → GzScript Module → GzScript Module
  | [], _, script => script
  | address :: rest, processed, script =>
    let script := { script with refreshIndex := script.refreshIndex + 1 }
    match script.find address with
    | none => refreshLoop call next rest processed script
    | some data =>
      if data.module = next then refreshLoop call next rest processed script
      else
        let refreshed := refreshInstance runtime call script data next
        if minBatch ≤ processed + 1 ∧ timeBudgetUsec ≤ call.elapsed (processed + 1) then refreshed
        else refreshLoop call next rest (processed + 1) refreshed

/-- `_apply_pending_refresh`. -/
def applyPendingRefresh (call : RefreshCall Module F32 F64) (script : GzScript Module) :
    GzScript Module :=
  let script := { script with refreshCallScheduled := false }
  match script.pendingRefresh, script.pendingModule with
  | true, some next =>
    let refreshed := refreshLoop runtime call next
      (script.pendingRefreshInstances.drop script.refreshIndex) 0 script
    if refreshed.refreshIndex < refreshed.pendingRefreshInstances.length then
      refreshed.schedulePendingRefresh
    else
      { refreshed with
        pendingRefresh := false
        pendingExportsChanged := false
        pendingModule := none
        pendingRefreshInstances := []
        refreshIndex := 0 }
  | _, _ => script

/-! ### Instances -/

/-- `_instance_create`: the module creates its part, and the instance gets an address that is
free. -/
def instanceCreate (script : GzScript Module) (owner : Option UInt64)
    (created : Option ZigInstance) (address : InstanceId) : GzScript Module :=
  match script.module, owner, created with
  | some module, some owner, some zigInstance =>
    if (script.find address).isSome then script
    else { script with instances := ⟨address, owner, module, zigInstance⟩ :: script.instances }
  | _, _, _ => script

/-- `instance_free`. -/
def instanceFree (script : GzScript Module) (address : InstanceId) : GzScript Module :=
  { script with instances := script.instances.filter fun data ↦ data.address ≠ address }

end GzScript

/-! ### Runs -/

inductive Op (Module F32 F64 : Type)
  | publishModule (next : Option Module)
  | applyPendingRefresh (call : RefreshCall Module F32 F64)
  | instanceCreate (owner : Option UInt64) (created : Option ZigInstance) (address : InstanceId)
  | instanceFree (address : InstanceId)
  /-- The hash set is iterated in another order. -/
  | rehash (order : List (InstanceData Module))

/-- One operation in the editor. -/
def step (script : GzScript Module) : Op Module F32 F64 → GzScript Module
  | .publishModule next => script.publishModule runtime true next
  | .applyPendingRefresh call => script.applyPendingRefresh runtime call
  | .instanceCreate owner created address => script.instanceCreate owner created address
  | .instanceFree address => script.instanceFree address
  | .rehash order =>
    if order.Perm script.instances then { script with instances := order } else script

end Gzscript.Script.Instances
