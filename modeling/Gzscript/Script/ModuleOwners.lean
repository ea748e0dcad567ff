import Gzscript.Library.SharedPointers
import Gzscript.Library.Transition
import Gzscript.Script.Migration

/-!
# Who keeps a module loaded

A compiled module is unloaded when the last `shared_ptr` to it goes. A script has two of them, each
of its instances has one, and a few locals hold one for a while; the script itself lives as long as
there is a `Ref` to it, and every instance has one. A `Scene` is the script of `Script.Instances`
together with these pointers, written in the order in which the source writes them, and with a log
of what happens in the modules.

The log is read by `watch`, which says what the pointers are for: code of a module runs, and its
descriptor is read, while its library is loaded; an instance inside a module is used between its
creation and its destruction; and a library is closed when it holds no instance any more.

A function that `instance_call` or `instance_notification` calls may come back to the scene before
it returns, to any depth, and a `Stage` has the calls that have not returned. It may also free the
object that it is called on. Then the instance goes while its code runs, and the objects of an
`InstanceData` that is deleted are read after the call. `Spares` is that no function does so, and
that the deferred call comes when none runs. What makes and destroys an
instance inside a module, and what listens to the signals of the script, does not come back.
-/

set_option autoImplicit false
set_option relaxedAutoImplicit false

namespace Gzscript.Script.ModuleOwners

open Abi.Value Abi.Descriptor Instances Library.SharedPointers
open Migration (gzValueObject)

/-! ### What happens in the modules -/

inductive Event (Module : Type)
  /-- `open_library`, of a module that is loaded. -/
  | loaded (module : Module)
  /-- The descriptor of a module is read, or a function of it is called. -/
  | entered (module : Module)
  /-- `create_instance` has made an instance. -/
  | created (module : Module) (zigInstance : ZigInstance)
  /-- A function of a module is called with an instance, or comes to its end. -/
  | used (module : Module) (zigInstance : ZigInstance)
  /-- `destroy_instance`. -/
  | destroyed (module : Module) (zigInstance : ZigInstance)
  /-- `~GzCompiledModule` closes the library. -/
  | closed (module : Module)
  /-- A null pointer is followed, or one to what is deleted. -/
  | nullAccess
  /-- A member of the script is called. -/
  | touched
  /-- `~GzScript` begins. -/
  | freed
  deriving DecidableEq

structure Watched (Module : Type) where
  loaded : List Module
  closed : List Module
  live : List (Module × ZigInstance)
  script : Bool

/-- A script has just been made, and nothing is loaded. -/
def unwatched (Module : Type) : Watched Module := ⟨[], [], [], true⟩

variable {Module Object F32 F64 : Type} [DecidableEq Module]

/-- One event, unless it is an error. -/
def watch (watched : Watched Module) : Event Module → Option (Watched Module)
  | .loaded module =>
    if module ∈ watched.loaded ∨ module ∈ watched.closed then none
    else some { watched with loaded := module :: watched.loaded }
  | .entered module => if module ∈ watched.loaded then some watched else none
  | .created module zigInstance =>
    if module ∈ watched.loaded then
      some { watched with live := (module, zigInstance) :: watched.live }
    else none
  | .used module zigInstance =>
    if module ∈ watched.loaded ∧ (module, zigInstance) ∈ watched.live then some watched else none
  | .destroyed module zigInstance =>
    if module ∈ watched.loaded ∧ (module, zigInstance) ∈ watched.live then
      some { watched with live := watched.live.erase (module, zigInstance) }
    else none
  | .closed module =>
    if module ∈ watched.loaded ∧ module ∉ watched.live.map Prod.fst then
      some
        { watched with
          loaded := watched.loaded.erase module
          closed := module :: watched.closed }
    else none
  | .nullAccess => none
  | .touched => if watched.script then some watched else none
  | .freed => if watched.script then some { watched with script := false } else none

def watchAll (watched : Watched Module) (log : List (Event Module)) : Option (Watched Module) :=
  log.foldlM watch watched

-- A module is entered after it is closed; an instance is left in a library that is closed.
example : watchAll (unwatched ℕ) [.loaded 1, .closed 1, .entered 1] = none := by decide
example : watchAll (unwatched ℕ) [.loaded 1, .created 1 7, .closed 1] = none := by decide

/-! ### The pointers -/

/-- The places that hold a `shared_ptr<GzCompiledModule>`. -/
inductive Slot
  /-- What `finish` or `compile` has returned to its caller. -/
  | finished
  /-- The parameter of `publish_module`. -/
  | nextModule
  | module
  | pendingModule
  /-- The local of `migrate_editor_instance`. -/
  | previousModule
  | ofInstance (address : InstanceId)
  deriving DecidableEq

/-- The places that hold a `Ref<GzScript>`. -/
inductive Holder
  | user (index : ℕ)
  | ofInstance (address : InstanceId)
  deriving DecidableEq

structure Memory (Module : Type) where
  pointers : Pointers Slot Module
  references : Pointers Holder Unit
  log : List (Event Module)

namespace Memory

def notes (memory : Memory Module) (events : List (Event Module)) : Memory Module :=
  { memory with log := memory.log ++ events }

/-- What happens through the pointer in a slot. -/
def through (memory : Memory Module) (slot : Slot) (event : Module → Event Module) :
    Memory Module :=
  match memory.pointers.held slot with
  | none => memory.notes [.nullAccess]
  | some module => memory.notes [event module]

/-- A slot is written, and the library of a module that is destroyed by it is closed. -/
def write (memory : Memory Module) (written : Pointers Slot Module × Option Module) :
    Memory Module :=
  { memory with
    pointers := written.1
    log := memory.log ++ written.2.toList.map .closed }

def assign (memory : Memory Module) (slot : Slot) (value : Option Module) : Memory Module :=
  memory.write (memory.pointers.assign slot value)

def copy (memory : Memory Module) (target source : Slot) : Memory Module :=
  memory.assign target (memory.pointers.held source)

def reset (memory : Memory Module) (slot : Slot) : Memory Module := memory.assign slot none

def move (memory : Memory Module) (target source : Slot) : Memory Module :=
  memory.write (memory.pointers.move target source)

/-- `GzCompiledModule::load`, of a library that is accepted. -/
def load (memory : Memory Module) (module : Module) : Memory Module :=
  ((memory.notes [.loaded module]).assign .finished (some module)).through .finished .entered

def refer (memory : Memory Module) (holder : Holder) (value : Option Unit) : Memory Module :=
  let (references, destroyed) := memory.references.assign holder value
  { memory with
    references
    log := memory.log ++ destroyed.toList.map fun _ ↦ .freed }

end Memory

structure Scene (Module : Type) where
  script : GzScript Module
  memory : Memory Module

/-- A script that someone has just made, and holds. -/
def initialScene (Module : Type) : Scene Module where
  script := initial Module
  memory := ⟨.empty, (Pointers.empty.assign (.user 0) (some ())).1, []⟩

variable (runtime : Runtime Module Object F32 F64)

namespace Scene

/-! ### Publishing -/

/-- `has_same_exports` reads both descriptors. Without a module there is nothing to compare. -/
def compareExports (memory : Memory Module) : Memory Module :=
  match memory.pointers.held .module with
  | none => memory
  | some _ => (memory.through .module .entered).through .nextModule .entered

/-- `_update_exports`: every placeholder gets the properties and the defaults of the module. -/
def updateExports (placeholders : ℕ) (memory : Memory Module) : Memory Module :=
  match memory.pointers.held .module with
  | none => memory
  | some module => memory.notes (List.replicate (2 * placeholders) (.entered module))

/-- `publish_module`, with its parameter in the slot, of a script with a number of placeholders. -/
def publishModule (isEditorHint : Bool) (placeholders : ℕ) (scene : Scene Module) :
    Scene Module :=
  match scene.memory.pointers.held .nextModule with
  | none => scene
  | some next =>
    let script := scene.script.publishModule runtime isEditorHint (some next)
    let compared := compareExports scene.memory
    let shown := if scene.script.exportsChanged runtime next then placeholders else 0
    if !isEditorHint then ⟨script, updateExports shown (compared.move .module .nextModule)⟩
    else
      let published := updateExports shown
        ((compared.copy .pendingModule .nextModule).move .module .nextModule)
      ⟨script, if script.pendingRefresh then published else published.reset .pendingModule⟩

/-- A module that was not loaded before is published, as `complete_active` and `_reload` do. -/
def complete (isEditorHint : Bool) (placeholders : ℕ) (scene : Scene Module) (next : Module) :
    Scene Module :=
  if .loaded next ∈ scene.memory.log then scene
  else
    publishModule runtime isEditorHint placeholders
      ⟨scene.script, ((scene.memory.load next).notes [.touched]).move .nextModule .finished⟩

/-- `compile_path` asks only whether there is a module. -/
def compilePath (scene : Scene Module) (next : Module) : Scene Module :=
  if .loaded next ∈ scene.memory.log then scene
  else ⟨scene.script, (scene.memory.load next).reset .finished⟩

/-! ### Migration -/

/-- What `migrate_editor_instance` does in both modules to copy the properties from an index on. -/
def copyEvents (call : RefreshCall Module F32 F64) (data : InstanceData Module) (next : Module)
    (nextInstance : ZigInstance) : List (PropertyDescriptor F32 F64) → ℕ → List (Event Module)
  | [], _ => []
  | property :: properties, index =>
    .entered data.module :: .entered next ::
      match findProperty runtime.engine (runtime.descriptor next) property.name with
      | none => copyEvents call data next nextInstance properties (index + 1)
      | some nextIndex =>
        if (runtime.descriptor next).properties[nextIndex]?.map (·.type) = some property.type then
          .used data.module data.zigInstance ::
            match call.getProperty data.module data.zigInstance index with
            | none => []
            | some value =>
              .used next nextInstance ::
                if call.setProperty next nextInstance nextIndex value then
                  copyEvents call data next nextInstance properties (index + 1)
                else []
        else copyEvents call data next nextInstance properties (index + 1)

/-- `sync_retained_objects`: the objects are read, and some of them are put back. -/
def syncEvents (putBack : ℕ → Bool) (module : Module) (zigInstance : ZigInstance) :
    List (PropertyDescriptor F32 F64) → ℕ → List (Event Module)
  | [], _ => []
  | property :: properties, index =>
    .entered module ::
      if property.type = gzValueObject then
        .used module zigInstance ::
          if putBack index then
            .used module zigInstance ::
              syncEvents putBack module zigInstance properties (index + 1)
          else syncEvents putBack module zigInstance properties (index + 1)
      else syncEvents putBack module zigInstance properties (index + 1)

/-- The objects of an instance are read again. -/
def syncRetainedObjects (putBack : ℕ → Bool) (memory : Memory Module) (module : Module)
    (zigInstance : ZigInstance) : Memory Module :=
  memory.notes (syncEvents putBack module zigInstance (runtime.descriptor module).properties 0)

/-- `get_descriptor` of the module of an instance, and of the next one. -/
def enterDescriptors (memory : Memory Module) (address : InstanceId) : Memory Module :=
  (memory.through (.ofInstance address) .entered).through .pendingModule .entered

/-- The new instance takes the place of the old one, whose module stays until it is destroyed. -/
def replaceInstance (putBack : ℕ → Bool) (memory : Memory Module) (data : InstanceData Module)
    (next : Module) (nextInstance : ZigInstance) : Memory Module :=
  let pinned := memory.copy .previousModule (.ofInstance data.address)
  let replaced := pinned.copy (.ofInstance data.address) .pendingModule
  let synced := syncRetainedObjects runtime putBack replaced next nextInstance
  (synced.through .previousModule (.destroyed · data.zigInstance)).reset .previousModule

/-- `migrate_editor_instance`, with the next module in the slot of `pending_module`. -/
def migrateEditorInstance (call : RefreshCall Module F32 F64) (putBack : ℕ → Bool)
    (memory : Memory Module) (data : InstanceData Module) (next : Module) : Memory Module :=
  let entered := enterDescriptors memory data.address
  match call.createInstance next data.owner with
  | none => entered
  | some nextInstance =>
    let copied := entered.notes (.created next nextInstance ::
      copyEvents runtime call data next nextInstance (runtime.descriptor data.module).properties 0)
    match GzScript.migrateEditorInstance runtime call data next with
    | none => copied.notes [.destroyed next nextInstance]
    | some _ => replaceInstance runtime putBack copied data next nextInstance

/-- The loop of `_apply_pending_refresh` over the instances from `refresh_index` on. -/
def refreshLoop (call : RefreshCall Module F32 F64) (putBack : ℕ → Bool) (next : Module) :
    List InstanceId → ℕ → Scene Module → Scene Module
  | [], _, scene => scene
  | address :: rest, processed, scene =>
    let script := { scene.script with refreshIndex := scene.script.refreshIndex + 1 }
    match script.find address with
    | none => refreshLoop call putBack next rest processed ⟨script, scene.memory⟩
    | some data =>
      if data.module = next then refreshLoop call putBack next rest processed ⟨script, scene.memory⟩
      else
        let refreshed : Scene Module :=
          ⟨script.refreshInstance runtime call data next,
            migrateEditorInstance runtime call putBack scene.memory data next⟩
        if GzScript.minBatch ≤ processed + 1 ∧
            GzScript.timeBudgetUsec ≤ call.elapsed (processed + 1) then refreshed
        else refreshLoop call putBack next rest (processed + 1) refreshed

/-- `_apply_pending_refresh`. -/
def applyPendingRefresh (call : RefreshCall Module F32 F64) (putBack : ℕ → Bool)
    (scene : Scene Module) : Scene Module :=
  let script := scene.script.applyPendingRefresh runtime call
  let touched := scene.memory.notes [.touched]
  match scene.script.pendingRefresh, touched.pointers.held .pendingModule with
  | true, some next =>
    let refreshed := refreshLoop runtime call putBack next
      (scene.script.pendingRefreshInstances.drop scene.script.refreshIndex) 0
      ⟨{ scene.script with refreshCallScheduled := false }, touched⟩
    if refreshed.script.refreshIndex < refreshed.script.pendingRefreshInstances.length then
      ⟨script, refreshed.memory⟩
    else ⟨script, refreshed.memory.reset .pendingModule⟩
  | _, _ => ⟨script, touched⟩

/-! ### The script and its instances -/

/-- A `Ref` to the script goes. The last one takes the script with it, and `~GzScript` lets go of
the modules. -/
def unreference (scene : Scene Module) (holder : Holder) : Scene Module :=
  let dropped := scene.memory.refer holder none
  match (scene.memory.references.assign holder none).2 with
  | none => ⟨scene.script, dropped⟩
  | some _ =>
    ⟨{ scene.script with pendingRefresh := false, pendingModule := none, module := none },
      (dropped.reset .pendingModule).reset .module⟩

/-- The members of an `InstanceData` are destroyed from the last to the first. -/
def deleteInstance (scene : Scene Module) (address : InstanceId) : Scene Module :=
  unreference ⟨scene.script, scene.memory.reset (.ofInstance address)⟩ (.ofInstance address)

/-- A new `InstanceData` gets its `Ref` to the script and its module, whose descriptor is read. -/
def pinInstance (memory : Memory Module) (address : InstanceId) : Memory Module :=
  ((memory.refer (.ofInstance address) (some ())).copy (.ofInstance address) .module).through
    .module .entered

/-- `_instance_create`: the new `InstanceData` gets an address that is free, and is deleted again
when the module has made no instance. -/
def instanceCreate (putBack : ℕ → Bool) (scene : Scene Module) (owner : Option UInt64)
    (created : Option ZigInstance) (address : InstanceId) : Scene Module :=
  let touched := scene.memory.notes [.touched]
  match touched.pointers.held .module, owner with
  | some module, some _ =>
    if (scene.script.find address).isSome then scene
    else
      let pinned := pinInstance touched address
      match created with
      | none => deleteInstance ⟨scene.script, pinned⟩ address
      | some zigInstance =>
        ⟨scene.script.instanceCreate owner created address,
          syncRetainedObjects runtime putBack
            (pinned.through .module (.created · zigInstance)) module zigInstance⟩
  | _, _ => ⟨scene.script, touched⟩

/-- `instance_free`. -/
def instanceFree (scene : Scene Module) (address : InstanceId) : Scene Module :=
  match scene.script.find address with
  | none => scene
  | some data =>
    let destroyed := (scene.memory.notes [.touched]).through (.ofInstance address)
      (.destroyed · data.zigInstance)
    deleteInstance ⟨scene.script.instanceFree address, destroyed⟩ address

/-- How the engine uses an instance when it calls no function of it. -/
inductive Access
  /-- A list or a name is looked up in the descriptor. -/
  | describe
  /-- `instance_set` and `instance_get`, and whether their checks let them reach the instance. -/
  | property (reaches : Bool)

/-- The descriptor of an instance is read, and a function of its module is called with it. -/
def useInstance (memory : Memory Module) (data : InstanceData Module) : Memory Module :=
  (memory.through (.ofInstance data.address) .entered).through (.ofInstance data.address)
    (.used · data.zigInstance)

def access (scene : Scene Module) (address : InstanceId) (kind : Access) : Scene Module :=
  match scene.script.find address with
  | none => scene
  | some data =>
    let entered := scene.memory.through (.ofInstance address) .entered
    match kind with
    | .describe => ⟨scene.script, entered⟩
    | .property reaches =>
      ⟨scene.script, if reaches then useInstance scene.memory data else entered⟩

/-- `_has_method` and the other questions to a script, and a new placeholder: they read the
descriptor, if there is one. -/
def describe (scene : Scene Module) : Scene Module :=
  let touched := scene.memory.notes [.touched]
  match touched.pointers.held .module with
  | none => ⟨scene.script, touched⟩
  | some _ => ⟨scene.script, touched.through .module .entered⟩

end Scene

/-! ### Runs -/

inductive SceneOp (Module F32 F64 : Type)
  | complete (next : Module) (placeholders : ℕ)
  | compilePath (next : Module)
  | applyPendingRefresh (call : RefreshCall Module F32 F64) (putBack : ℕ → Bool)
  | instanceCreate (owner : Option UInt64) (created : Option ZigInstance) (address : InstanceId)
      (putBack : ℕ → Bool)
  | instanceFree (address : InstanceId)
  | access (address : InstanceId) (kind : Scene.Access)
  | describe
  /-- Someone takes a `Ref`, from another one. -/
  | reference (user : ℕ)
  | unreference (user : ℕ)
  /-- The hash set is iterated in another order. -/
  | rehash (order : List (InstanceData Module))

/-- There is a `Ref` to the script. -/
def Scene.referenced (scene : Scene Module) : Bool := scene.memory.references.useCount () ≠ 0

/-- One operation, which calls no function of an instance. A member of the script is called through
a `Ref`, and the engine drops the deferred call of an object that is gone. -/
def sceneStep (isEditorHint : Bool) (scene : Scene Module) : SceneOp Module F32 F64 → Scene Module
  | .complete next placeholders =>
    if scene.referenced then scene.complete runtime isEditorHint placeholders next else scene
  | .compilePath next => scene.compilePath next
  | .applyPendingRefresh call putBack =>
    if scene.referenced then scene.applyPendingRefresh runtime call putBack else scene
  | .instanceCreate owner created address putBack =>
    if scene.referenced then scene.instanceCreate runtime putBack owner created address else scene
  | .instanceFree address => scene.instanceFree address
  | .access address kind => scene.access address kind
  | .describe => if scene.referenced then scene.describe else scene
  | .reference user =>
    if scene.referenced then ⟨scene.script, scene.memory.refer (.user user) (some ())⟩ else scene
  | .unreference user => scene.unreference (.user user)
  | .rehash order =>
    if order.Perm scene.script.instances then
      { scene with script := { scene.script with instances := order } }
    else scene

/-! ### Functions of the instances -/

/-- A scene, and the instances in which a function runs, with the innermost call first. -/
structure Stage (Module : Type) where
  scene : Scene Module
  running : List (InstanceData Module)

namespace Stage

/-- `instance_call` or `instance_notification` has called a function of an instance. -/
def callBegins (stage : Stage Module) (address : InstanceId) : Stage Module :=
  match stage.scene.script.find address with
  | none => stage
  | some data =>
    ⟨⟨stage.scene.script, Scene.useInstance stage.scene.memory data⟩, data :: stage.running⟩

/-- The innermost function comes to its end, in the module in which it was called. Then
`sync_retained_objects` follows the pointer to the `InstanceData` that the call was given. -/
def callReturns (putBack : ℕ → Bool) (stage : Stage Module) : Stage Module :=
  match stage.running with
  | [] => stage
  | data :: running =>
    let returned := stage.scene.memory.notes [.used data.module data.zigInstance]
    match stage.scene.script.find data.address with
    | none => ⟨⟨stage.scene.script, returned.notes [.nullAccess]⟩, running⟩
    | some current =>
      let entered := returned.through (.ofInstance data.address) .entered
      ⟨⟨stage.scene.script, Scene.syncRetainedObjects runtime putBack entered current.module
        current.zigInstance⟩, running⟩

end Stage

inductive StageOp (Module F32 F64 : Type)
  | scene (op : SceneOp Module F32 F64)
  | callBegins (address : InstanceId)
  | callReturns (putBack : ℕ → Bool)

def stageStep (isEditorHint : Bool) (stage : Stage Module) : StageOp Module F32 F64 → Stage Module
  | .scene op => { stage with scene := sceneStep runtime isEditorHint stage.scene op }
  | .callBegins address => stage.callBegins address
  | .callReturns putBack => stage.callReturns runtime putBack

def initialStage (Module : Type) : Stage Module := ⟨initialScene Module, []⟩

/-- No instance is freed while a function runs in it, and the deferred call comes when none runs. -/
def Spares (stage : Stage Module) : StageOp Module F32 F64 → Prop
  | .scene (.instanceFree address) => address ∉ stage.running.map (·.address)
  | .scene (.applyPendingRefresh _ _) => stage.running = []
  | _ => True

end Gzscript.Script.ModuleOwners
