import Gzscript.Library.ReferenceCounts
import Gzscript.Library.Transition
import Mathlib.Data.Finset.Image
import Mathlib.Logic.Function.Basic

/-!
# The object fields of an instance

An exported field of an object type holds the identifier of an object, which keeps nothing alive.
The instance therefore retains the object of each such field in a slot of its own. The engine sets a
field through `instanceSet`, which checks the class; the script assigns what it likes, and
`syncRetainedObjects` then repairs a field whose object is of another class, by writing the retained
object back, and brings the slots up to date.

An object that is reference counted is freed when a slot that referred to it is overwritten and
nothing else refers to it. It gives up what it referred to itself, and the objects of which nothing
but it kept hold are freed in turn. A null optional and an owner of zero are the identifier zero.
Only the fields of object types are recorded.
-/

set_option autoImplicit false
set_option relaxedAutoImplicit false

namespace Gzscript.Script.ObjectFields

open Library.ReferenceCounts Library.Transition

/-- The identifier of an object. No object has the identifier zero. -/
abbrev ObjectId : Type := UInt64

inductive PropertyType
  /-- A wrapper of a class, or an optional one. -/
  | object (className : String) (isOptional : Bool)
  /-- Another type of the ABI. -/
  | value (type : ℕ)
  deriving DecidableEq

structure Property where
  name : String
  type : PropertyType
  deriving DecidableEq

/-- What the engine knows of an object. -/
structure Classes where
  isClass : ObjectId → String → Bool
  isRefCounted : ObjectId → Bool
  null_not_counted : isRefCounted 0 = false

/-- What refers to objects besides the slots of the instance. -/
structure References where
  /-- Something refers to the object that no release takes away: code, the scene, the engine. -/
  held : ObjectId → Bool
  /-- The first object refers to the second, until it is freed. -/
  owns : ObjectId → ObjectId → Bool

structure InstanceData where
  /-- The properties of the instance's module. -/
  properties : List Property
  fields : ℕ → ObjectId
  retained : ℕ → ObjectId

/-- The objects that are live, and the instance once it is created. -/
structure World where
  live : Finset ObjectId
  data : Option InstanceData

/-- The type of the property at an index. -/
def typeAt (properties : List Property) (index : ℕ) : Option PropertyType :=
  properties[index]?.map Property.type

variable (classes : Classes)

/-- An object of the declared class; the check is left out when no class is declared. -/
def accepts (className : String) (object : ObjectId) : Bool :=
  className.isEmpty || classes.isClass object className

/-- `ObjectDB::get_instance`: a live object, or null. -/
def getInstance (live : Finset ObjectId) (object : ObjectId) : ObjectId :=
  if object ∈ live then object else 0

/-- `fromValue` of an object's identifier, for a wrapper or an optional one: what the field is set
to, unless the value is refused. -/
def fromValue (isOptional : Bool) (object : ObjectId) : Option ObjectId :=
  if object = 0 ∧ isOptional = false then none else some object

/-- Whether one of the slots refers to an object. -/
def isRetained (retained : ℕ → ObjectId) (count : ℕ) (object : ObjectId) : Bool :=
  (List.range count).any fun index ↦ retained index = object

/-- Whether an object stays live whatever becomes of the objects that refer to it. -/
def isKept (held : ObjectId → Bool) (count : ℕ) (retained : ℕ → ObjectId) (object : ObjectId) :
    Bool :=
  !classes.isRefCounted object || held object || isRetained retained count object

/-- The live objects after slots that referred to some are overwritten or destroyed. -/
def releaseSlots (references : References) (count : ℕ) (retained : ℕ → ObjectId)
    (lost live : Finset ObjectId) : Finset ObjectId :=
  release (isKept classes references.held count retained) references.owns lost live

/-! ### Synchronising the slots -/

/-- The loop of `sync_retained_objects` for one property. -/
def syncProperty (references : References) (scene : Finset ObjectId × InstanceData)
    (index : ℕ) (property : Property) : Finset ObjectId × InstanceData :=
  let (live, data) := scene
  match property.type with
  | .value _ => (live, data)
  | .object className isOptional =>
    let object := getInstance live (data.fields index)
    if object ≠ 0 ∧ accepts classes className object = false then
      -- The script assigned an incompatible object.
      match fromValue isOptional (data.retained index) with
      | some previous => (live, { data with fields := Function.update data.fields index previous })
      | none => (live, data)
    else
      let retained := Function.update data.retained index object
      (releaseSlots classes references data.properties.length retained {data.retained index} live,
        { data with retained := retained })

/-- The loop of `sync_retained_objects` from a property on. -/
def syncFrom (references : References) :
    List Property → ℕ → Finset ObjectId × InstanceData → Finset ObjectId × InstanceData
  | [], _, scene => scene
  | property :: properties, index, scene =>
    syncFrom references properties (index + 1)
      (syncProperty classes references scene index property)

/-- `sync_retained_objects`. -/
def syncRetainedObjects (references : References) (live : Finset ObjectId) (data : InstanceData) :
    Finset ObjectId × InstanceData :=
  syncFrom classes references data.properties 0 (live, data)

/-! ### The script's code -/

/-- What a function of the script does: it makes objects, and assigns to fields. -/
structure ScriptCode where
  born : Finset ObjectId
  assigned : ℕ → Option ObjectId

/-- The fields after the script's assignments, each of null or of a live object. -/
def assign (live : Finset ObjectId) (assigned : ℕ → Option ObjectId) (fields : ℕ → ObjectId)
    (index : ℕ) : ObjectId :=
  match assigned index with
  | none => fields index
  | some object => if object = 0 ∨ object ∈ live then object else fields index

/-- A function of the script, and then `sync_retained_objects`. -/
def runAndSync (references : References) (code : ScriptCode) (live : Finset ObjectId)
    (data : InstanceData) : World :=
  let live := live ∪ code.born
  let (live, data) := syncRetainedObjects classes references live
    { data with fields := assign live code.assigned data.fields }
  ⟨live, some data⟩

/-! ### Operations -/

/-- The value that the engine sets a property to. -/
inductive Incoming
  | nil
  | object (object : ObjectId)
  | other

/-- An object field and its slot set to an object that was accepted. -/
def setField (references : References) (live : Finset ObjectId) (data : InstanceData) (index : ℕ)
    (object : ObjectId) : World :=
  let retained := Function.update data.retained index object
  { live :=
      releaseSlots classes references data.properties.length retained {data.retained index} live
    data := some { data with
      fields := Function.update data.fields index object
      retained := retained } }

/-- `instance_set`, for the property found under the name. -/
def instanceSet (references : References) (name : String) (incoming : Incoming)
    (live : Finset ObjectId) (data : InstanceData) : World :=
  match data.properties.findIdx? fun property ↦ property.name = name with
  | none => ⟨live, some data⟩
  | some index =>
    match typeAt data.properties index, incoming with
    | some (.object _ isOptional), .nil =>
      match fromValue isOptional 0 with
      | some object => setField classes references live data index object
      | none => ⟨live, some data⟩
    | some (.object className isOptional), .object object =>
      let object := getInstance live object
      if object = 0 ∨ accepts classes className object = false then ⟨live, some data⟩
      else
        match fromValue isOptional object with
        | some object => setField classes references live data index object
        | none => ⟨live, some data⟩
    | _, _ => ⟨live, some data⟩

/-- The types of two properties as the descriptors record them. -/
def sameType : PropertyType → PropertyType → Bool
  | .object _ _, .object _ _ => true
  | .value first, .value second => first = second
  | _, _ => false

/-- The loop of `migrate_editor_instance` from a property on: the fields of the next instance,
unless one of its functions fails. `copies` says which values of other types are copied. -/
def copyFields (copies : ℕ → Bool) (fields : ℕ → ObjectId) (next : List Property) :
    List Property → ℕ → (ℕ → ObjectId) → Option (ℕ → ObjectId)
  | [], _, nextFields => some nextFields
  | property :: properties, index, nextFields =>
    match next.findIdx? fun other ↦ other.name = property.name with
    | none => copyFields copies fields next properties (index + 1) nextFields
    | some nextIndex =>
      match typeAt next nextIndex with
      | none => copyFields copies fields next properties (index + 1) nextFields
      | some nextType =>
        if sameType property.type nextType then
          match nextType with
          | .value _ =>
            if copies index then copyFields copies fields next properties (index + 1) nextFields
            else none
          | .object _ isOptional =>
            match fromValue isOptional (fields index) with
            | none => none
            | some object =>
              copyFields copies fields next properties (index + 1)
                (Function.update nextFields nextIndex object)
        else copyFields copies fields next properties (index + 1) nextFields

/-- `migrate_editor_instance`, to a module with the properties `next`. The fields of the new
instance are what its `init` makes them, and then the previous instance's; the slots of that one are
given up at the end. -/
def migrateEditorInstance (references : References) (next : List Property) (init : ScriptCode)
    (copies : ℕ → Bool) (live : Finset ObjectId) (data : InstanceData) : World :=
  let live := live ∪ init.born
  match copyFields copies data.fields next data.properties 0
      (assign live init.assigned fun _ ↦ 0) with
  | none => ⟨live, some data⟩
  | some fields =>
    let previous := isRetained data.retained data.properties.length
    let (live, migrated) :=
      syncRetainedObjects classes
        { references with held := fun object ↦ references.held object || previous object }
        live { properties := next, fields := fields, retained := fun _ ↦ 0 }
    { live := releaseSlots classes references next.length migrated.retained
        ((Finset.range data.properties.length).image data.retained) live
      data := some migrated }

/-- What may happen to the instance. Every operation comes with the references there are when it
overwrites slots. -/
inductive Op
  /-- `_instance_create`, of a module with some properties, whose `init` assigns the fields. -/
  | create (references : References) (properties : List Property) (init : ScriptCode)
  | set (references : References) (name : String) (incoming : Incoming)
  /-- `instance_call`, which returns at once if an argument is not supported. -/
  | call (references : References) (argumentsValid : Bool) (code : ScriptCode)
  | notification (references : References) (code : ScriptCode)
  | migrate (references : References) (next : List Property) (init : ScriptCode)
      (copies : ℕ → Bool)

/-- One operation. The instance is created once, and nothing happens to it before. -/
def step (world : World) (op : Op) : World :=
  match op, world.data with
  | .create references properties init, none =>
    runAndSync classes references init world.live
      { properties := properties, fields := fun _ ↦ 0, retained := fun _ ↦ 0 }
  | .set references name incoming, some data =>
    instanceSet classes references name incoming world.live data
  | .call references argumentsValid code, some data =>
    if argumentsValid then runAndSync classes references code world.live data else world
  | .notification references code, some data => runAndSync classes references code world.live data
  | .migrate references next init copies, some data =>
    migrateEditorInstance classes references next init copies world.live data
  | _, _ => world

/-- The world before the instance is created, with some objects live. -/
def initial (live : Finset ObjectId) : World := ⟨live, none⟩

end Gzscript.Script.ObjectFields
