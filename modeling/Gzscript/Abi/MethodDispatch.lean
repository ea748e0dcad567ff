import Gzscript.Abi.InstanceProperties

/-!
# Calls of the engine into a script

The engine calls a method of an instance by name. `instanceCall` encodes the arguments, and the
adapter looks for a callback of that name, which runs the function that the script declares for it.
Before it calls, the engine may ask whether there is such a method and how many arguments it takes:
the answers come from the table that the adapter made of the declarations.

The table does not look at what is declared. `Called` says in terms of the table what becomes of a
call, `called_iff` that it is what becomes of it, and `offered_call` that a method of the table,
called with as many arguments of the right kind, runs its function exactly if the script declares a
function with one parameter more: for anything else the call is refused, although it was offered.
-/

set_option autoImplicit false
set_option relaxedAutoImplicit false

namespace Gzscript.Abi.MethodDispatch

open Library.Bytes Value ValueCodec FieldCodec Adapter AdapterLoad PropertyAccess
  InstanceProperties

variable {Object F32 F64 : Type} {script : Script F32 F64}

/-! ### What a script declares for its callbacks -/

structure CallbackMapping where
  godotName : ByteString
  zigName : ByteString
  argumentCount : UInt32
  deriving DecidableEq

/-- The table of callbacks, with the numbers of their arguments. -/
def callbackMappings : List CallbackMapping :=
  [⟨ascii "_ready", ascii "ready", 0⟩, ⟨ascii "_enter_tree", ascii "enterTree", 0⟩,
    ⟨ascii "_exit_tree", ascii "exitTree", 0⟩, ⟨ascii "_process", ascii "process", 1⟩,
    ⟨ascii "_physics_process", ascii "physicsProcess", 1⟩, ⟨ascii "_input", ascii "input", 1⟩,
    ⟨ascii "_unhandled_input", ascii "unhandledInput", 1⟩,
    ⟨ascii "_shortcut_input", ascii "shortcutInput", 1⟩,
    ⟨ascii "_unhandled_key_input", ascii "unhandledKeyInput", 1⟩,
    ⟨ascii "_gui_input", ascii "guiInput", 1⟩, ⟨ascii "_draw", ascii "draw", 0⟩]

/-- What a function of a script makes of the instance, and whether it returned an error. -/
structure Return (script : Script F32 F64) where
  after : Box script
  failed : Bool

/-- A declaration of a script. The first parameter of a function is the instance. -/
inductive Member (script : Script F32 F64)
  /-- A declaration that is no function. -/
  | value
  | nullary (run : Box script → Return script)
  | unary (type : FieldType F32 F64) (run : type.Carrier → Box script → Return script)
  /-- A function with no parameter at all, or with more than two. -/
  | function (parameters : ℕ) (hparameters : parameters ≠ 1 ∧ parameters ≠ 2)

/-- The number of parameters of a function. -/
def Member.parameters : Member script → Option ℕ
  | value => none
  | nullary _ => some 1
  | unary _ _ => some 2
  | function parameters _ => some parameters

/-- The callbacks that take a float. -/
def floatCallbacks : List ByteString := [ascii "process", ascii "physicsProcess"]

/-- The callbacks that take an object. -/
def objectCallbacks : List ByteString :=
  [ascii "input", ascii "unhandledInput", ascii "shortcutInput", ascii "unhandledKeyInput",
    ascii "guiInput"]

/-- What is wrong with the parameter of a callback. -/
def callbackError (name : ByteString) (type : FieldType F32 F64) : Option CompileError :=
  if floatCallbacks.any (· = name) then
    match type with
    | .float _ => none
    | _ => some (ascii "callback " ++ name ++ ascii " expects a float (f64 or f32) argument")
  else if objectCallbacks.any (· = name) then
    match type with
    | .object _ => none
    | _ => some (ascii "callback " ++ name ++ ascii " expects a Godot object argument")
  else none

/-- The declarations of a script that compiles. -/
structure Members (script : Script F32 F64) where
  member : ByteString → Option (Member script)
  declared : ∀ name, (member name).isSome = script.declares name
  compiles : ∀ name type run, member name = some (.unary type run) →
    callbackError name type = none

/-! ### The adapter -/

/-- `GzStatus`. -/
inductive GzStatus
  | ok | invalidArgument | methodNotFound | propertyNotFound | typeMismatch | outOfMemory
  | scriptError | abiMismatch
  deriving DecidableEq

/-- The status of a function that has returned. -/
def Return.status (result : Return script) : GzStatus :=
  if result.failed then .scriptError else .ok

/-- `invokeGeneric`. The types that a callback may take are never cast illegally, so a conversion
that fails is an error. -/
def invokeGeneric (member : Member script) (box : Box script)
    (arguments : List (GzValue F32 F64)) (argumentCount : UInt32) : GzStatus × Box script :=
  match member with
  | .value => (.methodNotFound, box)
  | .function _ _ => (.invalidArgument, box)
  | .nullary run =>
    if argumentCount = 0 then ((run box).status, (run box).after) else (.invalidArgument, box)
  | .unary type run =>
    if argumentCount = 1 then
      match arguments with
      | [] => (.invalidArgument, box)
      | argument :: _ =>
        match fromValue type argument with
        | none => (.typeMismatch, box)
        | some value => ((run value box).status, (run value box).after)
    else (.invalidArgument, box)

/-- `call`. The loop returns at the first callback with the name. -/
def call (members : Members script) (pointer : Option (Box script)) (name : ByteString)
    (arguments : List (GzValue F32 F64)) (argumentCount : UInt32) :
    GzStatus × Option (Box script) :=
  match pointer with
  | none => (.invalidArgument, none)
  | some box =>
    match callbackMappings.find? fun callback ↦ callback.godotName = name with
    | none => (.methodNotFound, some box)
    | some callback =>
      match members.member callback.zigName with
      | none => (.methodNotFound, some box)
      | some member =>
        if argumentCount = callback.argumentCount then
          let (status, after) := invokeGeneric member box arguments callback.argumentCount
          (status, some after)
        else (.methodNotFound, some box)

structure MethodDescriptor where
  name : ByteString
  argumentCount : UInt32

/-- `buildMethods` with the numbers of arguments. -/
def methodDescriptors (script : Script F32 F64) : List MethodDescriptor :=
  (callbackMappings.filter fun callback ↦ script.declares callback.zigName).map
    fun callback ↦ ⟨callback.godotName, callback.argumentCount⟩

/-! ### The instance -/

/-- `GDExtensionCallErrorType`, as far as an instance reports it. -/
inductive CallError
  | ok | invalidMethod | invalidArgument
  deriving DecidableEq

/-- The instance after a call, and what the engine is told. -/
structure CallResult (Object : Type) (script : Script F32 F64) where
  data : InstanceData Object script
  error : CallError
  /-- The index of an argument, where it is written. -/
  argument : Option ℕ
  /-- What is returned, where it is written. -/
  result : Option (Variant Object F32 F64)

variable (engine : Engine Object)

def instanceHasMethod (methods : List MethodDescriptor) (name : String) : Bool :=
  methods.any fun method ↦ engine.ofUtf8 method.name = name

def instanceGetMethodArgumentCount (methods : List MethodDescriptor) (name : String) :
    Option UInt32 :=
  (methods.find? fun method ↦ engine.ofUtf8 method.name = name).map MethodDescriptor.argumentCount

/-- The loop of `instance_call` over the arguments, from an index on: their values, or the index of
the first that has none. -/
def convertArguments (index : ℕ) :
    List (Variant Object F32 F64) → Except ℕ (List (GzValue F32 F64))
  | [] => .ok []
  | argument :: arguments =>
    let (value, valid) := fromVariant engine argument true
    if valid then
      match convertArguments (index + 1) arguments with
      | .error place => .error place
      | .ok values => .ok (value :: values)
    else .error index

/-- `instance_call`. What `sync_retained_objects` makes of the instance is `sync`. -/
def instanceCall (members : Members script)
    (sync : InstanceData Object script → InstanceData Object script)
    (data : InstanceData Object script) (method : String)
    (arguments : List (Variant Object F32 F64)) : CallResult Object script :=
  match convertArguments engine 0 arguments with
  | .error index => ⟨data, .invalidArgument, some index, none⟩
  | .ok values =>
    let (status, after) :=
      call members (some data.box) (engine.utf8 method) values (.ofNat arguments.length)
    let data := sync { data with box := after.getD data.box }
    match status with
    | .ok =>
      -- the adapter leaves the returned value as it was made, which is nil
      let (result, valid) := toVariant engine (.nil : GzValue F32 F64)
      ⟨data, if valid then .ok else .invalidArgument, none, some result⟩
    | .methodNotFound => ⟨data, .invalidMethod, none, none⟩
    | _ => ⟨data, .invalidArgument, none, none⟩

/-! ### The table of methods -/

/-- The names of the callbacks are decoded and encoded back. -/
def NamesKept : Prop :=
  ∀ callback ∈ callbackMappings, engine.utf8 (engine.ofUtf8 callback.godotName) = callback.godotName

/-- The callback that the engine finds under a name. -/
structure Offers (script : Script F32 F64) (name : String) (callback : CallbackMapping) : Prop where
  listed : callback ∈ callbackMappings
  named : engine.ofUtf8 callback.godotName = name
  declares : script.declares callback.zigName = true

variable {engine}

theorem callbacks_eq : callbacks =
    callbackMappings.map fun callback ↦ ⟨callback.godotName, callback.zigName⟩ := rfl

/-- The table in the descriptor has the names of this one. -/
theorem buildMethods_eq (script : Script F32 F64) : buildMethods script =
    (methodDescriptors script).map fun method ↦ .bytes method.name := by
  rw [buildMethods, callbacks_eq, methodDescriptors, List.filter_map, List.map_map, List.map_map]
  rfl

theorem nodup_godotNames : (callbackMappings.map CallbackMapping.godotName).Nodup := by decide

theorem find?_eq_some_iff {bytes : ByteString} {callback : CallbackMapping} :
    callbackMappings.find? (fun callback ↦ callback.godotName = bytes) = some callback ↔
      callback ∈ callbackMappings ∧ callback.godotName = bytes := by
  constructor
  · intro hfound
    exact ⟨List.mem_of_find?_eq_some hfound, by simpa using List.find?_some hfound⟩
  · rintro ⟨hlisted, rfl⟩
    cases hfound : callbackMappings.find? fun other ↦ other.godotName = callback.godotName with
    | none => exact absurd (List.find?_eq_none.mp hfound callback hlisted) (by simp)
    | some other =>
      have hname : other.godotName = callback.godotName := by simpa using List.find?_some hfound
      rw [List.inj_on_of_nodup_map nodup_godotNames (List.mem_of_find?_eq_some hfound) hlisted
        hname]

/-- The name is encoded as the callback's. -/
theorem Offers.utf8 {name : String} {callback : CallbackMapping} (hnames : NamesKept engine)
    (h : Offers engine script name callback) : engine.utf8 name = callback.godotName := by
  rw [← h.named, hnames callback h.listed]

theorem Offers.find (hnames : NamesKept engine) {name : String} {callback : CallbackMapping}
    (h : Offers engine script name callback) :
    callbackMappings.find? (fun callback ↦ callback.godotName = engine.utf8 name) =
      some callback :=
  find?_eq_some_iff.mpr ⟨h.listed, (h.utf8 hnames).symm⟩

theorem Offers.unique (hnames : NamesKept engine) {name : String}
    {callback other : CallbackMapping} (h : Offers engine script name callback)
    (hother : Offers engine script name other) : callback = other :=
  Option.some.inj ((h.find hnames).symm.trans (hother.find hnames))

theorem mem_methodDescriptors {method : MethodDescriptor} :
    method ∈ methodDescriptors script ↔ ∃ callback ∈ callbackMappings,
      script.declares callback.zigName = true ∧
        (⟨callback.godotName, callback.argumentCount⟩ : MethodDescriptor) = method := by
  simp only [methodDescriptors, List.mem_map, List.mem_filter, and_assoc]

theorem instanceHasMethod_iff {name : String} :
    instanceHasMethod engine (methodDescriptors script) name = true ↔
      ∃ callback, Offers engine script name callback := by
  rw [instanceHasMethod, List.any_eq_true]
  constructor
  · rintro ⟨method, hmethod, hname⟩
    obtain ⟨callback, hlisted, hdeclares, rfl⟩ := mem_methodDescriptors.mp hmethod
    exact ⟨callback, hlisted, of_decide_eq_true hname, hdeclares⟩
  · rintro ⟨callback, h⟩
    exact ⟨_, mem_methodDescriptors.mpr ⟨callback, h.listed, h.declares, rfl⟩,
      decide_eq_true h.named⟩

theorem instanceGetMethodArgumentCount_iff (hnames : NamesKept engine) {name : String}
    {count : UInt32} :
    instanceGetMethodArgumentCount engine (methodDescriptors script) name = some count ↔
      ∃ callback, Offers engine script name callback ∧ callback.argumentCount = count := by
  rw [instanceGetMethodArgumentCount, Option.map_eq_some_iff]
  constructor
  · rintro ⟨method, hfound, rfl⟩
    obtain ⟨callback, hlisted, hdeclares, rfl⟩ :=
      mem_methodDescriptors.mp (List.mem_of_find?_eq_some hfound)
    have hname : engine.ofUtf8 callback.godotName = name := by simpa using List.find?_some hfound
    exact ⟨callback, ⟨hlisted, hname, hdeclares⟩, rfl⟩
  · rintro ⟨callback, h, rfl⟩
    cases hfound : (methodDescriptors script).find? fun method ↦
        engine.ofUtf8 method.name = name with
    | none =>
      have hmethod := mem_methodDescriptors.mpr ⟨callback, h.listed, h.declares, rfl⟩
      exact absurd (List.find?_eq_none.mp hfound _ hmethod) (by simpa using h.named)
    | some method =>
      obtain ⟨other, hlisted, hdeclares, rfl⟩ :=
        mem_methodDescriptors.mp (List.mem_of_find?_eq_some hfound)
      have hname : engine.ofUtf8 other.godotName = name := by simpa using List.find?_some hfound
      obtain rfl := h.unique hnames ⟨hlisted, hname, hdeclares⟩
      exact ⟨_, rfl, rfl⟩

/-! ### The arguments -/

variable (engine)

/-- The script can take the argument. -/
def Encodes (argument : Variant Object F32 F64) : Prop :=
  (fromVariant engine argument true).2 = true

def encoded (argument : Variant Object F32 F64) : GzValue F32 F64 :=
  (fromVariant engine argument true).1

/-- The first argument that the script cannot take. -/
structure FirstUnsupported (arguments : List (Variant Object F32 F64)) (index : ℕ) : Prop where
  unsupported : ∃ argument, arguments[index]? = some argument ∧ ¬ Encodes engine argument
  first : ∀ earlier < index, ∀ argument, arguments[earlier]? = some argument →
    Encodes engine argument

variable {engine}

theorem convertArguments_cons (index : ℕ) (argument : Variant Object F32 F64)
    (arguments : List (Variant Object F32 F64)) :
    convertArguments engine index (argument :: arguments) =
      if (fromVariant engine argument true).2 = true then
        (convertArguments engine (index + 1) arguments).map (encoded engine argument :: ·)
      else .error index := by
  rw [convertArguments]
  dsimp only
  split
  · cases convertArguments engine (index + 1) arguments <;> rfl
  · rfl

theorem convertArguments_eq_ok {start : ℕ} {arguments : List (Variant Object F32 F64)}
    (hencodes : ∀ argument ∈ arguments, Encodes engine argument) :
    convertArguments engine start arguments = .ok (arguments.map (encoded engine)) := by
  induction arguments generalizing start with
  | nil => rfl
  | cons argument arguments ih =>
    have hhead : (fromVariant engine argument true).2 = true := hencodes argument (by simp)
    have htail : ∀ other ∈ arguments, Encodes engine other := fun other hother ↦
      hencodes other (List.mem_cons_of_mem _ hother)
    rw [convertArguments_cons, if_pos hhead, ih htail]
    rfl

theorem convertArguments_eq_error {start index : ℕ} {arguments : List (Variant Object F32 F64)}
    (h : FirstUnsupported engine arguments index) :
    convertArguments engine start arguments = .error (start + index) := by
  induction arguments generalizing start index with
  | nil =>
    obtain ⟨argument, hargument, -⟩ := h.unsupported
    cases hargument
  | cons first arguments ih =>
    rw [convertArguments_cons]
    cases index with
    | zero =>
      obtain ⟨argument, hargument, hunsupported⟩ := h.unsupported
      obtain rfl := Option.some.inj hargument
      exact if_neg hunsupported
    | succ index =>
      have hhead : (fromVariant engine first true).2 = true :=
        h.first 0 (Nat.succ_pos index) first rfl
      have htail : FirstUnsupported engine arguments index :=
        ⟨h.unsupported, fun earlier hearlier ↦ h.first (earlier + 1) (Nat.succ_lt_succ hearlier)⟩
      rw [if_pos hhead, ih htail, Nat.add_right_comm, Nat.add_assoc]
      rfl

/-- The arguments can all be taken, or there is a first one that cannot. -/
theorem encodes_or_firstUnsupported (engine : Engine Object)
    (arguments : List (Variant Object F32 F64)) :
    (∀ argument ∈ arguments, Encodes engine argument) ∨
      ∃ index, FirstUnsupported engine arguments index := by
  induction arguments with
  | nil => exact .inl nofun
  | cons first arguments ih =>
    by_cases hfirst : Encodes engine first
    · obtain hall | ⟨index, h⟩ := ih
      · exact .inl fun argument hargument ↦ by
          obtain rfl | hrest := List.mem_cons.mp hargument
          · exact hfirst
          · exact hall argument hrest
      · refine .inr ⟨index + 1, h.unsupported, fun earlier hearlier argument hargument ↦ ?_⟩
        cases earlier with
        | zero =>
          obtain rfl := Option.some.inj hargument
          exact hfirst
        | succ earlier => exact h.first earlier (Nat.lt_of_succ_lt_succ hearlier) argument hargument
    · exact .inr ⟨0, ⟨first, rfl, hfirst⟩, fun earlier hearlier ↦
        absurd hearlier (Nat.not_lt_zero earlier)⟩

/-! ### What becomes of a call -/

section Calls

variable {members : Members script} {sync : InstanceData Object script → InstanceData Object script}
  {data : InstanceData Object script} {name : String} {arguments : List (Variant Object F32 F64)}

/-- The function that a declaration is, for a number of arguments. -/
def Member.applied (member : Member script) (count : UInt32) (values : List (GzValue F32 F64)) :
    Option (Box script → Return script) :=
  match member, values with
  | .nullary run, _ => if count = 0 then some run else none
  | .unary type run, first :: _ => if count = 1 then (fromValue type first).map run else none
  | _, _ => none

variable (sync data) in
/-- A call that has run a function of the script. -/
def ran (result : Return script) : CallResult Object script where
  data := sync { data with box := result.after }
  error := if result.failed then .invalidArgument else .ok
  argument := none
  result := if result.failed then none else some .nil

variable (sync data) in
/-- A call that was refused by the adapter. -/
def refused (error : CallError) : CallResult Object script := ⟨sync data, error, none, none⟩

variable (engine members sync data name arguments) in
/-- What becomes of a call, by the table of methods and the declarations behind it. -/
inductive Called : CallResult Object script → Prop
  | unsupported (index : ℕ) (hfirst : FirstUnsupported engine arguments index) :
    Called ⟨data, .invalidArgument, some index, none⟩
  /-- No method with that number of arguments is in the table. -/
  | unknown (hencodes : ∀ argument ∈ arguments, Encodes engine argument)
    (hcount : instanceGetMethodArgumentCount engine (methodDescriptors script) name ≠
      some (.ofNat arguments.length)) : Called (refused sync data .invalidMethod)
  /-- The declaration is no function. -/
  | noFunction (hencodes : ∀ argument ∈ arguments, Encodes engine argument)
    (callback : CallbackMapping) (hoffers : Offers engine script name callback)
    (hcount : callback.argumentCount = .ofNat arguments.length)
    (hmember : members.member callback.zigName = some .value) :
    Called (refused sync data .invalidMethod)
  /-- The function does not take the arguments. -/
  | mismatched (hencodes : ∀ argument ∈ arguments, Encodes engine argument)
    (callback : CallbackMapping) (hoffers : Offers engine script name callback)
    (hcount : callback.argumentCount = .ofNat arguments.length) (member : Member script)
    (hmember : members.member callback.zigName = some member) (hfunction : member ≠ .value)
    (happlied : member.applied callback.argumentCount (arguments.map (encoded engine)) = none) :
    Called (refused sync data .invalidArgument)
  | runs (hencodes : ∀ argument ∈ arguments, Encodes engine argument)
    (callback : CallbackMapping) (hoffers : Offers engine script name callback)
    (hcount : callback.argumentCount = .ofNat arguments.length) (member : Member script)
    (hmember : members.member callback.zigName = some member)
    (run : Box script → Return script)
    (happlied : member.applied callback.argumentCount (arguments.map (encoded engine)) = some run) :
    Called (ran sync data (run data.box))

/-- What the adapter makes of a callback, by the function that it is. -/
theorem invokeGeneric_eq (member : Member script) (box : Box script)
    (values : List (GzValue F32 F64)) (count : UInt32) :
    (∃ run, member.applied count values = some run ∧
        invokeGeneric member box values count = ((run box).status, (run box).after)) ∨
      member.applied count values = none ∧
        ∃ status, invokeGeneric member box values count = (status, box) ∧
          status ≠ .ok ∧ (status = .methodNotFound ↔ member = .value) := by
  cases member with
  | value => exact .inr ⟨rfl, .methodNotFound, rfl, nofun, by simp⟩
  | function parameters hparameters => exact .inr ⟨rfl, .invalidArgument, rfl, nofun, by simp⟩
  | nullary run =>
    simp only [invokeGeneric, Member.applied]
    by_cases hcount : count = 0
    · exact .inl ⟨run, by rw [if_pos hcount], by rw [if_pos hcount]⟩
    · refine .inr ⟨by rw [if_neg hcount], .invalidArgument, by rw [if_neg hcount], nofun, by simp⟩
  | unary type run =>
    by_cases hcount : count = 1
    · cases values with
      | nil =>
        refine .inr ⟨rfl, .invalidArgument, ?_, nofun, by simp⟩
        simp only [invokeGeneric, if_pos hcount]
      | cons first rest =>
        simp only [invokeGeneric, Member.applied, if_pos hcount]
        cases hvalue : fromValue type first with
        | none => exact .inr ⟨rfl, .typeMismatch, rfl, nofun, by simp⟩
        | some argument => exact .inl ⟨run argument, rfl, rfl⟩
    · refine .inr ⟨?_, .invalidArgument, ?_, nofun, by simp⟩
      · cases values with
        | nil => rfl
        | cons first rest => simp only [Member.applied, if_neg hcount]
      · simp only [invokeGeneric, if_neg hcount]

/-- What the engine is told of a status. -/
def GzStatus.callError : GzStatus → CallError
  | ok => .ok
  | methodNotFound => .invalidMethod
  | _ => .invalidArgument

/-- A call whose arguments can all be taken. -/
theorem instanceCall_encodes (hencodes : ∀ argument ∈ arguments, Encodes engine argument)
    {status : GzStatus} {after : Box script}
    (hcall : call members (some data.box) (engine.utf8 name) (arguments.map (encoded engine))
      (.ofNat arguments.length) = (status, some after)) :
    instanceCall engine members sync data name arguments =
      ⟨sync { data with box := after }, status.callError, none,
        if status = .ok then some .nil else none⟩ := by
  rw [instanceCall, convertArguments_eq_ok hencodes]
  simp only [hcall, Option.getD_some]
  cases status <;> rfl

/-- The callback that is offered is called, if there is one for the number of arguments. -/
theorem call_of_offers (hnames : NamesKept engine) {callback : CallbackMapping}
    (hoffers : Offers engine script name callback) {member : Member script}
    (hmember : members.member callback.zigName = some member) (box : Box script)
    (values : List (GzValue F32 F64)) {count : UInt32} (hcount : callback.argumentCount = count) :
    call members (some box) (engine.utf8 name) values count =
      ((invokeGeneric member box values count).1,
        some (invokeGeneric member box values count).2) := by
  subst hcount
  simp only [call, hoffers.find hnames, hmember, if_true]

/-- Nothing is called if no method with the number of arguments is in the table. -/
theorem call_unknown (hnames : NamesKept engine) (box : Box script)
    (values : List (GzValue F32 F64)) {count : UInt32}
    (hcount : instanceGetMethodArgumentCount engine (methodDescriptors script) name ≠ some count) :
    call members (some box) (engine.utf8 name) values count = (.methodNotFound, some box) := by
  rw [call]
  cases hfound : callbackMappings.find? fun callback ↦ callback.godotName = engine.utf8 name with
  | none => rfl
  | some callback =>
    obtain ⟨hlisted, hname⟩ := find?_eq_some_iff.mp hfound
    cases hmember : members.member callback.zigName with
    | none => simp only [hmember]
    | some member =>
      have hdeclares : script.declares callback.zigName = true := by
        rw [← members.declared, hmember]
        rfl
      have hoffers : Offers engine script name callback :=
        ⟨hlisted, by rw [hname, engine.ofUtf8_utf8], hdeclares⟩
      have hne : count ≠ callback.argumentCount := fun heq ↦
        hcount ((instanceGetMethodArgumentCount_iff hnames).mpr ⟨callback, hoffers, heq.symm⟩)
      simp only [hmember, if_neg hne]

theorem instanceCall_ran (hencodes : ∀ argument ∈ arguments, Encodes engine argument)
    {result : Return script}
    (hcall : call members (some data.box) (engine.utf8 name) (arguments.map (encoded engine))
      (.ofNat arguments.length) = (result.status, some result.after)) :
    instanceCall engine members sync data name arguments = ran sync data result := by
  rw [instanceCall_encodes hencodes hcall, ran, Return.status]
  cases result.failed <;> rfl

theorem instanceCall_refused (hencodes : ∀ argument ∈ arguments, Encodes engine argument)
    {status : GzStatus}
    (hcall : call members (some data.box) (engine.utf8 name) (arguments.map (encoded engine))
      (.ofNat arguments.length) = (status, some data.box)) (hstatus : status ≠ .ok) :
    instanceCall engine members sync data name arguments =
      refused sync data status.callError := by
  rw [instanceCall_encodes hencodes hcall, if_neg hstatus, refused]

/-- `instance_call` makes of a call what becomes of it. -/
theorem called_instanceCall (hnames : NamesKept engine) :
    Called engine members sync data name arguments
      (instanceCall engine members sync data name arguments) := by
  obtain hencodes | ⟨index, hfirst⟩ := encodes_or_firstUnsupported engine arguments
  · by_cases hcount : instanceGetMethodArgumentCount engine (methodDescriptors script) name =
        some (.ofNat arguments.length)
    · obtain ⟨callback, hoffers, hcount⟩ := (instanceGetMethodArgumentCount_iff hnames).mp hcount
      have hsome : (members.member callback.zigName).isSome = true := by
        rw [members.declared, hoffers.declares]
      obtain ⟨member, hmember⟩ := Option.isSome_iff_exists.mp hsome
      have hcall := call_of_offers hnames hoffers hmember data.box
        (arguments.map (encoded engine)) hcount
      obtain ⟨run, happlied, hinvoke⟩ | ⟨happlied, status, hinvoke, hstatus, hvalue⟩ :=
        invokeGeneric_eq member data.box (arguments.map (encoded engine))
          (.ofNat arguments.length)
      · rw [hinvoke] at hcall
        rw [instanceCall_ran hencodes hcall]
        exact .runs hencodes callback hoffers hcount member hmember run (hcount ▸ happlied)
      · rw [hinvoke] at hcall
        rw [instanceCall_refused hencodes hcall hstatus]
        by_cases hmissing : member = .value
        · subst hmissing
          rw [hvalue.mpr rfl]
          exact .noFunction hencodes callback hoffers hcount hmember
        · have herror : status.callError = .invalidArgument := by
            cases status with
            | ok => exact absurd rfl hstatus
            | methodNotFound => exact absurd (hvalue.mp rfl) hmissing
            | _ => rfl
          rw [herror]
          exact .mismatched hencodes callback hoffers hcount member hmember hmissing
            (hcount ▸ happlied)
    · have hcall : call members (some data.box) (engine.utf8 name)
          (arguments.map (encoded engine)) (.ofNat arguments.length) =
            (.methodNotFound, some data.box) := call_unknown hnames data.box _ hcount
      rw [instanceCall_refused hencodes hcall nofun]
      exact .unknown hencodes hcount
  · rw [instanceCall, convertArguments_eq_error hfirst, Nat.zero_add]
    exact .unsupported index hfirst

/-- Only one thing becomes of a call. -/
theorem Called.unique (hnames : NamesKept engine) {result : CallResult Object script}
    (h : Called engine members sync data name arguments result) :
    instanceCall engine members sync data name arguments = result := by
  cases h with
  | unsupported index hfirst =>
    rw [instanceCall, convertArguments_eq_error hfirst, Nat.zero_add]
  | unknown hencodes hcount =>
    have hcall : call members (some data.box) (engine.utf8 name)
        (arguments.map (encoded engine)) (.ofNat arguments.length) =
          (.methodNotFound, some data.box) := call_unknown hnames data.box _ hcount
    exact instanceCall_refused hencodes hcall nofun
  | noFunction hencodes callback hoffers hcount hmember =>
    have hcall : call members (some data.box) (engine.utf8 name)
        (arguments.map (encoded engine)) (.ofNat arguments.length) =
          (.methodNotFound, some data.box) :=
      call_of_offers hnames hoffers hmember data.box (arguments.map (encoded engine)) hcount
    exact instanceCall_refused hencodes hcall nofun
  | mismatched hencodes callback hoffers hcount member hmember hfunction happlied =>
    have hcall := call_of_offers hnames hoffers hmember data.box
      (arguments.map (encoded engine)) hcount
    obtain ⟨run, hrun, -⟩ | ⟨-, status, hinvoke, hstatus, hvalue⟩ :=
      invokeGeneric_eq member data.box (arguments.map (encoded engine)) (.ofNat arguments.length)
    · rw [hcount, hrun] at happlied
      cases happlied
    · rw [hinvoke] at hcall
      rw [instanceCall_refused hencodes hcall hstatus]
      have herror : status.callError = .invalidArgument := by
        cases status with
        | ok => exact absurd rfl hstatus
        | methodNotFound => exact absurd (hvalue.mp rfl) hfunction
        | _ => rfl
      rw [herror]
  | runs hencodes callback hoffers hcount member hmember run happlied =>
    have hcall := call_of_offers hnames hoffers hmember data.box
      (arguments.map (encoded engine)) hcount
    obtain ⟨other, hother, hinvoke⟩ | ⟨hnone, -⟩ :=
      invokeGeneric_eq member data.box (arguments.map (encoded engine)) (.ofNat arguments.length)
    · rw [hcount, hother] at happlied
      obtain rfl := Option.some.inj happlied
      rw [hinvoke] at hcall
      exact instanceCall_ran hencodes hcall
    · rw [hcount, hnone] at happlied
      cases happlied

/-- `instance_call` makes of a call exactly what becomes of it. -/
theorem called_iff (hnames : NamesKept engine) {result : CallResult Object script} :
    Called engine members sync data name arguments result ↔
      instanceCall engine members sync data name arguments = result :=
  ⟨Called.unique hnames, fun hresult ↦ hresult ▸ called_instanceCall hnames⟩

/-! ### The methods of the table -/

variable (engine) in
/-- The arguments that the engine has for a callback: a number if it is called with the time, and a
live object if it is called with an event. -/
structure Suits (callback : CallbackMapping) (arguments : List (Variant Object F32 F64)) :
    Prop where
  count : callback.argumentCount.toNat = arguments.length
  float : floatCallbacks.any (· = callback.zigName) = true →
    ∀ argument ∈ arguments, ∃ value, argument = .float value
  object : objectCallbacks.any (· = callback.zigName) = true →
    ∀ argument ∈ arguments, ∃ object, argument = .object (some object) ∧ engine.Live object

/-- A callback takes nothing, a float or an object. -/
theorem kind_of_listed : ∀ callback ∈ callbackMappings,
    callback.argumentCount = 0 ∨ callback.argumentCount = 1 ∧
      (floatCallbacks.any (· = callback.zigName) = true ∨
        floatCallbacks.any (· = callback.zigName) = false ∧
          objectCallbacks.any (· = callback.zigName) = true) := by decide

theorem Suits.encodes {callback : CallbackMapping} (hlisted : callback ∈ callbackMappings)
    (h : Suits engine callback arguments) : ∀ argument ∈ arguments, Encodes engine argument := by
  intro argument hargument
  obtain hnone | ⟨-, hfloat | ⟨-, hobject⟩⟩ := kind_of_listed callback hlisted
  · have hempty : arguments.length = 0 := by rw [← h.count, hnone]; rfl
    rw [List.eq_nil_of_length_eq_zero hempty] at hargument
    cases hargument
  · obtain ⟨value, rfl⟩ := h.float hfloat argument hargument
    rfl
  · obtain ⟨object, rfl, -⟩ := h.object hobject argument hargument
    rfl

theorem Suits.ofNat_length {callback : CallbackMapping} (h : Suits engine callback arguments) :
    callback.argumentCount = .ofNat arguments.length := by
  rw [← h.count, UInt32.ofNat_toNat]

/-- The one argument of a callback has the kind that a compiled script takes. -/
theorem Suits.fromValue_ne_none {callback : CallbackMapping} (h : Suits engine callback arguments)
    (hlisted : callback ∈ callbackMappings) (hcount : callback.argumentCount = 1)
    {argument : Variant Object F32 F64} (hargument : argument ∈ arguments)
    {type : FieldType F32 F64} (hcompiles : callbackError callback.zigName type = none) :
    ∃ value, fromValue type (encoded engine argument) = some value := by
  obtain hnone | ⟨-, hfloat | ⟨hfloat, hobject⟩⟩ := kind_of_listed callback hlisted
  · rw [hnone] at hcount
    cases hcount
  · obtain ⟨value, rfl⟩ := h.float hfloat argument hargument
    unfold callbackError at hcompiles
    rw [if_pos hfloat] at hcompiles
    cases type with
    | float format => exact ⟨format.write value, rfl⟩
    | _ => cases hcompiles
  · obtain ⟨object, rfl, hlive⟩ := h.object hobject argument hargument
    unfold callbackError at hcompiles
    rw [if_neg (by simp [hfloat]), if_pos hobject] at hcompiles
    cases type with
    | object godotClass =>
      have hid : engine.getInstanceId object ≠ 0 := by
        intro hzero
        rw [Engine.Live, hzero, engine.getInstance_zero] at hlive
        cases hlive
      exact ⟨engine.getInstanceId object, if_neg hid⟩
    | _ => cases hcompiles

/-- A function with one parameter more than there are arguments is applied to them. -/
theorem Suits.applied_iff {callback : CallbackMapping} (h : Suits engine callback arguments)
    (hlisted : callback ∈ callbackMappings) {member : Member script}
    (hmember : members.member callback.zigName = some member) :
    (∃ run, member.applied callback.argumentCount (arguments.map (encoded engine)) = some run) ↔
      member.parameters = some (callback.argumentCount.toNat + 1) := by
  obtain hcount | ⟨hcount, -⟩ := kind_of_listed callback hlisted
  · cases member with
    | nullary run => simp [Member.applied, Member.parameters, hcount]
    | unary type run =>
      cases arguments with
      | nil => simp [Member.applied, Member.parameters, hcount]
      | cons first rest => simp [Member.applied, Member.parameters, hcount]
    | value => simp [Member.applied, Member.parameters]
    | function parameters hparameters =>
      simp [Member.applied, Member.parameters, hcount, hparameters.1]
  · have hlength : arguments.length = 1 := by rw [← h.count, hcount]; rfl
    obtain ⟨argument, rfl⟩ := List.length_eq_one_iff.mp hlength
    cases member with
    | nullary run => simp [Member.applied, Member.parameters, hcount]
    | unary type run =>
      obtain ⟨value, hvalue⟩ := h.fromValue_ne_none hlisted hcount
        (List.mem_singleton_self argument) (members.compiles _ type run hmember)
      simp [Member.applied, Member.parameters, hcount, hvalue]
    | value => simp [Member.applied, Member.parameters]
    | function parameters hparameters =>
      simp [Member.applied, Member.parameters, hcount, hparameters.2]

/-- A method that the table has, called with what the engine has for it, runs its function if the
script declares a function with one parameter more. Otherwise it is refused, and nothing runs. -/
theorem offered_call (hnames : NamesKept engine) (members : Members script)
    (sync : InstanceData Object script → InstanceData Object script)
    (data : InstanceData Object script) {name : String} {callback : CallbackMapping}
    (hoffers : Offers engine script name callback)
    {arguments : List (Variant Object F32 F64)} (hsuits : Suits engine callback arguments)
    {member : Member script} (hmember : members.member callback.zigName = some member) :
    instanceHasMethod engine (methodDescriptors script) name = true ∧
      instanceGetMethodArgumentCount engine (methodDescriptors script) name =
        some callback.argumentCount ∧
      (member.parameters = some (callback.argumentCount.toNat + 1) →
        ∃ run, member.applied callback.argumentCount (arguments.map (encoded engine)) = some run ∧
          instanceCall engine members sync data name arguments = ran sync data (run data.box)) ∧
      (member.parameters ≠ some (callback.argumentCount.toNat + 1) →
        instanceCall engine members sync data name arguments =
          refused sync data
            (if member.parameters = none then .invalidMethod else .invalidArgument)) := by
  have hencodes := hsuits.encodes hoffers.listed
  have hcount := hsuits.ofNat_length
  have happlies := hsuits.applied_iff hoffers.listed hmember
  refine ⟨instanceHasMethod_iff.mpr ⟨callback, hoffers⟩,
    (instanceGetMethodArgumentCount_iff hnames).mpr ⟨callback, hoffers, rfl⟩, ?_, ?_⟩
  · intro hparameters
    obtain ⟨run, happlied⟩ := happlies.mpr hparameters
    exact ⟨run, happlied,
      (Called.runs hencodes callback hoffers hcount member hmember run happlied).unique hnames⟩
  · intro hparameters
    by_cases hvalue : member = .value
    · subst hvalue
      have hnone : (Member.value : Member script).parameters = none := rfl
      rw [if_pos hnone]
      exact (Called.noFunction hencodes callback hoffers hcount hmember).unique hnames
    · have hfunction : member.parameters ≠ none := by
        cases member with
        | value => exact absurd rfl hvalue
        | _ => exact Option.some_ne_none _
      rw [if_neg hfunction]
      refine (Called.mismatched hencodes callback hoffers hcount member hmember hvalue ?_).unique
        hnames
      exact Option.eq_none_iff_forall_ne_some.mpr fun run happlied ↦
        hparameters (happlies.mp ⟨run, happlied⟩)

end Calls

/-! ### A script that is called with the time -/

theorem float_eq {type : FieldType Empty ℕ} (htype : type ∈ some (FieldType.float (.same ℕ))) :
    FieldType.float (.same ℕ) = type :=
  Option.some.inj htype

/-- A number that is zero by default. -/
def timeField : ScriptField Empty ℕ where
  name := ascii "time"
  type := some (.float (.same ℕ))
  default := fun _ htype ↦ some (float_eq htype ▸ (0 : ℕ))

theorem timeNames : FieldNames ([timeField].map ScriptField.name) := ⟨by decide, by decide⟩

/-- A script that exports a number and declares `process`. -/
def tickScript : Script Empty ℕ where
  godotClass := [78]
  declares := fun name ↦ name = ascii "process"
  fields := [timeField]
  fieldNames := timeNames
  exports := .ordered [.field (ascii "time") {}]
  signals := []
  signalNames := OwnedStrings.noNames

theorem type_tickScript {name : ByteString} {type : FieldType Empty ℕ}
    (htype : fieldType tickScript name = some type) : FieldType.float (.same ℕ) = type := by
  obtain ⟨field, hfield, hfieldType⟩ := Option.bind_eq_some_iff.mp htype
  obtain rfl : field = timeField := List.mem_singleton.mp (List.mem_of_find?_eq_some hfield)
  exact Option.some.inj hfieldType

theorem type_time : fieldType tickScript (ascii "time") = some (.float (.same ℕ)) := rfl

/-- The function keeps the number that it is called with. -/
def tick (time : ℕ) (box : Box tickScript) : Return tickScript :=
  ⟨box.assign (ascii "time") (.float (.same ℕ)) type_time time, false⟩

def tickMembers : Members tickScript where
  member name :=
    if name = ascii "process" then some (.unary (.float (.same ℕ)) tick) else none
  declared name := by
    show _ = decide (name = ascii "process")
    split <;> simp_all
  compiles name type run hmember := by
    split at hmember
    next hname =>
      cases hmember
      rw [hname]
      rfl
    next => cases hmember

def tickData : InstanceData Empty tickScript where
  box := .create (fun _ ↦ none) fun _ _ htype ↦ type_tickScript htype ▸ (0 : ℕ)
  retainedObjects _ := .nil

theorem namesKept_sampleEngine : NamesKept sampleEngine := by
  unfold NamesKept
  decide +kernel

/-- The engine calls it with a number, and the field has this number then. -/
theorem tick_runs :
    tickData.box.value (ascii "time") = some (.float 0) ∧
      instanceHasMethod sampleEngine (methodDescriptors tickScript) "_process" = true ∧
      instanceCall sampleEngine tickMembers id tickData "_process" [.float 16] =
        ran id tickData (tick 16 tickData.box) ∧
      (instanceCall sampleEngine tickMembers id tickData "_process" [.float 16]).data.box.value
        (ascii "time") = some (.float 16) := by
  have hoffers : Offers sampleEngine tickScript "_process"
      ⟨ascii "_process", ascii "process", 1⟩ :=
    ⟨by decide, by decide +kernel, rfl⟩
  have hsuits : Suits sampleEngine ⟨ascii "_process", ascii "process", 1⟩
      [(.float 16 : Variant Empty Empty ℕ)] := by
    refine ⟨rfl, fun _ argument hargument ↦ ⟨16, List.mem_singleton.mp hargument⟩, ?_⟩
    intro hobject
    exact absurd hobject (by decide)
  have hmember : tickMembers.member (ascii "process") =
      some (.unary (.float (.same ℕ)) tick) := rfl
  obtain ⟨hmethod, -, hruns, -⟩ :=
    offered_call namesKept_sampleEngine tickMembers id tickData hoffers hsuits hmember
  obtain ⟨run, happlied, hcall⟩ := hruns rfl
  obtain rfl := Option.some.inj happlied
  refine ⟨rfl, hmethod, hcall, ?_⟩
  rw [hcall]
  rfl

end Gzscript.Abi.MethodDispatch
