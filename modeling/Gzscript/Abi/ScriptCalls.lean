import Gzscript.Abi.DynamicCalls

/-!
# Calls from script to script

A script calls a method of an object that another script is attached to. The call leaves the first
script through `objectCall`, the engine routes it to the instance of the second, and there it is
`instanceCall` that runs a function. Arguments are encoded, decoded and encoded again on the way.

`script_call` puts the two halves together, for a callback that the called script offers and
arguments of the kind it is for: the function runs on the very values that the caller gave, and its
instance is kept as it left it. The caller sees nil, or an error. It is the same error whether the
function returned one or does not take the arguments at all.
-/

set_option autoImplicit false
set_option relaxedAutoImplicit false

namespace Gzscript.Abi.ScriptCalls

open Library.Bytes Library.Blocks Value ValueCodec FieldCodec Adapter AdapterLoad PropertyAccess
  RawDescriptor MethodDispatch DynamicCalls
open InstanceProperties hiding Request run

variable {World : Type*} {Object F32 F64 : Type}

/-! ### Scripts that are attached to objects -/

/-- A script and its instance, with what `sync_retained_objects` makes of it. -/
structure Attached (Object F32 F64 : Type) where
  script : Script F32 F64
  members : Members script
  sync : InstanceData Object script → InstanceData Object script
  data : InstanceData Object script

/-- The instance after a call that left its fields in some state. -/
def Attached.left (callee : Attached Object F32 F64) (box : Box callee.script) :
    Attached Object F32 F64 :=
  { callee with data := callee.sync { callee.data with box } }

/-- The error that the engine is told. -/
def callErrorType : CallError → CallErrorType
  | .ok => .ok
  | .invalidMethod => .invalidMethod
  | .invalidArgument => .invalidArgument

/-- A call of an object is a call of its script's instance, unless the script has no such method:
then the methods of the class are next. -/
structure Routes (host : Host World Object F32 F64)
    (attached : World → Object → Option (Attached Object F32 F64)) : Prop where
  callp : ∀ world object callee name arguments, attached world object = some callee →
    ∀ called, instanceCall (host.engine world) callee.members callee.sync callee.data name
        arguments = called → called.error ≠ .invalidMethod →
      (host.callp world object name (arguments.map .value)).error = callErrorType called.error ∧
      (host.callp world object name (arguments.map .value)).result = called.result.getD .nil ∧
      attached (host.callp world object name (arguments.map .value)).world object =
        some { callee with data := called.data }

/-! ### The arguments -/

/-- The caller gives a callback what it is for: a number, a handle to a live object, or nothing. -/
structure Gives (engine : Engine Object) (callback : CallbackMapping)
    (arguments : Table (GzValue F32 F64)) : Prop where
  present : arguments.missing = false
  count : arguments.count = callback.argumentCount
  float : floatCallbacks.any (· = callback.zigName) = true →
    ∀ value ∈ arguments.list, ∃ number, value = .float number
  object : objectCallbacks.any (· = callback.zigName) = true →
    ∀ value ∈ arguments.list, ∃ object, engine.Live object ∧
      value = .object (engine.getInstanceId object)

section Arguments

variable {engine : Engine Object} {callback : CallbackMapping}
  {arguments : Table (GzValue F32 F64)}

/-- What the engine is given. -/
def decodedValues (engine : Engine Object) (arguments : Table (GzValue F32 F64)) :
    List (Variant Object F32 F64) :=
  arguments.list.map fun value ↦ (toVariant engine value).1

theorem Gives.length (h : Gives engine callback arguments) :
    arguments.list.length = callback.argumentCount.toNat := by
  rw [← h.count]
  cases hentries : arguments.entries with
  | none =>
    have hcount : ¬ 0 < arguments.count := by
      have hpresent := h.present
      simpa [Table.missing, hentries] using hpresent
    have hzero : arguments.count = 0 := by
      have hnat : ¬ 0 < arguments.count.toNat := fun hpos ↦ hcount (UInt32.lt_iff_toNat_lt.mpr hpos)
      exact UInt32.toNat_inj.mp (Nat.eq_zero_of_not_pos hnat)
    rw [Table.list, hentries, hzero]
    rfl
  | some list =>
    rw [Table.list, hentries]
    exact arguments.length_eq list hentries

/-- A number and a handle to a live object come back as they were. -/
theorem Gives.kept (h : Gives engine callback arguments) (hlisted : callback ∈ callbackMappings)
    {value : GzValue F32 F64} (hvalue : value ∈ arguments.list) :
    (toVariant engine value).2 = true ∧ encoded engine (toVariant engine value).1 = value := by
  obtain hnone | ⟨-, hfloat | ⟨-, hobject⟩⟩ := kind_of_listed callback hlisted
  · have hempty : arguments.list.length = 0 := by
      rw [h.length, hnone]
      rfl
    rw [List.eq_nil_of_length_eq_zero hempty] at hvalue
    cases hvalue
  · obtain ⟨number, rfl⟩ := h.float hfloat value hvalue
    exact ⟨rfl, rfl⟩
  · obtain ⟨object, hlive, rfl⟩ := h.object hobject value hvalue
    refine ⟨rfl, ?_⟩
    rw [Engine.Live] at hlive
    simp only [toVariant, hlive, encoded, fromVariant, Option.map_some, Option.getD_some]

theorem Gives.suits (h : Gives engine callback arguments) :
    Suits engine callback (decodedValues engine arguments) where
  count := by rw [decodedValues, List.length_map, h.length]
  float hfloat argument hargument := by
    obtain ⟨value, hvalue, rfl⟩ := List.mem_map.mp hargument
    obtain ⟨number, rfl⟩ := h.float hfloat value hvalue
    exact ⟨number, rfl⟩
  object hobject argument hargument := by
    obtain ⟨value, hvalue, rfl⟩ := List.mem_map.mp hargument
    obtain ⟨object, hlive, rfl⟩ := h.object hobject value hvalue
    exact ⟨object, congrArg Variant.object hlive, hlive⟩

/-- Decoded and encoded again, the arguments are what the caller gave. -/
theorem Gives.encoded_decodedValues (h : Gives engine callback arguments)
    (hlisted : callback ∈ callbackMappings) :
    (decodedValues engine arguments).map (encoded engine) = arguments.list := by
  rw [decodedValues, List.map_map]
  exact (List.map_congr_left fun value hvalue ↦ (h.kept hlisted hvalue).2).trans
    (List.map_id arguments.list)

end Arguments

/-! ### The call -/

section Calls

variable {host : Host World Object F32 F64}
  {attached : World → Object → Option (Attached Object F32 F64)} {allocator : Allocator UInt8}
  {state : State World} {owner : UInt64} {object : Object} {method : ByteString}
  {arguments : Table (GzValue F32 F64)} {callback : CallbackMapping}

theorem right_run {start : State World} (hright : Right host start)
    (requests : List (Request World F32 F64)) {answers : List (Seen F32 F64)}
    (hrun : run host allocator start requests = some (answers, state)) : Right host state := by
  induction requests generalizing start answers with
  | nil =>
    cases hrun
    exact hright
  | cons request requests ih =>
    rw [run] at hrun
    obtain ⟨⟨answer, next⟩, hstep, hrest⟩ := Option.bind_eq_some_iff.mp hrun
    obtain ⟨⟨others, last⟩, hothers, heq⟩ := Option.map_eq_some_iff.mp hrest
    cases heq
    exact ih (step_refines hright hstep).1 hothers

/-- The arguments reach the engine. -/
theorem prepare_of_gives (hlive : (host.engine state.world).getInstance owner = some object)
    (hlisted : callback ∈ callbackMappings)
    (hgives : Gives (host.engine state.world) callback arguments) :
    Direct.prepare host state.world owner arguments =
      .ok (object, (decodedValues (host.engine state.world) arguments).map .value) := by
  have hall : arguments.list.all
      (fun value ↦ (toVariant (host.engine state.world) value).2) = true :=
    List.all_eq_true.mpr fun value hvalue ↦ (hgives.kept hlisted hvalue).1
  rw [Direct.prepare, hlive]
  dsimp only
  rw [if_neg (by simp [hgives.present]), Direct.decoded, if_pos hall, decodedValues, List.map_map]
  rfl

/-- What the caller sees of a call that the instance has handled. -/
def seenCall : CallError → Seen F32 F64
  | .ok => .value (some .nil)
  | _ => .error .typeMismatch

/-- A call that the instance handles, and that returns nothing, is answered. -/
theorem step_routed (allocator : Allocator UInt8) (hroutes : Routes host attached)
    (hright : Right host state)
    (hlive : (host.engine state.world).getInstance owner = some object)
    {callee : Attached Object F32 F64} (hattached : attached state.world object = some callee)
    (hlisted : callback ∈ callbackMappings)
    (hgives : Gives (host.engine state.world) callback arguments)
    {called : CallResult Object callee.script}
    (hcalled : instanceCall (host.engine state.world) callee.members callee.sync callee.data
      (host.decode method) (decodedValues (host.engine state.world) arguments) = called)
    (hhandled : called.error ≠ .invalidMethod) (hresult : called.result.getD .nil = .nil) :
    ∃ answer after, step host allocator state (.call owner method arguments) =
        some (answer, after) ∧
      answer.seen after.memory = seenCall called.error ∧
      attached after.world object = some { callee with data := called.data } := by
  obtain ⟨herror, hreturned, hafter⟩ :=
    hroutes.callp state.world object callee _ _ hattached called hcalled hhandled
  have hprepare := prepare_of_gives hlive hlisted hgives
  obtain ⟨status, code, hrefused, -, -⟩ | ⟨again, values, cache, hprepared, -, hcall⟩ :=
    objectCall_cases allocator hright owner method arguments
  · rw [hprepare] at hrefused
    cases hrefused
  · rw [hprepare] at hprepared
    cases hprepared
    rw [hresult] at hreturned
    rw [step, hcall, placeCall]
    dsimp only
    cases houtcome : called.error with
    | ok =>
      have hok : CallErrorType.ok = callErrorType called.error := by rw [houtcome]; rfl
      rw [if_pos (herror.trans hok.symm), encodeResult, hreturned]
      exact ⟨_, _, rfl, rfl, hafter⟩
    | invalidMethod => exact absurd houtcome hhandled
    | invalidArgument =>
      have hrefusal : callErrorType called.error = .invalidArgument := by rw [houtcome]; rfl
      rw [herror, hrefusal, if_neg (by decide)]
      exact ⟨_, _, rfl, rfl, hafter⟩

/-- From script to script. After any run of the caller, a call of a callback that the called script
offers, with what the callback is for, is answered, when the script's declaration for the callback
is a function. If it is one with one parameter more, then it has run on the values that the caller
gave; otherwise nothing has run. The
caller sees nil if the function has run without an error, and the same error in all other cases. -/
theorem script_call (hroutes : Routes host attached) {world : World} {memory : Memory UInt8}
    {requests : List (Request World F32 F64)} {answers : List (Seen F32 F64)}
    (hrun : run host allocator (initial world memory) requests = some (answers, state))
    (hlive : (host.engine state.world).getInstance owner = some object)
    {callee : Attached Object F32 F64} (hattached : attached state.world object = some callee)
    (hnames : NamesKept (host.engine state.world))
    (hoffers : Offers (host.engine state.world) callee.script (host.decode method) callback)
    (hgives : Gives (host.engine state.world) callback arguments)
    {member : Member callee.script} (hmember : callee.members.member callback.zigName = some member)
    (hfunction : member.parameters ≠ none) :
    ∃ answer after, step host allocator state (.call owner method arguments) =
        some (answer, after) ∧
      (member.parameters = some (callback.argumentCount.toNat + 1) →
        ∃ function, member.applied callback.argumentCount arguments.list = some function ∧
          attached after.world object = some (callee.left (function callee.data.box).after) ∧
          answer.seen after.memory =
            if (function callee.data.box).failed then .error .typeMismatch
            else .value (some .nil)) ∧
      (member.parameters ≠ some (callback.argumentCount.toNat + 1) →
        attached after.world object = some (callee.left callee.data.box) ∧
          answer.seen after.memory = .error .typeMismatch) := by
  have hright := right_run (right_initial world memory) requests hrun
  obtain ⟨-, -, hruns, hrefuses⟩ := offered_call hnames callee.members callee.sync callee.data
    hoffers hgives.suits hmember
  rw [hgives.encoded_decodedValues hoffers.listed] at hruns
  by_cases hparameters : member.parameters = some (callback.argumentCount.toNat + 1)
  · obtain ⟨function, happlied, hcalled⟩ := hruns hparameters
    obtain ⟨answer, after, hstep, hseen, hafter⟩ := step_routed allocator hroutes hright hlive
      hattached hoffers.listed hgives hcalled
      (by rw [ran]; split <;> simp) (by rw [ran]; split <;> rfl)
    refine ⟨answer, after, hstep, fun _ ↦ ⟨function, happlied, hafter, ?_⟩,
      fun hother ↦ absurd hparameters hother⟩
    rw [hseen, ran]
    split <;> rfl
  · have hcalled := hrefuses hparameters
    rw [if_neg hfunction] at hcalled
    obtain ⟨answer, after, hstep, hseen, hafter⟩ := step_routed allocator hroutes
      hright hlive hattached hoffers.listed hgives hcalled (by simp [refused]) rfl
    exact ⟨answer, after, hstep, fun hsame ↦ absurd hsame hparameters, fun _ ↦ ⟨hafter, hseen⟩⟩

end Calls

/-! ### An engine with one object -/

def oneObjectEngine : Engine Unit where
  getInstance objectId := if objectId = 0 then none else some ()
  getInstanceId _ := 7
  getInstance_zero := if_pos rfl
  utf8 := sampleEngine.utf8
  ofUtf8 := sampleEngine.ofUtf8
  ofUtf8_utf8 := sampleEngine.ofUtf8_utf8

def argumentValue : DynamicCalls.Argument Unit Empty ℕ → Option (Variant Unit Empty ℕ)
  | .value value => some value
  | .name _ => none

/-- The instance of the script that is called with the time. -/
def tickInstance : InstanceData Unit tickScript where
  box := tickData.box
  retainedObjects _ := .nil

/-- The world is the instance that the object has. -/
def tickAttached (world : InstanceData Unit tickScript) (_ : Unit) :
    Option (Attached Unit Empty ℕ) :=
  some ⟨tickScript, tickMembers, id, world⟩

def tickHost : Host (InstanceData Unit tickScript) Unit Empty ℕ where
  engine _ := oneObjectEngine
  decode := sampleEngine.ofUtf8
  decode_eq _ := rfl
  callp world _ name arguments :=
    let called := instanceCall oneObjectEngine tickMembers id world name
      (arguments.filterMap argumentValue)
    ⟨called.data, called.result.getD .nil, callErrorType called.error⟩
  hasEmitSignal := true
  emitSignal world _ _ := ⟨world, .nil, .ok⟩
  toInt _ := 0

theorem namesKept_oneObjectEngine : NamesKept oneObjectEngine := namesKept_sampleEngine

theorem tickHost_routes : Routes tickHost tickAttached where
  callp world object callee name arguments hattached called hcalled _ := by
    cases hattached
    have hvalues : (arguments.map DynamicCalls.Argument.value).filterMap argumentValue =
        arguments := by
      rw [List.filterMap_map]
      exact List.filterMap_some
    subst hcalled
    show callErrorType (instanceCall oneObjectEngine tickMembers id world name
        ((arguments.map DynamicCalls.Argument.value).filterMap argumentValue)).error = _ ∧
      (instanceCall oneObjectEngine tickMembers id world name
        ((arguments.map DynamicCalls.Argument.value).filterMap argumentValue)).result.getD .nil =
          _ ∧ tickAttached (instanceCall oneObjectEngine tickMembers id world name
        ((arguments.map DynamicCalls.Argument.value).filterMap argumentValue)).data () = _
    rw [hvalues]
    exact ⟨rfl, rfl, rfl⟩

def tickArguments : Table (GzValue Empty ℕ) :=
  .counted 1 [.float 16] rfl (by decide)

theorem tickArguments_gives :
    Gives oneObjectEngine ⟨ascii "_process", ascii "process", 1⟩ tickArguments where
  present := rfl
  count := rfl
  float _ value hvalue := ⟨16, List.mem_singleton.mp hvalue⟩
  object hobject := absurd hobject (by decide)

/-- The time that the instance has kept. -/
def keptTime (attached : Option (Attached Unit Empty ℕ)) : Option (GzValue Empty ℕ) :=
  attached.bind fun callee ↦ callee.data.box.value (ascii "time")

/-- One object calls the other with the time, with nothing in memory yet. -/
theorem tick_called :
    keptTime (tickAttached tickInstance ()) = some (.float 0) ∧
      ∃ answer after, step tickHost OwnedStrings.twoBlocks (initial tickInstance fun _ ↦ none)
          (.call 7 (ascii "_process") tickArguments) = some (answer, after) ∧
        answer.seen after.memory = .value (some .nil) ∧
        keptTime (tickAttached after.world ()) = some (.float 16) := by
  have hoffers : Offers (tickHost.engine tickInstance) tickScript
      (tickHost.decode (ascii "_process")) ⟨ascii "_process", ascii "process", 1⟩ :=
    ⟨by decide, rfl, rfl⟩
  have hmember : tickMembers.member (ascii "process") =
      some (.unary (.float (.same ℕ)) tick) := rfl
  have hrun : run tickHost OwnedStrings.twoBlocks (initial tickInstance fun _ ↦ none) [] =
      some ([], initial tickInstance fun _ ↦ none) := rfl
  have hlive : (tickHost.engine tickInstance).getInstance 7 = some () := rfl
  obtain ⟨answer, after, hstep, hruns, -⟩ := script_call tickHost_routes hrun hlive rfl
    namesKept_oneObjectEngine hoffers tickArguments_gives hmember nofun
  obtain ⟨function, happlied, hafter, hseen⟩ := hruns rfl
  obtain rfl := Option.some.inj happlied
  refine ⟨rfl, answer, after, hstep, hseen, ?_⟩
  rw [hafter]
  rfl

end Gzscript.Abi.ScriptCalls
