import Gzscript.Abi.MethodDispatch
import Gzscript.Library.Blocks
import Gzscript.Library.Transition

/-!
# Calls of a script into the engine

A script calls any method of an object by name, and emits its signals. `objectCall` and
`objectEmitSignal` decode the arguments into arrays (on the stack, if there are few), look the name
up in a cache of the thread, let the engine make the call, and encode what it returns.

`Direct` says what these calls are for: no cache, no arrays. Every run of calls, starting with an
empty cache, changes the engine as direct calls do and reports the same (`run_refines_direct`), with
one exception: a string that a call returns lies in storage that is given back before the call
is over, so the script cannot read it unless it is empty.
-/

set_option autoImplicit false
set_option relaxedAutoImplicit false

namespace Gzscript.Abi.DynamicCalls

open Library.Bytes Library.Blocks Library.Transition Value ValueCodec RawDescriptor
open MethodDispatch (GzStatus)

/-! ### The engine -/

/-- `GDExtensionCallErrorType`. -/
inductive CallErrorType
  | ok | invalidMethod | invalidArgument | tooManyArguments | tooFewArguments | instanceIsNull
  | methodNotConst
  deriving DecidableEq

/-- An argument of a call: a name, or a value of a script. -/
inductive Argument (Object F32 F64 : Type)
  | name (name : String)
  | value (value : Variant Object F32 F64)

/-- What a call returned. -/
structure Reply (World : Type*) (Object F32 F64 : Type) where
  world : World
  result : Variant Object F32 F64
  error : CallErrorType

/-- The engine, of which every call may change the world. -/
structure Host (World : Type*) (Object F32 F64 : Type) where
  engine : World → Engine Object
  /-- `String::utf8` of a pointer and a length, which does not depend on the world. -/
  decode : ByteString → String
  decode_eq : ∀ world, (engine world).ofUtf8 = decode
  /-- `Variant::callp` of an object. -/
  callp : World → Object → String → List (Argument Object F32 F64) → Reply World Object F32 F64
  /-- `classdb_get_method_bind` finds `emit_signal`. -/
  hasEmitSignal : Bool
  /-- `object_method_bind_call` of `emit_signal`. -/
  emitSignal : World → Object → List (Argument Object F32 F64) → Reply World Object F32 F64
  /-- The integer that a value is cast to. -/
  toInt : Variant Object F32 F64 → Int64

variable {World : Type*} {Object F32 F64 : Type}

/-! ### The cache of names -/

/-- The names that the thread has decoded. -/
abbrev NameCache : Type := ByteString → Option String

def NameCache.empty : NameCache := fun _ ↦ none

def getCachedName (engine : Engine Object) (cache : NameCache) (view : ByteString) :
    String × NameCache :=
  match cache view with
  | some name => (name, cache)
  | none => (engine.ofUtf8 view, Function.update cache view (some (engine.ofUtf8 view)))

/-! ### The arrays of a call -/

/-- The values of a call, and the pointers to them by their places. -/
structure Arrays (Object F32 F64 : Type) where
  values : List (Argument Object F32 F64)
  pointers : List (Option ℕ)

/-- Why a call does not get as far as the engine. -/
inductive Fault
  /-- An argument has a tag outside of the enumeration. -/
  | unsupported
  /-- A place behind the end of an array is written. -/
  | outOfBounds
  deriving DecidableEq

def Arrays.ofSize (size : ℕ) : Arrays Object F32 F64 where
  values := .replicate size (.value .nil)
  pointers := .replicate size none

/-- Writes a value, and the pointer to it. -/
def Arrays.put (arrays : Arrays Object F32 F64) (place : ℕ) (argument : Argument Object F32 F64) :
    Except Fault (Arrays Object F32 F64) :=
  if place < arrays.values.length ∧ place < arrays.pointers.length then
    .ok ⟨arrays.values.set place argument, arrays.pointers.set place (some place)⟩
  else .error .outOfBounds

/-- The loop over the arguments, from a place on. -/
def Arrays.fill (engine : Engine Object) (arrays : Arrays Object F32 F64) (place : ℕ) :
    List (GzValue F32 F64) → Except Fault (Arrays Object F32 F64)
  | [] => .ok arrays
  | argument :: arguments =>
    let (value, valid) := toVariant engine argument
    if valid then
      match arrays.put place (.value value) with
      | .error fault => .error fault
      | .ok next => next.fill engine (place + 1) arguments
    else .error .unsupported

/-- What is behind the first pointers, if every one of them has been written. -/
def Arrays.passed (arrays : Arrays Object F32 F64) (count : ℕ) :
    Option (List (Argument Object F32 F64)) :=
  (arrays.pointers.take count).mapM fun pointer ↦ pointer.bind fun place ↦ arrays.values[place]?

def stackLimit : ℕ := 8

/-- The arguments of `object_call`, in arrays on the stack or on the heap, as the engine reads
them. -/
def callArguments (engine : Engine Object) (arguments : Table (GzValue F32 F64)) :
    Except Fault (Option (List (Argument Object F32 F64))) :=
  let count := arguments.count.toNat
  let arrays := Arrays.ofSize (if stackLimit < count then count else stackLimit)
  match arrays.fill engine 0 arguments.list with
  | .error fault => .error fault
  | .ok filled => .ok (filled.passed count)

/-- The arguments of `object_emit_signal`, as the engine reads them. The arrays have one place more
than there are arguments, by an addition of 32 bits. -/
def emitArguments (engine : Engine Object) (name : String) (arguments : Table (GzValue F32 F64)) :
    Except Fault (Option (List (Argument Object F32 F64))) :=
  let size := (arguments.count + 1).toNat
  match (Arrays.ofSize size : Arrays Object F32 F64).put 0 (.name name) with
  | .error fault => .error fault
  | .ok arrays =>
    match arrays.fill engine 1 arguments.list with
    | .error fault => .error fault
    | .ok filled => .ok (filled.passed size)

/-! ### The calls -/

/-- What a call returns to the script: a string by a slice of memory. -/
inductive Returned (F32 F64 : Type)
  | string (view : Slice)
  | plain (value : GzValue F32 F64)

structure State (World : Type*) where
  world : World
  memory : Memory UInt8
  methodNameCache : NameCache
  /-- The static pointer to `emit_signal`, once it has been looked up. -/
  methodBind : Option Bool

variable (host : Host World Object F32 F64) (allocator : Allocator UInt8)

/-- `from_variant` of what a call returned. A string is copied into storage that is given back when
the call returns. Nothing is returned where no memory is left for it. -/
def encodeResult (state : State World) (result : Variant Object F32 F64) :
    Option ((GzStatus × Returned F32 F64) × State World) :=
  let (value, valid) := fromVariant (host.engine state.world) result true
  let status : GzStatus := if valid then .ok else .typeMismatch
  match value with
  | .string text =>
    (dupe allocator state.memory text).map fun (view, grown) ↦
      ((status, .string view), { state with memory := free grown view })
  | value => some ((status, .plain value), state)

/-- The status of a call that the engine refused. -/
def refusal : CallErrorType → GzStatus
  | .invalidMethod => .methodNotFound
  | .invalidArgument => .typeMismatch
  | .tooManyArguments | .tooFewArguments | .instanceIsNull => .invalidArgument
  | _ => .scriptError

/-- `object_call`. Nothing is returned where memory is written that is not the call's, or none is
left. The result of the script is nil until it is written. -/
def objectCall (state : State World) (objectId : UInt64) (method : ByteString)
    (arguments : Table (GzValue F32 F64)) :
    Option ((GzStatus × Returned F32 F64) × State World) :=
  let engine := host.engine state.world
  match engine.getInstance objectId with
  | none => some ((.invalidArgument, .plain .nil), state)
  | some object =>
    if arguments.missing then some ((.invalidArgument, .plain .nil), state)
    else
      match callArguments engine arguments with
      | .error .unsupported => some ((.typeMismatch, .plain .nil), state)
      | .error .outOfBounds | .ok none => none
      | .ok (some passed) =>
        let (name, cache) := getCachedName engine state.methodNameCache method
        let reply := host.callp state.world object name passed
        let state := { state with world := reply.world, methodNameCache := cache }
        if reply.error = .ok then encodeResult host allocator state reply.result
        else some ((refusal reply.error, .plain .nil), state)

/-- `object_emit_signal`. -/
def objectEmitSignal (state : State World) (objectId : UInt64) (signal : ByteString)
    (arguments : Table (GzValue F32 F64)) : Option (GzStatus × State World) :=
  let engine := host.engine state.world
  match engine.getInstance objectId with
  | none => some (.invalidArgument, state)
  | some object =>
    if arguments.missing then some (.invalidArgument, state)
    else
      let (name, cache) := getCachedName engine state.methodNameCache signal
      let state := { state with methodNameCache := cache }
      match emitArguments engine name arguments with
      | .error .unsupported => some (.typeMismatch, state)
      | .error .outOfBounds | .ok none => none
      | .ok (some passed) =>
        let bind := state.methodBind.getD host.hasEmitSignal
        let state := { state with methodBind := some bind }
        if bind = false then some (.methodNotFound, state)
        else
          let reply := host.emitSignal state.world object passed
          some (if reply.error = .ok ∧ host.toInt reply.result = 0 then .ok else .scriptError,
            { state with world := reply.world })

/-! ### The script's side -/

/-- The errors of `Object.call`. -/
inductive ZigError
  | engineNotReady | invalidArgument | methodNotFound | propertyNotFound | typeMismatch
  | outOfMemory | scriptError | abiMismatch | emitSignalFailed
  deriving DecidableEq

/-- The error that a status becomes. -/
def zigError : GzStatus → Option ZigError
  | .ok => none
  | .invalidArgument => some .invalidArgument
  | .methodNotFound => some .methodNotFound
  | .propertyNotFound => some .propertyNotFound
  | .typeMismatch => some .typeMismatch
  | .outOfMemory => some .outOfMemory
  | .scriptError => some .scriptError
  | .abiMismatch => some .abiMismatch

/-- What a script may do, and what happens to the engine in between. -/
inductive Request (World : Type*) (F32 F64 : Type)
  | elsewhere (change : World → World)
  | call (owner : UInt64) (method : ByteString) (arguments : Table (GzValue F32 F64))
  /-- The arguments are the fields of a tuple, which are not as many as there are numbers. -/
  | emitSignal (owner : UInt64) (name : ByteString) (arguments : Table (GzValue F32 F64))
    (hroom : arguments.count.toNat + 1 < 2 ^ 32)
  /-- The names of the thread are forgotten. -/
  | clearThreadCaches

/-- What a script gets from it. -/
inductive Answer (F32 F64 : Type)
  | error (error : ZigError)
  | returned (value : Returned F32 F64)
  | done

/-- The answer to a call with a status and a result. -/
def callAnswer (status : GzStatus) (result : Returned F32 F64) : Answer F32 F64 :=
  match zigError status with
  | none => .returned result
  | some error => .error error

/-- `Object.call` and `Object.emitSignal`. -/
def step (state : State World) :
    Request World F32 F64 → Option (Answer F32 F64 × State World)
  | .elsewhere change => some (.done, { state with world := change state.world })
  | .call owner method arguments =>
    (objectCall host allocator state owner method arguments).map fun ((status, result), after) ↦
      (callAnswer status result, after)
  | .emitSignal owner name arguments _ =>
    (objectEmitSignal host state owner name arguments).map fun (status, after) ↦
      (if status = .ok then .done else .error .emitSignalFailed, after)
  | .clearThreadCaches => some (.done, { state with methodNameCache := .empty })

/-- What a script can read when a call has returned. -/
inductive Seen (F32 F64 : Type)
  | error (error : ZigError)
  | value (value : Option (GzValue F32 F64))
  | done

def Returned.read (memory : Memory UInt8) : Returned F32 F64 → Option (GzValue F32 F64)
  | .string view => (Library.Blocks.read memory view).map .string
  | .plain value => some value

def Answer.seen (memory : Memory UInt8) : Answer F32 F64 → Seen F32 F64
  | .error code => .error code
  | .returned value => .value (value.read memory)
  | .done => .done

/-- What the script sees of each answer when it gets it. -/
def run (state : State World) :
    List (Request World F32 F64) → Option (List (Seen F32 F64) × State World)
  | [] => some ([], state)
  | request :: requests =>
    (step host allocator state request).bind fun (answer, next) ↦
      (run next requests).map fun (answers, after) ↦ (answer.seen next.memory :: answers, after)

/-- The thread has not called anything yet. -/
def initial (world : World) (memory : Memory UInt8) : State World := ⟨world, memory, .empty, none⟩

/-! ### Direct calls -/

namespace Direct

/-- The arguments, if each has a tag of the enumeration. -/
def decoded (engine : Engine Object) (arguments : List (GzValue F32 F64)) :
    Option (List (Argument Object F32 F64)) :=
  if arguments.all fun argument ↦ (toVariant engine argument).2 then
    some (arguments.map fun argument ↦ .value (toVariant engine argument).1)
  else none

/-- The object calls its method. -/
def call (world : World) (object : Object) (method : ByteString)
    (arguments : List (Argument Object F32 F64)) : Except ZigError (GzValue F32 F64) × World :=
  let reply := host.callp world object (host.decode method) arguments
  if reply.error = .ok then
    let (value, valid) := fromVariant (host.engine reply.world) reply.result true
    (if valid then .ok value else .error .typeMismatch, reply.world)
  else (.error ((zigError (refusal reply.error)).getD .scriptError), reply.world)

/-- The object emits its signal. -/
def emitSignal (world : World) (object : Object) (name : ByteString)
    (arguments : List (Argument Object F32 F64)) : Bool × World :=
  if host.hasEmitSignal then
    let reply := host.emitSignal world object (.name (host.decode name) :: arguments)
    (decide (reply.error = .ok ∧ host.toInt reply.result = 0), reply.world)
  else (false, world)

/-- The live object and the arguments of a request, or the error that takes their place. -/
def prepare (world : World) (owner : UInt64) (arguments : Table (GzValue F32 F64)) :
    Except ZigError (Object × List (Argument Object F32 F64)) :=
  match (host.engine world).getInstance owner with
  | none => .error .invalidArgument
  | some object =>
    if arguments.missing then .error .invalidArgument
    else
      match decoded (host.engine world) arguments.list with
      | none => .error .typeMismatch
      | some values => .ok (object, values)

/-- A string that is not empty. -/
def isText : GzValue F32 F64 → Bool
  | .string text => text ≠ []
  | _ => false

/-- What can be seen of an answer: a text is lost. -/
def seen : Except ZigError (GzValue F32 F64) → Seen F32 F64
  | .error error => .error error
  | .ok value => .value (if isText value then none else some value)

def step (world : World) : Request World F32 F64 → Seen F32 F64 × World
  | .elsewhere change => (.done, change world)
  | .call owner method arguments =>
    match prepare host world owner arguments with
    | .error error => (.error error, world)
    | .ok (object, values) =>
      let (result, after) := call host world object method values
      (seen result, after)
  | .emitSignal owner name arguments _ =>
    match prepare host world owner arguments with
    | .error _ => (.error .emitSignalFailed, world)
    | .ok (object, values) =>
      let (emitted, after) := emitSignal host world object name values
      (if emitted then .done else .error .emitSignalFailed, after)
  | .clearThreadCaches => (.done, world)

def run (world : World) : List (Request World F32 F64) → List (Seen F32 F64) × World
  | [] => ([], world)
  | request :: requests =>
    let (seen, next) := step host world request
    let (answers, after) := run next requests
    (seen :: answers, after)

end Direct

/-! ### The cache -/

/-- Every name in the cache was decoded from its key, and the pointer is what is looked up. -/
structure Right (host : Host World Object F32 F64) (state : State World) : Prop where
  names : ∀ view name, state.methodNameCache view = some name → name = host.decode view
  bind : ∀ bind, state.methodBind = some bind → bind = host.hasEmitSignal

variable {host allocator}

theorem getCachedName_spec {state : State World} (hright : Right host state) (world : World)
    (view : ByteString) :
    (getCachedName (host.engine world) state.methodNameCache view).1 = host.decode view ∧
      ∀ key name, (getCachedName (host.engine world) state.methodNameCache view).2 key = some name →
        name = host.decode key := by
  rw [getCachedName]
  cases hcached : state.methodNameCache view with
  | some name => exact ⟨hright.names view name hcached, hright.names⟩
  | none =>
    refine ⟨by rw [host.decode_eq], fun key name hkey ↦ ?_⟩
    by_cases hview : key = view
    · subst hview
      simp only [Function.update_self, Option.some.injEq] at hkey
      rw [← hkey, host.decode_eq]
    · simp only [Function.update_of_ne hview] at hkey
      exact hright.names key name hkey

/-! ### The arrays -/

/-- The first places hold some arguments, each with the pointer to it. -/
structure Arrays.Holds (arrays : Arrays Object F32 F64)
    (arguments : List (Argument Object F32 F64)) : Prop where
  sameSize : arrays.pointers.length = arrays.values.length
  fits : arguments.length ≤ arrays.values.length
  values : ∀ place < arguments.length, arrays.values[place]? = arguments[place]?
  pointers : ∀ place < arguments.length, arrays.pointers[place]? = some (some place)

theorem Arrays.holds_ofSize (size : ℕ) : (Arrays.ofSize size : Arrays Object F32 F64).Holds [] where
  sameSize := by simp [Arrays.ofSize]
  fits := Nat.zero_le _
  values := nofun
  pointers := nofun

/-- The next place is written. -/
theorem Arrays.Holds.put {arrays : Arrays Object F32 F64}
    {arguments : List (Argument Object F32 F64)} (h : arrays.Holds arguments)
    (hroom : arguments.length < arrays.values.length) (argument : Argument Object F32 F64) :
    ∃ next, arrays.put arguments.length argument = .ok next ∧
      next.Holds (arguments ++ [argument]) ∧ next.values.length = arrays.values.length := by
  have hplace : arguments.length < arrays.pointers.length := h.sameSize ▸ hroom
  refine ⟨_, if_pos ⟨hroom, hplace⟩, ⟨?_, ?_, ?_, ?_⟩, List.length_set⟩
  · rw [List.length_set, List.length_set, h.sameSize]
  · rw [List.length_set, List.length_append]
    exact hroom
  · intro place hlt
    rw [List.length_append, List.length_singleton] at hlt
    obtain hbefore | rfl := Nat.lt_succ_iff_lt_or_eq.mp hlt
    · rw [List.getElem?_set_ne hbefore.ne', h.values place hbefore,
        List.getElem?_append_left hbefore]
    · rw [List.getElem?_set_self hroom, List.getElem?_concat_length]
  · intro place hlt
    rw [List.length_append, List.length_singleton] at hlt
    obtain hbefore | rfl := Nat.lt_succ_iff_lt_or_eq.mp hlt
    · rw [List.getElem?_set_ne hbefore.ne', h.pointers place hbefore]
    · rw [List.getElem?_set_self hplace]

/-- A list whose entries all have an image. -/
theorem mapM_eq_some {α β : Type} {function : α → Option β} {list : List α} {images : List β}
    (hlength : list.length = images.length)
    (himages : ∀ place < list.length, (list[place]?).bind function = images[place]?) :
    list.mapM function = some images := by
  induction list generalizing images with
  | nil =>
    obtain rfl := List.eq_nil_of_length_eq_zero hlength.symm
    rfl
  | cons first list ih =>
    cases images with
    | nil => cases hlength
    | cons image images =>
      have hfirst : function first = some image := himages 0 (Nat.succ_pos _)
      have hrest : list.mapM function = some images := ih (Nat.succ.inj hlength) fun place hplace ↦
        himages (place + 1) (Nat.succ_lt_succ hplace)
      rw [List.mapM_cons, hfirst, hrest]
      rfl

/-- The engine gets what the arrays hold. -/
theorem Arrays.Holds.passed {arrays : Arrays Object F32 F64}
    {arguments : List (Argument Object F32 F64)} (h : arrays.Holds arguments) :
    arrays.passed arguments.length = some arguments := by
  have hlength : (arrays.pointers.take arguments.length).length = arguments.length := by
    rw [List.length_take, h.sameSize, Nat.min_eq_left h.fits]
  refine mapM_eq_some hlength fun place hplace ↦ ?_
  rw [hlength] at hplace
  rw [List.getElem?_take_of_lt hplace, h.pointers place hplace]
  exact h.values place hplace

theorem Direct.decoded_cons (engine : Engine Object) (argument : GzValue F32 F64)
    (arguments : List (GzValue F32 F64)) :
    Direct.decoded engine (argument :: arguments) =
      if (toVariant engine argument).2 = true then
        (Direct.decoded engine arguments).map (.value (toVariant engine argument).1 :: ·)
      else none := by
  simp only [Direct.decoded, List.all_cons, Bool.and_eq_true, List.map_cons]
  by_cases hhead : (toVariant engine argument).2 = true
  · by_cases htail : (arguments.all fun argument ↦ (toVariant engine argument).2) = true
    · rw [if_pos ⟨hhead, htail⟩, if_pos hhead, if_pos htail]
      rfl
    · rw [if_neg fun h ↦ htail h.2, if_pos hhead, if_neg htail]
      rfl
  · rw [if_neg fun h ↦ hhead h.1, if_neg hhead]

theorem Direct.length_decoded {engine : Engine Object} {arguments : List (GzValue F32 F64)}
    {values : List (Argument Object F32 F64)}
    (hdecoded : Direct.decoded engine arguments = some values) :
    values.length = arguments.length := by
  rw [Direct.decoded] at hdecoded
  split at hdecoded
  · obtain rfl := Option.some.inj hdecoded
    exact List.length_map _
  · cases hdecoded

/-- The loop decodes the arguments into the places behind, if there is room. -/
theorem Arrays.Holds.fill (engine : Engine Object) {arrays : Arrays Object F32 F64}
    {before : List (Argument Object F32 F64)} (h : arrays.Holds before)
    {arguments : List (GzValue F32 F64)}
    (hroom : before.length + arguments.length ≤ arrays.values.length) :
    (Direct.decoded engine arguments = none →
        arrays.fill engine before.length arguments = .error .unsupported) ∧
      ∀ values, Direct.decoded engine arguments = some values →
        ∃ filled, arrays.fill engine before.length arguments = .ok filled ∧
          filled.Holds (before ++ values) := by
  induction arguments generalizing arrays before with
  | nil =>
    refine ⟨nofun, fun values hdecoded ↦ ⟨arrays, rfl, ?_⟩⟩
    obtain rfl : [] = values := Option.some.inj hdecoded
    rwa [List.append_nil]
  | cons argument arguments ih =>
    rw [List.length_cons] at hroom
    rw [Direct.decoded_cons, Arrays.fill]
    by_cases hhead : (toVariant engine argument).2 = true
    · obtain ⟨next, hput, hnext, hsize⟩ :=
        h.put (by omega) (.value (toVariant engine argument).1)
      have hlength : (before ++ [Argument.value (toVariant engine argument).1]).length =
          before.length + 1 := by rw [List.length_append, List.length_singleton]
      obtain ⟨hnone, hsome⟩ := ih hnext (by omega)
      rw [hlength] at hnone hsome
      simp only [hhead, if_true, hput]
      refine ⟨fun hdecoded ↦ hnone (Option.map_eq_none_iff.mp hdecoded), fun values hdecoded ↦ ?_⟩
      obtain ⟨rest, hrest, rfl⟩ := Option.map_eq_some_iff.mp hdecoded
      obtain ⟨filled, hfill, hfilled⟩ := hsome rest hrest
      refine ⟨filled, hfill, ?_⟩
      rwa [List.append_assoc, List.singleton_append] at hfilled
    · simp only [hhead, if_false, Bool.false_eq_true]
      exact ⟨fun _ ↦ trivial, nofun⟩

variable {engine : Engine Object} {arguments : Table (GzValue F32 F64)}

theorem fill_of_holds (engine : Engine Object) {arrays : Arrays Object F32 F64}
    {before : List (Argument Object F32 F64)}
    (h : arrays.Holds before) (place : ℕ) (hplace : before.length = place)
    {values : List (GzValue F32 F64)} (hroom : place + values.length ≤ arrays.values.length) :
    (Direct.decoded engine values = none ∧
        arrays.fill engine place values = .error .unsupported) ∨
      ∃ decoded filled, Direct.decoded engine values = some decoded ∧
        arrays.fill engine place values = .ok filled ∧
        filled.passed (place + values.length) = some (before ++ decoded) := by
  subst hplace
  obtain ⟨hnone, hsome⟩ := h.fill engine hroom
  cases hdecoded : Direct.decoded engine values with
  | none => exact .inl ⟨rfl, hnone hdecoded⟩
  | some decoded =>
    obtain ⟨filled, hfill, hfilled⟩ := hsome decoded hdecoded
    refine .inr ⟨decoded, filled, rfl, hfill, ?_⟩
    rw [← Direct.length_decoded hdecoded, ← List.length_append]
    exact hfilled.passed

/-- The arrays have room for the arguments, on the stack as on the heap. -/
theorem callArguments_eq (hmissing : arguments.missing = false) :
    callArguments engine arguments =
      (Direct.decoded engine arguments.list).elim (.error .unsupported) fun values ↦
        .ok (some values) := by
  have hlength := Table.length_list hmissing
  have hroom : 0 + arguments.list.length ≤
      (Arrays.ofSize (if stackLimit < arguments.count.toNat then arguments.count.toNat
        else stackLimit) : Arrays Object F32 F64).values.length := by
    rw [Arrays.ofSize, List.length_replicate, hlength]
    split <;> omega
  rw [callArguments]
  obtain ⟨hdecoded, hfill⟩ | ⟨decoded, filled, hdecoded, hfill, hpassed⟩ :=
    fill_of_holds engine (Arrays.holds_ofSize _) 0 rfl hroom
  · rw [hdecoded, hfill]
    rfl
  · rw [Nat.zero_add, hlength] at hpassed
    rw [hdecoded, hfill]
    exact congrArg _ hpassed

/-- They have room for the name, too, unless the number of places overflows. -/
theorem emitArguments_eq (hmissing : arguments.missing = false)
    (hcount : arguments.count.toNat + 1 < 2 ^ 32) (name : String) :
    emitArguments engine name arguments =
      (Direct.decoded engine arguments.list).elim (.error .unsupported) fun values ↦
        .ok (some (.name name :: values)) := by
  have hlength := Table.length_list hmissing
  have hsize : (arguments.count + 1).toNat = 1 + arguments.list.length := by
    rw [UInt32.toNat_add, UInt32.toNat_one, Nat.mod_eq_of_lt hcount, hlength, Nat.add_comm]
  have hroom : (1 + arguments.list.length) ≤
      (Arrays.ofSize (1 + arguments.list.length) : Arrays Object F32 F64).values.length := by
    rw [Arrays.ofSize, List.length_replicate]
  obtain ⟨named, hput, hnamed, hnamedSize⟩ :=
    (Arrays.holds_ofSize (1 + arguments.list.length)).put
      (lt_of_lt_of_le (Nat.add_pos_left Nat.one_pos _) hroom)
      (.name name : Argument Object F32 F64)
  rw [← hnamedSize] at hroom
  rw [List.length_nil] at hput
  rw [emitArguments, hsize, hput]
  obtain ⟨hdecoded, hfill⟩ | ⟨decoded, filled, hdecoded, hfill, hpassed⟩ :=
    fill_of_holds engine hnamed 1 rfl hroom
  · rw [hdecoded]
    dsimp only
    rw [hfill]
    rfl
  · rw [hdecoded]
    dsimp only
    rw [hfill]
    exact congrArg _ hpassed

/-! ### A returned string -/

/-- The storage of a string that is not empty is gone when the call has returned. -/
theorem read_free_dupe {memory grown : Memory UInt8} {text : ByteString} {view : Slice}
    (hdupe : dupe allocator memory text = some (view, grown)) :
    Library.Blocks.read (free grown view) view = if text = [] then some [] else none := by
  cases text with
  | nil =>
    obtain ⟨rfl, rfl⟩ := Prod.mk.inj (Option.some.inj hdupe)
    rfl
  | cons byte text =>
    have hduped := duped_dupe hdupe
    have hlength : view.length ≠ 0 := by
      intro hempty
      have hread := hduped.read
      rw [Library.Blocks.read, if_pos hempty] at hread
      cases hread
    rw [if_neg (List.cons_ne_nil _ _)]
    exact read_free_of_shares ⟨hlength, hlength, rfl⟩

/-- What can be seen of an encoded result. -/
structure Encoded (state after : State World) (value : GzValue F32 F64) (valid : Bool)
    (status : GzStatus) (returned : Returned F32 F64) : Prop where
  status : status = if valid then .ok else .typeMismatch
  read : returned.read after.memory = if Direct.isText value then none else some value
  world : after.world = state.world
  names : after.methodNameCache = state.methodNameCache
  bind : after.methodBind = state.methodBind

theorem encodeResult_spec {state after : State World} {result : Variant Object F32 F64}
    {value : GzValue F32 F64} {valid : Bool} {status : GzStatus} {returned : Returned F32 F64}
    (hvalue : fromVariant (host.engine state.world) result true = (value, valid))
    (hencoded : encodeResult host allocator state result = some ((status, returned), after)) :
    Encoded state after value valid status returned := by
  rw [encodeResult, hvalue] at hencoded
  cases value with
  | string text =>
    obtain ⟨⟨view, grown⟩, hdupe, hresult⟩ := Option.map_eq_some_iff.mp hencoded
    cases hresult
    refine ⟨rfl, ?_, rfl, rfl, rfl⟩
    show (Library.Blocks.read (free grown view) view).map GzValue.string = _
    rw [read_free_dupe hdupe]
    by_cases hempty : text = []
    · subst hempty
      rfl
    · rw [if_neg hempty, Direct.isText, decide_eq_true hempty]
      rfl
  | _ =>
    cases hencoded
    exact ⟨rfl, rfl, rfl, rfl, rfl⟩

/-- No result is encoded only for want of memory. -/
theorem encodeResult_eq_none {state : State World} {result : Variant Object F32 F64}
    (hnone : encodeResult host allocator state result = none) :
    ∃ length, allocator state.memory length = none := by
  cases hvalue : fromVariant (host.engine state.world) result true with
  | mk value valid =>
    rw [encodeResult, hvalue] at hnone
    cases value with
    | string text =>
      exact ⟨text.length, InstanceProperties.dupe_eq_none (Option.map_eq_none_iff.mp hnone)⟩
    | _ => cases hnone


/-! ### One request -/

variable {state : State World}

/-- What `object_call` does once its arguments are decoded. -/
def placeCall (host : Host World Object F32 F64) (allocator : Allocator UInt8)
    (state : State World) (object : Object) (method : ByteString) (cache : NameCache)
    (values : List (Argument Object F32 F64)) :
    Option ((GzStatus × Returned F32 F64) × State World) :=
  let reply := host.callp state.world object (host.decode method) values
  let next := { state with world := reply.world, methodNameCache := cache }
  if reply.error = .ok then encodeResult host allocator next reply.result
  else some ((refusal reply.error, .plain .nil), next)

/-- The cached names of a cache are right. -/
def RightNames (host : Host World Object F32 F64) (cache : NameCache) : Prop :=
  ∀ view name, cache view = some name → name = host.decode view

/-- A call is refused before the engine is called, or the engine is called with the decoded
arguments. -/
theorem objectCall_cases (allocator : Allocator UInt8) (hright : Right host state) (owner : UInt64)
    (method : ByteString) (arguments : Table (GzValue F32 F64)) :
    (∃ status code, Direct.prepare host state.world owner arguments = .error code ∧
        zigError status = some code ∧
        objectCall host allocator state owner method arguments =
          some ((status, .plain .nil), state)) ∨
      ∃ object values cache,
        Direct.prepare host state.world owner arguments = .ok (object, values) ∧
        RightNames host cache ∧
        objectCall host allocator state owner method arguments =
          placeCall host allocator state object method cache values := by
  rw [objectCall, Direct.prepare]
  cases (host.engine state.world).getInstance owner with
  | none => exact .inl ⟨.invalidArgument, _, rfl, rfl, rfl⟩
  | some object =>
    dsimp only
    by_cases hmissing : arguments.missing = true
    · rw [if_pos hmissing, if_pos hmissing]
      exact .inl ⟨.invalidArgument, _, rfl, rfl, rfl⟩
    · rw [if_neg hmissing, if_neg hmissing, callArguments_eq (by simpa using hmissing)]
      cases Direct.decoded (host.engine state.world) arguments.list with
      | none => exact .inl ⟨.typeMismatch, _, rfl, rfl, rfl⟩
      | some values =>
        obtain ⟨hname, hnames⟩ := getCachedName_spec hright state.world method
        refine .inr ⟨object, values, _, rfl, hnames, ?_⟩
        rw [placeCall, ← hname]
        rfl

/-- A signal is refused, or the engine emits it with the decoded arguments. -/
theorem objectEmitSignal_cases (hright : Right host state) (owner : UInt64) (name : ByteString)
    {arguments : Table (GzValue F32 F64)} (hcount : arguments.count.toNat + 1 < 2 ^ 32) :
    ∃ status after, objectEmitSignal host state owner name arguments = some (status, after) ∧
      Right host after ∧
      Direct.step host state.world (.emitSignal owner name arguments hcount) =
        (if status = .ok then .done else .error .emitSignalFailed, after.world) := by
  obtain ⟨hname, hnames⟩ := getCachedName_spec hright state.world name
  rw [objectEmitSignal, Direct.step, Direct.prepare]
  cases (host.engine state.world).getInstance owner with
  | none => exact ⟨.invalidArgument, state, rfl, hright, rfl⟩
  | some object =>
    dsimp only
    by_cases hmissing : arguments.missing = true
    · rw [if_pos hmissing, if_pos hmissing]
      exact ⟨.invalidArgument, state, rfl, hright, rfl⟩
    · rw [if_neg hmissing, if_neg hmissing,
        emitArguments_eq (by simpa using hmissing) hcount]
      cases Direct.decoded (host.engine state.world) arguments.list with
      | none => exact ⟨.typeMismatch, _, rfl, ⟨hnames, hright.bind⟩, rfl⟩
      | some values =>
        have hbind : state.methodBind.getD host.hasEmitSignal = host.hasEmitSignal := by
          cases hmethod : state.methodBind with
          | none => rfl
          | some bind => exact hright.bind bind hmethod
        have hafter : ∀ bind, some host.hasEmitSignal = some bind → bind = host.hasEmitSignal :=
          fun bind h ↦ (Option.some.inj h).symm
        simp only [Option.elim_some, hbind, hname, Direct.emitSignal]
        by_cases hfound : host.hasEmitSignal = true
        · rw [if_neg (by simp [hfound]), if_pos hfound]
          generalize host.emitSignal state.world object (.name (host.decode name) :: values) = reply
          by_cases hok : reply.error = .ok ∧ host.toInt reply.result = 0
          · rw [if_pos hok, decide_eq_true hok]
            exact ⟨.ok, _, rfl, ⟨hnames, hafter⟩, rfl⟩
          · rw [if_neg hok, decide_eq_false hok]
            exact ⟨.scriptError, _, rfl, ⟨hnames, hafter⟩, rfl⟩
        · rw [if_pos (by simpa using hfound), if_neg hfound]
          exact ⟨.methodNotFound, _, rfl, ⟨hnames, hafter⟩, rfl⟩

theorem zigError_refusal {error : CallErrorType} (herror : error ≠ .ok) :
    ∃ code, zigError (refusal error) = some code := by
  cases error with
  | ok => exact absurd rfl herror
  | _ => exact ⟨_, rfl⟩

theorem placed_refines {object : Object} {method : ByteString} {cache : NameCache}
    {values : List (Argument Object F32 F64)} {status : GzStatus} {result : Returned F32 F64}
    {after : State World} (hright : Right host state) (hnames : RightNames host cache)
    (hplaced : placeCall host allocator state object method cache values =
      some ((status, result), after)) :
    Right host after ∧
      Direct.seen (Direct.call host state.world object method values).1 =
        (callAnswer status result).seen after.memory ∧
      (Direct.call host state.world object method values).2 = after.world := by
  rw [placeCall] at hplaced
  rw [Direct.call]
  generalize host.callp state.world object (host.decode method) values = reply at *
  by_cases herror : reply.error = .ok
  · dsimp only at hplaced ⊢
    rw [if_pos herror] at hplaced
    rw [if_pos herror]
    cases hvalue : fromVariant (host.engine reply.world) reply.result true with
    | mk value valid =>
      have hencoded := encodeResult_spec hvalue hplaced
      refine ⟨⟨?_, ?_⟩, ?_, hencoded.world.symm⟩
      · rw [hencoded.names]
        exact hnames
      · rw [hencoded.bind]
        exact hright.bind
      · rw [hencoded.status]
        cases valid with
        | false => rfl
        | true => exact congrArg Seen.value hencoded.read.symm
  · dsimp only at hplaced ⊢
    rw [if_neg herror] at hplaced
    rw [if_neg herror]
    cases hplaced
    obtain ⟨code, hcode⟩ := zigError_refusal herror
    rw [callAnswer, hcode]
    exact ⟨⟨hnames, hright.bind⟩, rfl, rfl⟩

/-- What the script sees of a request, and what it changes, is what a direct call gives. -/
theorem step_refines {answer : Answer F32 F64} {after : State World} (hright : Right host state)
    {request : Request World F32 F64}
    (hstep : step host allocator state request = some (answer, after)) :
    Right host after ∧
      Direct.step host state.world request = (answer.seen after.memory, after.world) := by
  cases request with
  | elsewhere change =>
    cases hstep
    exact ⟨⟨hright.names, hright.bind⟩, rfl⟩
  | clearThreadCaches =>
    cases hstep
    exact ⟨⟨nofun, hright.bind⟩, rfl⟩
  | emitSignal owner name arguments hroom =>
    obtain ⟨status, next, hemit, hnext, hdirect⟩ :=
      objectEmitSignal_cases hright owner name hroom
    rw [step, hemit] at hstep
    cases hstep
    refine ⟨hnext, hdirect.trans ?_⟩
    split <;> rfl
  | call owner method arguments =>
    rw [step] at hstep
    rw [Direct.step]
    obtain ⟨status, code, hprepare, herror, hcall⟩ |
        ⟨object, values, cache, hprepare, hnames, hcall⟩ :=
      objectCall_cases allocator hright owner method arguments
    · rw [hcall] at hstep
      cases hstep
      rw [hprepare, callAnswer, herror]
      exact ⟨hright, rfl⟩
    · rw [hcall] at hstep
      obtain ⟨⟨⟨status, result⟩, next⟩, hplaced, hanswer⟩ := Option.map_eq_some_iff.mp hstep
      cases hanswer
      obtain ⟨hafter, hseen, hworld⟩ := placed_refines hright hnames hplaced
      rw [hprepare]
      exact ⟨hafter, Prod.ext hseen hworld⟩

theorem step_eq_none (hright : Right host state) {request : Request World F32 F64}
    (hnone : step host allocator state request = none) :
    ∃ length, allocator state.memory length = none := by
  cases request with
  | elsewhere change => cases hnone
  | clearThreadCaches => cases hnone
  | emitSignal owner name arguments hroom =>
    obtain ⟨status, after, hemit, -⟩ := objectEmitSignal_cases hright owner name hroom
    rw [step, hemit] at hnone
    cases hnone
  | call owner method arguments =>
    rw [step, Option.map_eq_none_iff] at hnone
    obtain ⟨status, code, -, -, hcall⟩ | ⟨object, values, cache, -, -, hcall⟩ :=
      objectCall_cases allocator hright owner method arguments
    · rw [hcall] at hnone
      cases hnone
    · rw [hcall, placeCall] at hnone
      split at hnone
      · have hlength := encodeResult_eq_none hnone
        exact hlength
      · cases hnone

/-! ### Runs -/

theorem right_initial (world : World) (memory : Memory UInt8) :
    Right host (initial world memory) where
  names view name hname := by cases hname
  bind bind hbind := by cases hbind

/-- A run of the requests stops in front of one for whose result no memory is left. -/
def OutOfMemory (host : Host World Object F32 F64) (allocator : Allocator UInt8)
    (state : State World) (requests : List (Request World F32 F64)) : Prop :=
  ∃ before request rest answers reached, requests = before ++ request :: rest ∧
    run host allocator state before = some (answers, reached) ∧
    ∃ length, allocator reached.memory length = none

theorem outOfMemory_cons {answer : Answer F32 F64} {next : State World}
    {request : Request World F32 F64} {requests : List (Request World F32 F64)}
    (hstep : step host allocator state request = some (answer, next))
    (h : OutOfMemory host allocator next requests) :
    OutOfMemory host allocator state (request :: requests) := by
  obtain ⟨before, stopped, rest, answers, reached, hsplit, hrun, hlength⟩ := h
  have hran : run host allocator state (request :: before) =
      some (answer.seen next.memory :: answers, reached) := by
    rw [run, hstep, Option.bind_some]
    dsimp only
    rw [hrun]
    rfl
  exact ⟨request :: before, stopped, rest, _, reached, by rw [hsplit, List.cons_append], hran,
    hlength⟩

theorem run_refines_of_right (hright : Right host state) (requests : List (Request World F32 F64)) :
    (run host allocator state requests = none → OutOfMemory host allocator state requests) ∧
      ∀ seen after, run host allocator state requests = some (seen, after) →
        Direct.run host state.world requests = (seen, after.world) := by
  induction requests generalizing state with
  | nil =>
    refine ⟨nofun, fun seen after hrun ↦ ?_⟩
    cases hrun
    rfl
  | cons request requests ih =>
    cases hstep : step host allocator state request with
    | none =>
      rw [run, hstep]
      exact ⟨fun _ ↦ ⟨[], request, requests, [], state, rfl, rfl, step_eq_none hright hstep⟩, nofun⟩
    | some answered =>
      obtain ⟨answer, next⟩ := answered
      obtain ⟨hnext, hdirect⟩ := step_refines hright hstep
      obtain ⟨hnone, hsome⟩ := ih hnext
      rw [run, hstep]
      refine ⟨fun h ↦ outOfMemory_cons hstep (hnone (Option.map_eq_none_iff.mp h)),
        fun seen after h ↦ ?_⟩
      obtain ⟨⟨answers, last⟩, hrun, hresult⟩ := Option.map_eq_some_iff.mp h
      cases hresult
      rw [Direct.run, hdirect]
      dsimp only
      rw [hsome answers after hrun]

/-- Whatever a thread calls and emits, in whatever order, and whatever happens in between: the
engine gets the calls, and the scripts the answers, of direct calls, save that a text that a call
returned can no longer be read. A run is cut short only where no memory is left for a text. -/
theorem run_refines_direct (host : Host World Object F32 F64) (allocator : Allocator UInt8)
    (world : World) (memory : Memory UInt8) (requests : List (Request World F32 F64)) :
    (run host allocator (initial world memory) requests = none →
        OutOfMemory host allocator (initial world memory) requests) ∧
      ∀ seen after, run host allocator (initial world memory) requests = some (seen, after) →
        Direct.run host world requests = (seen, after.world) :=
  run_refines_of_right (right_initial world memory) requests

end Gzscript.Abi.DynamicCalls
