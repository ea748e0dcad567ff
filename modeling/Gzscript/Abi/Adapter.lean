import Gzscript.Abi.FieldCodec
import Gzscript.Abi.RawDescriptor

/-!
# The adapter of a script

`ScriptAdapter` reflects a script at compile time: it makes tables of the callbacks, exported
properties, Inspector entries and signals that the script declares, or fails to compile. Exports are
either an ordered tuple of fields and markers or a struct of properties, which are sorted into
categories by an option of each. `compile` is the descriptor with the compile error of a script it
refuses. The tables have the sizes that are counted beforehand (`length_buildProperties`,
`length_buildInspectorEntries`).

What the language itself demands of a script is part of `Script`: the fields of a struct have
distinct names that are not empty.
-/

set_option autoImplicit false
set_option relaxedAutoImplicit false

namespace Gzscript.Abi.Adapter

open Library.Bytes Value Inspector RawDescriptor FieldCodec

variable {F32 F64 : Type}

/-! ### What a script declares -/

inductive PropertyHint
  | none | range | enum | file | multilineText
  deriving DecidableEq

def PropertyHint.value : PropertyHint → UInt32
  | none => 0
  | range => 1
  | enum => 2
  | file => 13
  | multilineText => 18

structure Range (F64 : Type) where
  min : F64
  max : F64
  step : F64

/-- The options of an exported field. -/
structure Property (F64 : Type) where
  category : ByteString := []
  range : Option (Range F64) := none
  hint : PropertyHint := .none
  hintString : ByteString := []

structure Marker where
  name : ByteString
  groupPrefix : ByteString := []

inductive ExportEntry (F64 : Type)
  | field (name : ByteString) (property : Property F64)
  | category (marker : Marker)
  | group (marker : Marker)
  | subgroup (marker : Marker)

/-- The names of the fields of a struct. -/
structure FieldNames (names : List ByteString) : Prop where
  distinct : names.Nodup
  nonempty : ∀ name ∈ names, name ≠ []

/-- `exports`: a tuple of entries, or a struct whose fields are properties. A script without it has
none. -/
inductive Exports (F64 : Type)
  | none
  | ordered (entries : List (ExportEntry F64))
  | struct (fields : List (ByteString × Property F64))
    (names : FieldNames (fields.map Prod.fst))

/-- A field of the script. The ABI does not admit every type, and a default may be missing. -/
structure ScriptField (F32 F64 : Type) where
  name : ByteString
  type : Option (FieldType F32 F64)
  default : ∀ fieldType ∈ type, Option fieldType.Carrier

structure Signal (F32 F64 : Type) where
  name : ByteString
  arguments : List (ByteString × FieldType F32 F64)
  names : FieldNames (arguments.map Prod.fst)

structure Callback where
  godotName : ByteString
  zigName : ByteString

/-- The table of callbacks. -/
def callbacks : List Callback :=
  [⟨ascii "_ready", ascii "ready"⟩, ⟨ascii "_enter_tree", ascii "enterTree"⟩,
    ⟨ascii "_exit_tree", ascii "exitTree"⟩, ⟨ascii "_process", ascii "process"⟩,
    ⟨ascii "_physics_process", ascii "physicsProcess"⟩, ⟨ascii "_input", ascii "input"⟩,
    ⟨ascii "_unhandled_input", ascii "unhandledInput"⟩,
    ⟨ascii "_shortcut_input", ascii "shortcutInput"⟩,
    ⟨ascii "_unhandled_key_input", ascii "unhandledKeyInput"⟩,
    ⟨ascii "_gui_input", ascii "guiInput"⟩, ⟨ascii "_draw", ascii "draw"⟩]

structure Script (F32 F64 : Type) where
  /-- `Base.godot_class`. -/
  godotClass : ByteString
  /-- `@hasDecl` of the script. -/
  declares : ByteString → Bool
  fields : List (ScriptField F32 F64)
  fieldNames : FieldNames (fields.map ScriptField.name)
  exports : Exports F64
  signals : List (Signal F32 F64)
  signalNames : FieldNames (signals.map Signal.name)

/-- What the adapter reports when it refuses to compile a script. -/
abbrev CompileError : Type := ByteString

/-! ### Counts -/

def methodCount (script : Script F32 F64) : ℕ :=
  callbacks.countP fun callback ↦ script.declares callback.zigName

def isField : ExportEntry F64 → Bool
  | .field _ _ => true
  | _ => false

def exportCount : Exports F64 → ℕ
  | .none => 0
  | .ordered entries => entries.countP isField
  | .struct fields _ => fields.length

/-- The loop of `inspectorEntryCount` over a struct. -/
def structEntryCount : ByteString → List (ByteString × Property F64) → ℕ
  | _, [] => 0
  | currentCategory, (_, definition) :: fields =>
    if definition.category ≠ [] ∧ definition.category ≠ currentCategory then
      1 + (1 + structEntryCount definition.category fields)
    else 1 + structEntryCount currentCategory fields

def inspectorEntryCount : Exports F64 → ℕ
  | .none => 0
  | .ordered entries => entries.length
  | .struct fields _ => structEntryCount [] fields

/-! ### Tables -/

def buildMethods (script : Script F32 F64) : List StringView :=
  (callbacks.filter fun callback ↦ script.declares callback.zigName).map
    fun callback ↦ .bytes callback.godotName

variable (zero : F64)

/-- The default of a field. -/
def rawDefault (type : FieldType F32 F64) (value : type.Carrier) : RawValue F32 F64 :=
  match toValue type value with
  | .string data => .string (.bytes data)
  | value => .plain value

/-- The hint of a property does not fit the type of its field. -/
def hintError (name : ByteString) (hint : PropertyHint) (type : FieldType F32 F64) :
    Option CompileError :=
  match hint, type with
  | .file, .string => none
  | .multilineText, .string => none
  | .file, _ => some (ascii "property hint requires a string field: " ++ name)
  | .multilineText, _ => some (ascii "property hint requires a string field: " ++ name)
  | .range, .int _ => none
  | .range, .enum _ => none
  | .range, .float _ => none
  | .range, _ => some (ascii "property range requires a numeric field: " ++ name)
  | .enum, .int _ => none
  | .enum, .enum _ => none
  | .enum, _ => some (ascii "enum property hint requires an enum or integer field: " ++ name)
  | .none, _ => none

def findField (script : Script F32 F64) (name : ByteString) : Option (ScriptField F32 F64) :=
  script.fields.find? fun field ↦ field.name = name

/-- The descriptor of a property, from its field's type and default. -/
def rawProperty (name : ByteString) (options : Property F64) (type : FieldType F32 F64)
    (default : type.Carrier) : RawProperty F32 F64 where
  name := .bytes name
  type := type.valueType
  hint := options.hint.value
  hintString := .bytes options.hintString
  className := .bytes type.objectClassName
  rangeMin := options.range.elim zero Range.min
  rangeMax := options.range.elim zero Range.max
  rangeStep := options.range.elim zero Range.step
  defaultValue := rawDefault type default

def propertyDescriptor (script : Script F32 F64) (name : ByteString) (options : Property F64) :
    Except CompileError (RawProperty F32 F64) :=
  match findField script name with
  | none => .error (ascii "export does not match a script field: " ++ name)
  | some field =>
    match htype : field.type with
    | none => .error (ascii "unsupported ABI value type")
    | some type =>
      match field.default type htype with
      | none => .error (ascii "exported fields require a default value: " ++ name)
      | some default =>
        match hintError name options.hint type with
        | some message => .error message
        | none => .ok (rawProperty zero name options type default)

/-- The loop over a tuple. `previous` are the names of the fields before. -/
def orderedProperties (script : Script F32 F64) :
    List ByteString → List (ExportEntry F64) → Except CompileError (List (RawProperty F32 F64))
  | _, [] => .ok []
  | previous, .field name property :: entries =>
    if previous.any (· = name) then .error (ascii "duplicate exported field: " ++ name)
    else
      match propertyDescriptor zero script name property with
      | .error message => .error message
      | .ok descriptor =>
        match orderedProperties script (name :: previous) entries with
        | .error message => .error message
        | .ok descriptors => .ok (descriptor :: descriptors)
  | previous, _ :: entries => orderedProperties script previous entries

def structProperties (script : Script F32 F64) :
    List (ByteString × Property F64) → Except CompileError (List (RawProperty F32 F64))
  | [] => .ok []
  | (name, property) :: fields =>
    match propertyDescriptor zero script name property with
    | .error message => .error message
    | .ok descriptor =>
      match structProperties script fields with
      | .error message => .error message
      | .ok descriptors => .ok (descriptor :: descriptors)

def buildProperties (script : Script F32 F64) :
    Except CompileError (List (RawProperty F32 F64)) :=
  match script.exports with
  | .none => .ok []
  | .ordered entries => orderedProperties zero script [] entries
  | .struct fields _ => structProperties zero script fields

/-! ### The Inspector -/

/-- The entry of a property. -/
def propertyEntry (propertyIndex : ℕ) : RawInspectorEntry where
  kind := 0
  propertyIndex := .ofNat propertyIndex
  name := .bytes []
  groupPrefix := .bytes []

def inspectorMarker (kind : UInt32) (marker : Marker) : RawInspectorEntry where
  kind := kind
  propertyIndex := 0
  name := .bytes marker.name
  groupPrefix := .bytes marker.groupPrefix

/-- What the loop over a tuple remembers. -/
structure GroupState where
  propertyIndex : ℕ := 0
  inGroup : Bool := false
  activePrefix : ByteString := []

/-- One pass of the loop over a tuple: the entry, and what is remembered after it. -/
def orderedEntry (state : GroupState) : ExportEntry F64 →
    Except CompileError (RawInspectorEntry × GroupState)
  | .field name _ =>
    if state.activePrefix ≠ [] ∧ ¬ state.activePrefix <+: name then
      .error (ascii "exported field does not match active group prefix: " ++ name)
    else
      .ok (propertyEntry state.propertyIndex,
        { state with propertyIndex := state.propertyIndex + 1 })
  | .category marker =>
    .ok (inspectorMarker 1 marker, { state with inGroup := false, activePrefix := [] })
  | .group marker =>
    .ok (inspectorMarker 2 marker,
      { state with inGroup := marker.name ≠ [], activePrefix := marker.groupPrefix })
  | .subgroup marker =>
    if state.inGroup then
      .ok (inspectorMarker 3 marker, { state with activePrefix := marker.groupPrefix })
    else .error (ascii "export subgroup requires an active group: " ++ marker.name)

def orderedEntries : GroupState → List (ExportEntry F64) →
    Except CompileError (List RawInspectorEntry)
  | _, [] => .ok []
  | state, entry :: entries =>
    match orderedEntry state entry with
    | .error message => .error message
    | .ok (built, next) =>
      match orderedEntries next entries with
      | .error message => .error message
      | .ok rest => .ok (built :: rest)

/-- The loop over a struct. -/
def structEntries : ByteString → ℕ → List (ByteString × Property F64) → List RawInspectorEntry
  | _, _, [] => []
  | currentCategory, propertyIndex, (_, definition) :: fields =>
    if definition.category ≠ [] ∧ definition.category ≠ currentCategory then
      inspectorMarker 1 { name := definition.category } :: propertyEntry propertyIndex ::
        structEntries definition.category (propertyIndex + 1) fields
    else propertyEntry propertyIndex :: structEntries currentCategory (propertyIndex + 1) fields

def buildInspectorEntries : Exports F64 → Except CompileError (List RawInspectorEntry)
  | .none => .ok []
  | .ordered entries => orderedEntries {} entries
  | .struct fields _ => .ok (structEntries [] 0 fields)

/-! ### Signals -/

def rawArguments (signal : Signal F32 F64) : List RawSignalArgument :=
  signal.arguments.map fun argument ↦
    { name := .bytes argument.1, type := argument.2.valueType }

/-- A count is stored in 32 bits; a larger one does not compile. -/
def countError : CompileError := ascii "type 'u32' cannot represent integer value"

/-- The arguments of all signals are in one table. -/
def buildSignalArguments : List (Signal F32 F64) → List RawSignalArgument
  | [] => []
  | signal :: signals => rawArguments signal ++ buildSignalArguments signals

/-- The next arguments in the table are those of the next signal. -/
theorem take_signalArguments {signalArguments : List RawSignalArgument} {argumentIndex : ℕ}
    {signal : Signal F32 F64} {signals : List (Signal F32 F64)}
    (h : signalArguments.drop argumentIndex = buildSignalArguments (signal :: signals)) :
    (signalArguments.drop argumentIndex).take signal.arguments.length = rawArguments signal := by
  have hlength : (rawArguments signal).length = signal.arguments.length := List.length_map _
  rw [h, buildSignalArguments, ← hlength, List.take_left]

theorem length_take_signalArguments {signalArguments : List RawSignalArgument}
    {argumentIndex : ℕ} {signal : Signal F32 F64} {signals : List (Signal F32 F64)}
    (h : signalArguments.drop argumentIndex = buildSignalArguments (signal :: signals)) :
    ((signalArguments.drop argumentIndex).take signal.arguments.length).length =
      signal.arguments.length := by
  rw [take_signalArguments h]
  exact List.length_map _

theorem drop_signalArguments {signalArguments : List RawSignalArgument} {argumentIndex : ℕ}
    {signal : Signal F32 F64} {signals : List (Signal F32 F64)}
    (h : signalArguments.drop argumentIndex = buildSignalArguments (signal :: signals)) :
    signalArguments.drop (argumentIndex + signal.arguments.length) =
      buildSignalArguments signals := by
  have hlength : (rawArguments signal).length = signal.arguments.length := List.length_map _
  rw [← List.drop_drop, h, buildSignalArguments, ← hlength, List.drop_left]

/-- The loop of `buildSignals`: the pointer of a signal goes to its part of the table. -/
def signalsFrom (signalArguments : List RawSignalArgument) : (argumentIndex : ℕ) →
    (signals : List (Signal F32 F64)) →
    signalArguments.drop argumentIndex = buildSignalArguments signals →
    Except CompileError (List RawSignal)
  | _, [], _ => .ok []
  | argumentIndex, signal :: signals, hrest =>
    if hfits : signal.arguments.length < 2 ^ 32 then
      match signalsFrom signalArguments (argumentIndex + signal.arguments.length) signals
          (drop_signalArguments hrest) with
      | .error message => .error message
      | .ok rest =>
        .ok
          ({ name := .bytes signal.name
             arguments := .counted signal.arguments.length
              ((signalArguments.drop argumentIndex).take signal.arguments.length)
              (length_take_signalArguments hrest) hfits } :: rest)
    else .error countError

def buildSignals (signals : List (Signal F32 F64)) : Except CompileError (List RawSignal) :=
  signalsFrom (buildSignalArguments signals) 0 signals rfl

/-! ### One step of each loop -/

theorem orderedProperties_field {zero : F64} {script : Script F32 F64}
    {previous : List ByteString} {name : ByteString} {property : Property F64}
    {entries : List (ExportEntry F64)} {properties : List (RawProperty F32 F64)}
    (hbuilt : orderedProperties zero script previous (.field name property :: entries) =
      .ok properties) :
    name ∉ previous ∧ ∃ descriptor rest,
      propertyDescriptor zero script name property = .ok descriptor ∧
      orderedProperties zero script (name :: previous) entries = .ok rest ∧
      properties = descriptor :: rest := by
  simp only [orderedProperties] at hbuilt
  split at hbuilt
  · cases hbuilt
  next hnew =>
    split at hbuilt
    · cases hbuilt
    next hfirst =>
      split at hbuilt
      · cases hbuilt
      next hrest =>
        exact ⟨by simpa using hnew, _, _, hfirst, hrest, (Except.ok.inj hbuilt).symm⟩

theorem structProperties_cons {zero : F64} {script : Script F32 F64} {name : ByteString}
    {property : Property F64} {fields : List (ByteString × Property F64)}
    {properties : List (RawProperty F32 F64)}
    (hbuilt : structProperties zero script ((name, property) :: fields) = .ok properties) :
    ∃ descriptor rest, propertyDescriptor zero script name property = .ok descriptor ∧
      structProperties zero script fields = .ok rest ∧ properties = descriptor :: rest := by
  simp only [structProperties] at hbuilt
  split at hbuilt
  · cases hbuilt
  next hfirst =>
    split at hbuilt
    · cases hbuilt
    next hrest => exact ⟨_, _, hfirst, hrest, (Except.ok.inj hbuilt).symm⟩

theorem orderedEntries_cons {state : GroupState} {entry : ExportEntry F64}
    {entries : List (ExportEntry F64)} {built : List RawInspectorEntry}
    (hbuilt : orderedEntries state (entry :: entries) = .ok built) :
    ∃ first next rest, orderedEntry state entry = .ok (first, next) ∧
      orderedEntries next entries = .ok rest ∧ built = first :: rest := by
  simp only [orderedEntries] at hbuilt
  split at hbuilt
  · cases hbuilt
  next hfirst =>
    split at hbuilt
    · cases hbuilt
    next hrest => exact ⟨_, _, _, hfirst, hrest, (Except.ok.inj hbuilt).symm⟩

/-- A signal that was built has the name and the arguments of the script's. -/
structure SignalBuilt (signal : Signal F32 F64) (rawSignal : RawSignal) : Prop where
  name : rawSignal.name = .bytes signal.name
  arguments : rawSignal.arguments.list = rawArguments signal
  present : rawSignal.arguments.missing = false

theorem signalsFrom_cons {signalArguments : List RawSignalArgument} {argumentIndex : ℕ}
    {signal : Signal F32 F64} {signals : List (Signal F32 F64)}
    (hrest : signalArguments.drop argumentIndex = buildSignalArguments (signal :: signals))
    {built : List RawSignal}
    (hbuilt : signalsFrom signalArguments argumentIndex (signal :: signals) hrest = .ok built) :
    ∃ rawSignal rest, SignalBuilt signal rawSignal ∧ built = rawSignal :: rest ∧
      signalsFrom signalArguments (argumentIndex + signal.arguments.length) signals
        (drop_signalArguments hrest) = .ok rest := by
  rw [signalsFrom] at hbuilt
  split at hbuilt
  next hfits =>
    split at hbuilt
    · cases hbuilt
    next rest hlater =>
      refine ⟨_, rest, ⟨rfl, ?_, ?_⟩, (Except.ok.inj hbuilt).symm, hlater⟩
      · rw [Table.list_counted, take_signalArguments hrest]
      · rw [Table.missing_counted]
  next => cases hbuilt

/-- The signals are built one from each of the script's. -/
theorem forall₂_signalsFrom {signalArguments : List RawSignalArgument}
    {signals : List (Signal F32 F64)} {argumentIndex : ℕ}
    (hrest : signalArguments.drop argumentIndex = buildSignalArguments signals)
    {built : List RawSignal}
    (hbuilt : signalsFrom signalArguments argumentIndex signals hrest = .ok built) :
    List.Forall₂ SignalBuilt signals built := by
  induction signals generalizing argumentIndex built with
  | nil =>
    obtain rfl := Except.ok.inj hbuilt
    exact .nil
  | cons signal signals ih =>
    obtain ⟨rawSignal, rest, hfirst, rfl, hlater⟩ := signalsFrom_cons hrest hbuilt
    exact .cons hfirst (ih _ hlater)

/-! ### The tables have the counted sizes -/

theorem length_buildSignals {signals : List (Signal F32 F64)} {built : List RawSignal}
    (hbuilt : buildSignals signals = .ok built) : built.length = signals.length := by
  exact (forall₂_signalsFrom _ hbuilt).length_eq.symm

theorem length_buildMethods (script : Script F32 F64) :
    (buildMethods script).length = methodCount script := by
  rw [buildMethods, List.length_map, methodCount, List.countP_eq_length_filter]

theorem length_orderedProperties (script : Script F32 F64) {previous : List ByteString}
    {entries : List (ExportEntry F64)} {properties : List (RawProperty F32 F64)}
    (hbuilt : orderedProperties zero script previous entries = .ok properties) :
    properties.length = entries.countP isField := by
  induction entries generalizing previous properties with
  | nil =>
    obtain rfl := Except.ok.inj hbuilt
    rfl
  | cons entry entries ih =>
    cases entry with
    | field name property =>
      obtain ⟨-, descriptor, rest, -, hrest, rfl⟩ := orderedProperties_field hbuilt
      rw [List.length_cons, ih hrest, List.countP_cons_of_pos rfl]
    | category marker =>
      rw [ih hbuilt]
      rfl
    | group marker =>
      rw [ih hbuilt]
      rfl
    | subgroup marker =>
      rw [ih hbuilt]
      rfl

theorem length_structProperties (script : Script F32 F64)
    {fields : List (ByteString × Property F64)} {properties : List (RawProperty F32 F64)}
    (hbuilt : structProperties zero script fields = .ok properties) :
    properties.length = fields.length := by
  induction fields generalizing properties with
  | nil =>
    obtain rfl := Except.ok.inj hbuilt
    rfl
  | cons field fields ih =>
    obtain ⟨descriptor, rest, -, hrest, rfl⟩ := structProperties_cons hbuilt
    rw [List.length_cons, List.length_cons, ih hrest]

theorem length_buildProperties (script : Script F32 F64) {properties : List (RawProperty F32 F64)}
    (hbuilt : buildProperties zero script = .ok properties) :
    properties.length = exportCount script.exports := by
  rw [buildProperties] at hbuilt
  cases hexports : script.exports with
  | none =>
    rw [hexports] at hbuilt
    obtain rfl := Except.ok.inj hbuilt
    rfl
  | ordered entries =>
    rw [hexports] at hbuilt
    exact length_orderedProperties zero script hbuilt
  | struct fields names =>
    rw [hexports] at hbuilt
    exact length_structProperties zero script hbuilt

theorem length_orderedEntries {state : GroupState} {entries : List (ExportEntry F64)}
    {built : List RawInspectorEntry} (hbuilt : orderedEntries state entries = .ok built) :
    built.length = entries.length := by
  induction entries generalizing state built with
  | nil =>
    obtain rfl := Except.ok.inj hbuilt
    rfl
  | cons entry entries ih =>
    obtain ⟨first, next, rest, -, hrest, rfl⟩ := orderedEntries_cons hbuilt
    rw [List.length_cons, List.length_cons, ih hrest]

theorem length_structEntries (currentCategory : ByteString) (propertyIndex : ℕ)
    (fields : List (ByteString × Property F64)) :
    (structEntries currentCategory propertyIndex fields).length =
      structEntryCount currentCategory fields := by
  induction fields generalizing currentCategory propertyIndex with
  | nil => rfl
  | cons field fields ih =>
    simp only [structEntries, structEntryCount]
    split_ifs
    · rw [List.length_cons, List.length_cons, ih]
      omega
    · rw [List.length_cons, ih]
      omega

theorem length_buildInspectorEntries {exports : Exports F64} {built : List RawInspectorEntry}
    (hbuilt : buildInspectorEntries exports = .ok built) :
    built.length = inspectorEntryCount exports := by
  cases exports with
  | none =>
    obtain rfl := Except.ok.inj hbuilt
    rfl
  | ordered entries => exact length_orderedEntries hbuilt
  | struct fields names =>
    obtain rfl := Except.ok.inj hbuilt
    exact length_structEntries [] 0 fields

/-! ### The descriptor -/

/-- The counts fit into 32 bits. -/
def CountsFit (script : Script F32 F64) : Prop :=
  methodCount script < 2 ^ 32 ∧ exportCount script.exports < 2 ^ 32 ∧
    inspectorEntryCount script.exports < 2 ^ 32 ∧ script.signals.length < 2 ^ 32

instance (script : Script F32 F64) : Decidable (CountsFit script) :=
  inferInstanceAs (Decidable (_ ∧ _))

/-- The descriptor of a script, or what is wrong with the script. -/
def compile (script : Script F32 F64) : Except CompileError (RawScriptDescriptor F32 F64) :=
  match hproperties : buildProperties zero script, hentries : buildInspectorEntries script.exports,
      hsignals : buildSignals script.signals with
  | .error message, _, _ => .error message
  | .ok _, .error message, _ => .error message
  | .ok _, .ok _, .error message => .error message
  | .ok properties, .ok inspectorEntries, .ok signals =>
    if hfit : CountsFit script then
      .ok
        { abiVersion := 5
          structSize := 136
          baseClass := .bytes script.godotClass
          methods := .counted _ (buildMethods script) (length_buildMethods script) hfit.1
          properties := .counted _ properties (length_buildProperties zero script hproperties)
            hfit.2.1
          inspectorEntries := .counted _ inspectorEntries (length_buildInspectorEntries hentries)
            hfit.2.2.1
          signals := .counted _ signals (length_buildSignals hsignals) hfit.2.2.2
          createInstance := true
          destroyInstance := true
          callMethod := true
          getProperty := true
          setProperty := true
          notification := true }
    else .error countError

end Gzscript.Abi.Adapter
