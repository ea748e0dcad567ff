import Gzscript.Bindings.Resolve

/-!
# Classes in the bindings

A generated class is a struct with its enums, a conversion to each root it inherits from, and its
methods. A method that the class declares itself calls the engine, by a method bind where all types
allow it and by name otherwise; one that it inherits is forwarded to the class that declares it.

The text of a struct is left out, except for the names in it and the types, whose text decides how a
method calls the engine.
-/

set_option autoImplicit false
set_option relaxedAutoImplicit false

namespace Gzscript.Bindings.Rendering

open Library.Fallible Api Selection Resolve

/-! ### Names -/

/-- A part of a name after an underscore. -/
def camelPart (part : List Char) : List Char :=
  if part = ['2', 'd'] then ['2', 'D']
  else if part = ['3', 'd'] then ['3', 'D']
  else
    match part with
    | [] => []
    | first :: rest => first.toUpper :: rest

def camelCase (name : String) : String :=
  match name.toList.splitOn '_' with
  | [] => ""
  | first :: parts => String.ofList (first ++ parts.flatMap camelPart)

def zigKeywords : List String :=
  ["addrspace", "align", "allowzero", "and", "anyframe", "anytype", "asm", "async", "await",
    "break", "callconv", "catch", "comptime", "const", "continue", "defer", "else", "enum",
    "errdefer", "error", "export", "extern", "fn", "for", "if", "inline", "linksection", "noalias",
    "noinline", "nosuspend", "opaque", "or", "orelse", "packed", "pub", "resume", "return",
    "struct", "suspend", "switch", "test", "threadlocal", "try", "union", "unreachable",
    "usingnamespace", "var", "volatile", "while"]

/-- A keyword is quoted. -/
def identifier (name : String) : String :=
  if name ∈ zigKeywords then "@\"" ++ name ++ "\"" else name

/-! ### Types -/

/-- A type in the signature of a method. -/
inductive ZigType
  | bool | int | float | vector2 | vector3 | color | transform2d | transform3d | rect2 | bytes
  | enum (reference : EnumReference)
  | object (className : String)
  | optionalObject (className : String)
  deriving DecidableEq

def referenceText (reference : EnumReference) : String :=
  match reference.owner with
  | some owner => owner ++ "." ++ reference.name
  | none => reference.name

def ZigType.text : ZigType → String
  | .bool => "bool"
  | .int => "i64"
  | .float => "f64"
  | .vector2 => "abi.Vector(2, f64)"
  | .vector3 => "abi.Vector(3, f64)"
  | .color => "abi.Color"
  | .transform2d => "abi.Transform2D"
  | .transform3d => "abi.Transform3D"
  | .rect2 => "abi.Rect2"
  | .bytes => "[]const u8"
  | .enum reference => referenceText reference
  | .object className => className
  | .optionalObject className => "?" ++ className

/-- The type of the ABI or of the language that a name of the API stands for. -/
def valueType (name : String) : Option ZigType :=
  if name = "bool" then some .bool
  else if name = "int" then some .int
  else if name = "float" then some .float
  else if name = "Vector2" then some .vector2
  else if name = "Vector3" then some .vector3
  else if name = "Color" then some .color
  else if name = "Transform2D" then some .transform2d
  else if name = "Transform3D" then some .transform3d
  else if name = "Rect2" then some .rect2
  else none

def zigType (collected : Collected) (typeRef : TypeRef) (returning : Bool) : Option ZigType :=
  match valueType typeRef.name with
  | some type => some type
  | none =>
    if !returning ∧ typeRef.name ∈ stringTypes then some .bytes
    else if (enumReference typeRef.name).isSome then
      (collected.enumTypes typeRef.name).map .enum
    else if typeRef.name ∈ collected.generatedNames then
      if typeRef.typeMeta = some "required" then some (.object typeRef.name)
      else some (.optionalObject typeRef.name)
    else none

def methodReturnType (collected : Collected) (method : Method) :
    Except Error (Option ZigType) :=
  match method.returnValue with
  | none => .ok none
  | some returnValue =>
    match zigType collected returnValue true with
    | none => .error .unsupportedReturnType
    | some type => .ok (some type)

/-! ### Calls -/

/-- A text has another in it. -/
def containsText (text part : String) : Bool :=
  text.toList.tails.any fun rest ↦ part.toList.isPrefixOf rest

def isPtrcallSafe (type : Option ZigType) : Bool :=
  match type with
  | none => true
  | some type =>
    !(containsText type.text "Array" || containsText type.text "Dictionary") &&
      (!containsText type.text "[]" && !containsText type.text "?")

def typeUsesPtrcall (collected : Collected) (typeRef : TypeRef) : Bool :=
  if typeRef.name ∈ collected.generatedNames then false
  else
    match typeRef.typeMeta with
    | none => true
    | some typeMeta =>
      if typeRef.name = "int" then typeMeta = "int64"
      else if typeRef.name = "float" then typeMeta = "double"
      else true

def methodUsesPtrcall (collected : Collected) (method : Method) (className : String) :
    Except Error Bool :=
  if className = "" ∨ method.hash = 0 then .ok false
  else if method.returnValue.any fun returnValue ↦ !typeUsesPtrcall collected returnValue then
    .ok false
  else do
    let returnType ← methodReturnType collected method
    if !isPtrcallSafe returnType then return false
    return method.arguments.all fun argument ↦ typeUsesPtrcall collected argument.type &&
      isPtrcallSafe (zigType collected argument.type false)

/-! ### Methods -/

inductive Body
  /-- `support.ptrcallMethod`, or `support.ptrcallMethodVoid`. -/
  | ptrcallMethod (className method : String) (hash : ℤ)
  /-- `support.call`, or `support.callVoid`. -/
  | call (method : String)
  /-- The conversion to a class, and the method of it. -/
  | forward (declaring method : String)
  deriving DecidableEq

structure EmittedMethod where
  name : String
  parameters : List (String × ZigType)
  returnType : Option ZigType
  body : Body
  deriving DecidableEq

def methodId (method : Method) : String := identifier (camelCase method.name)

def renderArgument (collected : Collected) (argument : Argument) :
    Except Error (String × ZigType) :=
  match zigType collected argument.type false with
  | none => .error .unsupportedArgumentType
  | some type => .ok (identifier argument.name, type)

def renderMethod (collected : Collected) (method : Method) (className : String) :
    Except Error EmittedMethod :=
  if method.isVirtual || method.isStatic || method.isVararg then .error .unsupportedMethodKind
  else do
    let parameters ← method.arguments.mapM (renderArgument collected)
    let returnType ← methodReturnType collected method
    let ptrcall ← methodUsesPtrcall collected method className
    return {
      name := methodId method
      parameters := parameters
      returnType := returnType
      body :=
        if ptrcall then .ptrcallMethod className method.name method.hash
        else .call method.name }

def renderForwardedMethod (collected : Collected) (method : Method) (declaring : String) :
    Except Error EmittedMethod := do
  let parameters ← method.arguments.mapM (renderArgument collected)
  let returnType ← methodReturnType collected method
  return {
    name := methodId method
    parameters := parameters
    returnType := returnType
    body := .forward declaring (methodId method) }

/-! ### Structs -/

/-- A generated class. Its conversions are named after the classes they lead to. -/
structure ClassStruct where
  name : String
  enums : List ApiEnum
  upcasts : List String
  methods : List EmittedMethod
  deriving DecidableEq

/-- A method, if the class declares it. -/
def renderOwn (bindings : ResolvedBindings) (className : String) (method : Method) :
    Except Error (List EmittedMethod) := do
  let declaring ← bindings.api.findDeclaringClass method className
  if declaring ≠ className then return []
  let rendered ← renderMethod bindings.collected method className
  return [rendered]

/-- A method, if another class declares it. -/
def renderInherited (bindings : ResolvedBindings) (className : String) (method : Method) :
    Except Error (List EmittedMethod) := do
  let declaring ← bindings.api.findDeclaringClass method className
  if declaring = className then return []
  let rendered ← renderForwardedMethod bindings.collected method declaring
  return [rendered]

def renderResolvedClass (bindings : ResolvedBindings) (className : String) :
    Except Error ClassStruct :=
  if className ∈ bindings.collected.shells then
    .ok ⟨className, bindings.collected.classEnums className, [], []⟩
  else do
    let chain ← bindings.api.inheritanceChain className
    let methods := (bindings.methodsByClass className).getD []
    let own ← methods.mapM (renderOwn bindings className)
    let inherited ← methods.mapM (renderInherited bindings className)
    return {
      name := className
      enums := bindings.collected.classEnums className
      upcasts := (chain.dropLast.filter fun ancestor ↦ ancestor.name ∈ bindings.rootNames).map
        Api.Class.name
      methods := own.flatten ++ inherited.flatten }

end Gzscript.Bindings.Rendering
