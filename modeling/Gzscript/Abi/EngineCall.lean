import Gzscript.Abi.ValueCodec

/-!
# The two ways to call a method of the engine

A generated method passes its arguments in one of two ways. The slow one encodes each as a value of
the ABI, which the engine decodes (`callArgument`). The fast one passes pointers: a vector is
narrowed into an array of the call first, and every other argument is read from where it is
(`ptrcallArgument`).

Both mean the same for every argument that is no `Transform3D`. The memory of a `Transform3D` has
its basis by rows, as the engine has it, while the decoder builds a basis from columns: the two
calls agree exactly when the basis of every `Transform3D` they pass is symmetric
(`calls_agree_iff`). `quarterTurn_calls_differ` is a rotation that arrives inverted by one of them.
-/

set_option autoImplicit false
set_option relaxedAutoImplicit false

namespace Gzscript.Abi.EngineCall

open Value ValueCodec

/-- An argument that a ptrcall may pass. Vectors have double precision in a script. -/
inductive Argument (F32 F64 : Type)
  | bool (value : Bool)
  | int (value : Int64)
  | float (value : F64)
  /-- An enum of the bindings, which is backed by an integer. -/
  | enum (value : Int64)
  | vector2 (value : GzVector2 F64)
  | vector3 (value : GzVector3 F64)
  | color (value : GzColor F32)
  | transform2d (value : GzTransform2D F32)
  | transform3d (value : GzTransform3D F32)
  | rect2 (value : GzRect2 F32)

/-- The types that the engine reads an argument as. -/
inductive ArgumentType
  | bool | int | float | vector2 | vector3 | color | transform2d | transform3d | rect2
  deriving DecidableEq

/-- A scalar in memory. -/
inductive Scalar (F32 F64 : Type)
  | byte (value : Bool)
  | integer (value : Int64)
  | double (value : F64)
  | single (value : F32)

variable {Object F32 F64 : Type}

/-- The type that the engine declares for an argument. An enum is an integer there. -/
def Argument.type : Argument F32 F64 → ArgumentType
  | .bool _ => .bool
  | .int _ => .int
  | .float _ => .float
  | .enum _ => .int
  | .vector2 _ => .vector2
  | .vector3 _ => .vector3
  | .color _ => .color
  | .transform2d _ => .transform2d
  | .transform3d _ => .transform3d
  | .rect2 _ => .rect2

/-- The memory of an argument, as the bindings lay it out. -/
def Argument.memory : Argument F32 F64 → List (Scalar F32 F64)
  | .bool value => [.byte value]
  | .int value => [.integer value]
  | .float value => [.double value]
  | .enum value => [.integer value]
  | .vector2 value => [.double value.x, .double value.y]
  | .vector3 value => [.double value.x, .double value.y, .double value.z]
  | .color value => [.single value.r, .single value.g, .single value.b, .single value.a]
  | .transform2d value =>
    [.single value.x.x, .single value.x.y, .single value.y.x, .single value.y.y,
      .single value.origin.x, .single value.origin.y]
  | .transform3d value =>
    [.single (value.basis 0).x, .single (value.basis 0).y, .single (value.basis 0).z,
      .single (value.basis 1).x, .single (value.basis 1).y, .single (value.basis 1).z,
      .single (value.basis 2).x, .single (value.basis 2).y, .single (value.basis 2).z,
      .single value.origin.x, .single value.origin.y, .single value.origin.z]
  | .rect2 value =>
    [.single value.position.x, .single value.position.y, .single value.size.x,
      .single value.size.y]

/-! ### The fast call -/

/-- A pointer into the arrays of the call, or to an argument. -/
inductive Pointer
  | engineVec (index : ℕ)
  | engineVec3 (index : ℕ)
  | field (index : ℕ)

/-- The arrays of the call. Nothing is in a place before it is written. -/
structure Prepared (F32 : Type) where
  argPtrs : ℕ → Option Pointer
  engineVecs : ℕ → Option (GzVector2 F32)
  engineVec3s : ℕ → Option (GzVector3 F32)

def Prepared.undefined : Prepared F32 := ⟨fun _ ↦ none, fun _ ↦ none, fun _ ↦ none⟩

variable (narrow : F64 → F32)

/-- One pass of the loop of `preparePtrcallArgs`. -/
def prepareArgument (prepared : Prepared F32) (index : ℕ) :
    Argument F32 F64 → Prepared F32
  | .vector2 value =>
    { prepared with
      engineVecs :=
        Function.update prepared.engineVecs index (some ⟨narrow value.x, narrow value.y⟩)
      argPtrs := Function.update prepared.argPtrs index (some (.engineVec index)) }
  | .vector3 value =>
    { prepared with
      engineVec3s := Function.update prepared.engineVec3s index
        (some ⟨narrow value.x, narrow value.y, narrow value.z⟩)
      argPtrs := Function.update prepared.argPtrs index (some (.engineVec3 index)) }
  | _ =>
    { prepared with
      argPtrs := Function.update prepared.argPtrs index (some (.field index)) }

/-- `preparePtrcallArgs` from an argument on. -/
def prepareFrom : List (Argument F32 F64) → ℕ → Prepared F32 → Prepared F32
  | [], _, prepared => prepared
  | argument :: arguments, index, prepared =>
    prepareFrom arguments (index + 1) (prepareArgument narrow prepared index argument)

def preparePtrcallArgs (arguments : List (Argument F32 F64)) : Prepared F32 :=
  prepareFrom narrow arguments 0 .undefined

/-- The memory behind a pointer. -/
def load (arguments : List (Argument F32 F64)) (prepared : Prepared F32) :
    Pointer → Option (List (Scalar F32 F64))
  | .engineVec index =>
    (prepared.engineVecs index).map fun value ↦ [.single value.x, .single value.y]
  | .engineVec3 index =>
    (prepared.engineVec3s index).map fun value ↦
      [.single value.x, .single value.y, .single value.z]
  | .field index => arguments[index]?.map Argument.memory

/-- What the engine reads in memory: a `Transform2D` is three columns, and a `Transform3D` the three
rows of its basis and then the origin. -/
def readArgument : ArgumentType → List (Scalar F32 F64) → Option (Variant Object F32 F64)
  | .bool, [.byte value] => some (.bool value)
  | .int, [.integer value] => some (.int value)
  | .float, [.double value] => some (.float value)
  | .vector2, [.single x, .single y] => some (.vector2 ⟨x, y⟩)
  | .vector3, [.single x, .single y, .single z] => some (.vector3 ⟨x, y, z⟩)
  | .color, [.single r, .single g, .single b, .single a] => some (.color ⟨r, g, b, a⟩)
  | .transform2d, [.single xx, .single xy, .single yx, .single yy, .single ox, .single oy] =>
    some (.transform2d ⟨![⟨xx, xy⟩, ⟨yx, yy⟩, ⟨ox, oy⟩]⟩)
  | .transform3d, [.single xx, .single xy, .single xz, .single yx, .single yy, .single yz,
      .single zx, .single zy, .single zz, .single ox, .single oy, .single oz] =>
    some (.transform3d ⟨⟨![⟨xx, xy, xz⟩, ⟨yx, yy, yz⟩, ⟨zx, zy, zz⟩]⟩, ⟨ox, oy, oz⟩⟩)
  | .rect2, [.single x, .single y, .single width, .single height] =>
    some (.rect2 ⟨⟨x, y⟩, ⟨width, height⟩⟩)
  | _, _ => none

/-- The argument at an index as the engine sees it in a ptrcall. -/
def ptrcallArgument (arguments : List (Argument F32 F64)) (index : ℕ) :
    Option (Variant Object F32 F64) := do
  let argument ← arguments[index]?
  let pointer ← (preparePtrcallArgs narrow arguments).argPtrs index
  let memory ← load arguments (preparePtrcallArgs narrow arguments) pointer
  readArgument argument.type memory

/-! ### The slow call -/

/-- `toValue`. -/
def toValue : Argument F32 F64 → GzValue F32 F64
  | .bool value => .bool value
  | .int value => .int value
  | .float value => .float value
  | .enum value => .int value
  | .vector2 value => .vector2 ⟨narrow value.x, narrow value.y⟩
  | .vector3 value => .vector3 ⟨narrow value.x, narrow value.y, narrow value.z⟩
  | .color value => .color value
  | .transform2d value => .transform2d value
  | .transform3d value => .transform3d value
  | .rect2 value => .rect2 value

/-- `arguments`. -/
def encodeArguments (arguments : List (Argument F32 F64)) : List (GzValue F32 F64) :=
  arguments.map (toValue narrow)

variable (engine : Engine Object)

/-- The argument at an index as `object_call` decodes it. -/
def callArgument (arguments : List (Argument F32 F64)) (index : ℕ) :
    Option (Variant Object F32 F64) := do
  let value ← (encodeArguments narrow arguments)[index]?
  let (decoded, valid) := toVariant engine value
  if valid then some decoded else none

/-! ### What the fast call passes -/

/-- The memory that an argument is passed in: a vector has been narrowed. -/
def passedMemory : Argument F32 F64 → List (Scalar F32 F64)
  | .vector2 value => [.single (narrow value.x), .single (narrow value.y)]
  | .vector3 value => [.single (narrow value.x), .single (narrow value.y), .single (narrow value.z)]
  | argument => argument.memory

/-- The basis of a transform of the ABI, by rows. -/
def basisOf (value : GzTransform3D F32) : Basis F32 where
  row := ![⟨(value.basis 0).x, (value.basis 0).y, (value.basis 0).z⟩,
    ⟨(value.basis 1).x, (value.basis 1).y, (value.basis 1).z⟩,
    ⟨(value.basis 2).x, (value.basis 2).y, (value.basis 2).z⟩]

/-- The value that the engine reads. -/
def passedValue : Argument F32 F64 → Variant Object F32 F64
  | .transform3d value =>
    .transform3d ⟨basisOf value, ⟨value.origin.x, value.origin.y, value.origin.z⟩⟩
  | argument => (toVariant engine (toValue narrow argument)).1

theorem readArgument_passedMemory (argument : Argument F32 F64) :
    readArgument argument.type (passedMemory narrow argument) =
      some (passedValue narrow engine argument) := by
  cases argument <;> rfl

/-- The place at an index is filled for an argument. -/
def Passed (prepared : Prepared F32) (index : ℕ) : Argument F32 F64 → Prop
  | .vector2 value => prepared.argPtrs index = some (.engineVec index) ∧
      prepared.engineVecs index = some ⟨narrow value.x, narrow value.y⟩
  | .vector3 value => prepared.argPtrs index = some (.engineVec3 index) ∧
      prepared.engineVec3s index = some ⟨narrow value.x, narrow value.y, narrow value.z⟩
  | _ => prepared.argPtrs index = some (.field index)

variable {narrow engine}

theorem passed_prepareArgument (prepared : Prepared F32) (index : ℕ) (argument : Argument F32 F64) :
    Passed narrow (prepareArgument narrow prepared index argument) index argument := by
  cases argument with
  | vector2 value => exact ⟨Function.update_self .., Function.update_self ..⟩
  | vector3 value => exact ⟨Function.update_self .., Function.update_self ..⟩
  | _ => exact Function.update_self ..

/-- The arrays hold the same at an index. -/
structure SameAt (index : ℕ) (before after : Prepared F32) : Prop where
  argPtrs : after.argPtrs index = before.argPtrs index
  engineVecs : after.engineVecs index = before.engineVecs index
  engineVec3s : after.engineVec3s index = before.engineVec3s index

theorem Passed.same {prepared after : Prepared F32} {index : ℕ} {argument : Argument F32 F64}
    (h : Passed narrow prepared index argument) (hsame : SameAt index prepared after) :
    Passed narrow after index argument := by
  cases argument with
  | vector2 value => exact ⟨hsame.argPtrs.trans h.1, hsame.engineVecs.trans h.2⟩
  | vector3 value => exact ⟨hsame.argPtrs.trans h.1, hsame.engineVec3s.trans h.2⟩
  | _ => exact hsame.argPtrs.trans h

/-- A pass leaves the other places alone. -/
theorem sameAt_prepareArgument (prepared : Prepared F32) {index other : ℕ} (hother : other ≠ index)
    (argument : Argument F32 F64) :
    SameAt other prepared (prepareArgument narrow prepared index argument) := by
  cases argument with
  | vector2 value => exact ⟨Function.update_of_ne hother .., Function.update_of_ne hother .., rfl⟩
  | vector3 value => exact ⟨Function.update_of_ne hother .., rfl, Function.update_of_ne hother ..⟩
  | _ => exact ⟨Function.update_of_ne hother .., rfl, rfl⟩

theorem sameAt_prepareFrom (arguments : List (Argument F32 F64)) {index other : ℕ}
    (hother : other < index) (prepared : Prepared F32) :
    SameAt other prepared (prepareFrom narrow arguments index prepared) := by
  induction arguments generalizing index prepared with
  | nil => exact ⟨rfl, rfl, rfl⟩
  | cons argument arguments ih =>
    have hpass : SameAt other prepared (prepareArgument narrow prepared index argument) :=
      sameAt_prepareArgument prepared (Nat.ne_of_lt hother) argument
    have hrest := ih (Nat.lt_succ_of_lt hother) (prepareArgument narrow prepared index argument)
    exact ⟨hrest.argPtrs.trans hpass.argPtrs, hrest.engineVecs.trans hpass.engineVecs,
      hrest.engineVec3s.trans hpass.engineVec3s⟩

/-- After the loop the place of every argument is filled. -/
theorem passed_prepareFrom (arguments : List (Argument F32 F64)) (index offset : ℕ)
    (prepared : Prepared F32) {argument : Argument F32 F64}
    (hargument : arguments[offset]? = some argument) :
    Passed narrow (prepareFrom narrow arguments index prepared) (index + offset) argument := by
  induction arguments generalizing index offset prepared with
  | nil => exact absurd hargument (Option.some_ne_none argument).symm
  | cons first arguments ih =>
    rcases offset with _ | offset
    · obtain rfl : first = argument := Option.some.inj hargument
      exact (passed_prepareArgument prepared index first).same
        (sameAt_prepareFrom arguments (Nat.lt_succ_self index) _)
    · rw [List.getElem?_cons_succ] at hargument
      have hpassed := ih (index + 1) offset (prepareArgument narrow prepared index first) hargument
      rwa [Nat.add_assoc, Nat.add_comm 1 offset] at hpassed

/-- A filled place leads to the memory that the argument is passed in. -/
theorem load_of_passed {arguments : List (Argument F32 F64)} {prepared : Prepared F32} {index : ℕ}
    {argument : Argument F32 F64} (hargument : arguments[index]? = some argument)
    (h : Passed narrow prepared index argument) :
    (prepared.argPtrs index).bind (load arguments prepared) =
      some (passedMemory narrow argument) := by
  cases argument with
  | vector2 value =>
    rw [h.1, Option.bind_some, load, h.2]
    rfl
  | vector3 value =>
    rw [h.1, Option.bind_some, load, h.2]
    rfl
  | _ =>
    have hpointer : prepared.argPtrs index = some (.field index) := h
    rw [hpointer, Option.bind_some, load, hargument]
    rfl

variable (narrow engine)

/-- Every argument of a ptrcall is read as the value it passes. -/
theorem ptrcallArgument_eq (arguments : List (Argument F32 F64)) (index : ℕ) :
    ptrcallArgument narrow arguments index =
      arguments[index]?.map (passedValue narrow engine) := by
  unfold ptrcallArgument
  rcases hargument : arguments[index]? with _ | argument
  · rfl
  · have hpassed : Passed narrow (prepareFrom narrow arguments 0 .undefined) (0 + index) argument :=
      passed_prepareFrom arguments 0 index .undefined hargument
    rw [Nat.zero_add] at hpassed
    have hload := load_of_passed hargument hpassed
    obtain ⟨pointer, hpointer, hmemory⟩ := Option.bind_eq_some_iff.mp hload
    show ((preparePtrcallArgs narrow arguments).argPtrs index).bind (fun pointer ↦
      (load arguments (preparePtrcallArgs narrow arguments) pointer).bind fun memory ↦
        readArgument argument.type memory) = some (passedValue narrow engine argument)
    rw [preparePtrcallArgs, hpointer, Option.bind_some, hmemory, Option.bind_some]
    exact readArgument_passedMemory narrow engine argument

/-- Every argument of a slow call is decoded. -/
theorem callArgument_eq (arguments : List (Argument F32 F64)) (index : ℕ) :
    callArgument narrow engine arguments index =
      arguments[index]?.map fun argument ↦ (toVariant engine (toValue narrow argument)).1 := by
  unfold callArgument encodeArguments
  rw [List.getElem?_map]
  rcases arguments[index]? with _ | argument
  · rfl
  · cases argument <;> rfl

/-- The two values of one argument are the same, unless it is a `Transform3D` with an asymmetric
basis. -/
theorem passedValue_eq_iff (argument : Argument F32 F64) :
    passedValue narrow engine argument = (toVariant engine (toValue narrow argument)).1 ↔
      ∀ value, argument = .transform3d value → (basisOf value).transpose = basisOf value := by
  cases argument with
  | transform3d value =>
    have hdecoded : (toVariant engine (toValue narrow (.transform3d value))).1 =
        .transform3d ⟨(basisOf value).transpose,
          ⟨value.origin.x, value.origin.y, value.origin.z⟩⟩ := rfl
    rw [hdecoded]
    constructor
    · intro hsame other hother
      obtain rfl := Argument.transform3d.inj hother
      exact (congrArg Transform3D.basis (Variant.transform3d.inj hsame)).symm
    · intro hsymmetric
      rw [hsymmetric value rfl]
      rfl
  | _ => exact iff_of_true rfl fun _ hother ↦ by cases hother

/-- The two calls pass the same arguments exactly when every `Transform3D` among them has a
symmetric basis. -/
theorem calls_agree_iff (arguments : List (Argument F32 F64)) :
    (∀ index, ptrcallArgument narrow arguments index =
        callArgument narrow engine arguments index) ↔
      ∀ value, .transform3d value ∈ arguments → (basisOf value).transpose = basisOf value := by
  simp only [ptrcallArgument_eq narrow engine, callArgument_eq]
  constructor
  · intro hsame value hvalue
    obtain ⟨index, hindex⟩ := List.mem_iff_getElem?.mp hvalue
    have hargument := hsame index
    rw [hindex] at hargument
    exact (passedValue_eq_iff narrow engine _).mp (Option.some.inj hargument) value rfl
  · intro hsymmetric index
    rcases hargument : arguments[index]? with _ | argument
    · rfl
    · refine congrArg some ((passedValue_eq_iff narrow engine argument).mpr ?_)
      rintro value rfl
      exact hsymmetric value (List.mem_of_getElem? hargument)

/-- A quarter turn about the third axis, as a script has it. -/
def quarterTurnArgument : Argument ℤ ℤ :=
  .transform3d ⟨![⟨0, -1, 0⟩, ⟨1, 0, 0⟩, ⟨0, 0, 1⟩], ⟨0, 0, 0⟩⟩

/-- The engine gets the rotation from one call, and the inverse rotation from the other. -/
theorem quarterTurn_calls_differ :
    ptrcallArgument id [quarterTurnArgument] 0 ≠
      callArgument id sampleEngine [quarterTurnArgument] 0 := by
  rw [ptrcallArgument_eq id sampleEngine, callArgument_eq]
  intro hsame
  have hbasis := (passedValue_eq_iff id sampleEngine quarterTurnArgument).mp (Option.some.inj hsame)
    _ rfl
  have hentry := congrArg (fun basis ↦ (Basis.row basis 0).y) hbasis
  exact absurd hentry (by decide)

end Gzscript.Abi.EngineCall
