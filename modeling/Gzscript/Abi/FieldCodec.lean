import Gzscript.Abi.Inspector
import Mathlib.Algebra.Group.Int.Defs

/-!
# The codec of a script's fields

A script's side of the codec: `toValue` makes an ABI value of what a field of a Zig type holds, and
`fromValue` what the field is set to by an ABI value, if it accepts it. The Zig types that the ABI
admits are `FieldType`, and a field holds an element of `FieldType.Carrier`, so that a field cannot
hold an integer outside its type or a value that its enum has no tag for.

Several Zig types have one ABI type, so a value read from one field need not be accepted by a field
with the same description. `Represents` says which values a field of a type holds unchanged, type by
type, and `fromValue_toValue_iff` that these are exactly the values that come back from it.
-/

set_option autoImplicit false
set_option relaxedAutoImplicit false

namespace Gzscript.Abi.FieldCodec

open Library.Bytes Value Inspector

/-! ### Types -/

inductive IntType
  | i8 | i16 | i32 | i64 | u8 | u16 | u32
  deriving DecidableEq

namespace IntType

def minimum : IntType → ℤ
  | i8 => -2 ^ 7
  | i16 => -2 ^ 15
  | i32 => -2 ^ 31
  | i64 => -2 ^ 63
  | u8 | u16 | u32 => 0

def maximum : IntType → ℤ
  | i8 => 2 ^ 7 - 1
  | i16 => 2 ^ 15 - 1
  | i32 => 2 ^ 31 - 1
  | i64 => 2 ^ 63 - 1
  | u8 => 2 ^ 8 - 1
  | u16 => 2 ^ 16 - 1
  | u32 => 2 ^ 32 - 1

/-- The integer is in the range of the type. -/
def Holds (type : IntType) (value : Int64) : Prop :=
  type.minimum ≤ value.toInt ∧ value.toInt ≤ type.maximum

instance (type : IntType) (value : Int64) : Decidable (type.Holds value) :=
  inferInstanceAs (Decidable (_ ∧ _))

end IntType

/-- An enum. One that is exhaustive has the values of its tags, another one those of its integer
type, which has at most 64 bits. -/
structure EnumType where
  isExhaustive : Bool
  tags : List Int64
  minimum : Int64
  maximum : Int64
  deriving DecidableEq

namespace EnumType

/-- The integer is a value of the enum. -/
def Holds (type : EnumType) (value : Int64) : Prop :=
  if type.isExhaustive then value ∈ type.tags else type.minimum ≤ value ∧ value ≤ type.maximum

instance (type : EnumType) (value : Int64) : Decidable (type.Holds value) := by
  unfold Holds
  infer_instance

end EnumType

/-- A float type of Zig next to one of the ABI: `@floatCast` in both directions. -/
structure FloatFormat (F : Type) where
  Carrier : Type
  read : Carrier → F
  write : F → Carrier

/-- The float type of the ABI itself. -/
def FloatFormat.same (F : Type) : FloatFormat F := ⟨F, id, id⟩

/-- The Zig types that the ABI admits. An object type is a wrapper of a class. -/
inductive FieldType (F32 F64 : Type)
  | bool
  | int (type : IntType)
  | enum (type : EnumType)
  | float (format : FloatFormat F64)
  | string
  | vector2 (x y : FloatFormat F32)
  | vector3 (x y z : FloatFormat F32)
  | color
  | transform2d
  | transform3d
  | rect2
  | object (godotClass : ByteString)
  | optional (godotClass : ByteString)

namespace FieldType

variable {F32 F64 : Type}

/-- What a field of a type holds. An object field holds the identifier of its wrapper's owner. -/
abbrev Carrier : FieldType F32 F64 → Type
  | bool => Bool
  | int type => { value : Int64 // type.Holds value }
  | enum type => { value : Int64 // type.Holds value }
  | float format => format.Carrier
  | string => ByteString
  | vector2 x y => x.Carrier × y.Carrier
  | vector3 x y z => x.Carrier × y.Carrier × z.Carrier
  | color => GzColor F32
  | transform2d => GzTransform2D F32
  | transform3d => GzTransform3D F32
  | rect2 => GzRect2 F32
  | object _ => UInt64
  | optional _ => Option UInt64

/-- `valueType`. -/
def valueType : FieldType F32 F64 → UInt32
  | bool => 1
  | int _ | enum _ => 2
  | float _ => 3
  | string => 4
  | vector2 _ _ => 5
  | object _ | optional _ => 6
  | vector3 _ _ _ => 7
  | color => 8
  | transform2d => 9
  | transform3d => 10
  | rect2 => 11

/-- `objectClassName`. -/
def objectClassName : FieldType F32 F64 → ByteString
  | object godotClass | optional godotClass => godotClass
  | _ => []

end FieldType

variable {F32 F64 : Type}

/-! ### The two directions -/

def toValue : (type : FieldType F32 F64) → type.Carrier → GzValue F32 F64
  | .bool, value => .bool value
  | .int _, value => .int value.1
  | .enum _, value => .int value.1
  | .float format, value => .float (format.read value)
  | .string, value => .string value
  | .vector2 x y, value => .vector2 ⟨x.read value.1, y.read value.2⟩
  | .vector3 x y z, value => .vector3 ⟨x.read value.1, y.read value.2.1, z.read value.2.2⟩
  | .color, value => .color value
  | .transform2d, value => .transform2d value
  | .transform3d, value => .transform3d value
  | .rect2, value => .rect2 value
  | .object _, owner => .object owner
  | .optional _, none => .nil
  | .optional _, some owner => .object owner

/-- An enum that is not exhaustive does not check the value; one outside its integer type is a
safety panic, and then nothing is returned either. -/
def fromValue : (type : FieldType F32 F64) → GzValue F32 F64 → Option type.Carrier
  | .bool, .bool value => some value
  | .int type, .int value => if h : type.Holds value then some ⟨value, h⟩ else none
  | .enum type, .int value => if h : type.Holds value then some ⟨value, h⟩ else none
  | .float format, .float value => some (format.write value)
  | .string, .string value => some value
  | .vector2 x y, .vector2 value => some (x.write value.x, y.write value.y)
  | .vector3 x y z, .vector3 value =>
    some (x.write value.x, y.write value.y, z.write value.z)
  | .color, .color value => some value
  | .transform2d, .transform2d value => some value
  | .transform3d, .transform3d value => some value
  | .rect2, .rect2 value => some value
  | .object _, .object objectId => if objectId = 0 then none else some objectId
  | .optional _, .nil => some none
  | .optional _, .object objectId => some (if objectId = 0 then none else some objectId)
  | _, _ => none

/-- Every encoded value has the type of the field, except that null has its own type. -/
theorem gzValueType_toValue (type : FieldType F32 F64) (value : type.Carrier) :
    gzValueType (toValue type value) = type.valueType ∨
      ∃ godotClass, type = .optional godotClass ∧ toValue type value = .nil := by
  cases type with
  | optional godotClass =>
    cases value with
    | none => exact Or.inr ⟨godotClass, rfl, rfl⟩
    | some owner => exact Or.inl rfl
  | _ => exact Or.inl rfl

/-! ### Which values a field holds unchanged -/

/-- A field of the type holds the value unchanged: an integer is in the range of the type or has a
tag, the numbers have the precision of the type's floats, and an object field that is not optional
holds an object. A null object is the value nil for an optional field. -/
def Represents : FieldType F32 F64 → GzValue F32 F64 → Prop
  | .bool, .bool _ => True
  | .int type, .int value => type.Holds value
  | .enum type, .int value => type.Holds value
  | .float format, .float value => format.read (format.write value) = value
  | .string, .string _ => True
  | .vector2 x y, .vector2 value =>
    x.read (x.write value.x) = value.x ∧ y.read (y.write value.y) = value.y
  | .vector3 x y z, .vector3 value =>
    x.read (x.write value.x) = value.x ∧ y.read (y.write value.y) = value.y ∧
      z.read (z.write value.z) = value.z
  | .color, .color _ => True
  | .transform2d, .transform2d _ => True
  | .transform3d, .transform3d _ => True
  | .rect2, .rect2 _ => True
  | .object _, .object objectId => objectId ≠ 0
  | .optional _, .nil => True
  | .optional _, .object objectId => objectId ≠ 0
  | _, _ => False

/-- A field accepts a value and gives it back exactly if it holds it unchanged. -/
theorem fromValue_toValue_iff (type : FieldType F32 F64) (value : GzValue F32 F64) :
    (fromValue type value).map (toValue type) = some value ↔ Represents type value := by
  cases type <;> cases value <;>
    simp only [fromValue, Represents, Option.map_some, Option.map_none, toValue, reduceCtorEq,
      Option.some.injEq, GzValue.float.injEq]
  case int.int type value =>
    by_cases h : type.Holds value
    · simp only [h, dif_pos, Option.map_some, toValue]
    · simp only [h, dif_neg, Option.map_none, reduceCtorEq, not_false_eq_true]
  case enum.int type value =>
    by_cases h : type.Holds value
    · simp only [h, dif_pos, Option.map_some, toValue]
    · simp only [h, dif_neg, Option.map_none, reduceCtorEq, not_false_eq_true]
  case vector2.vector2 x y value =>
    cases value
    simp only [GzValue.vector2.injEq, GzVector2.mk.injEq]
  case vector3.vector3 x y z value =>
    cases value
    simp only [GzValue.vector3.injEq, GzVector3.mk.injEq]
  case object.object godotClass objectId =>
    by_cases h : objectId = 0 <;> simp [h, toValue, -Option.map_eq_some_iff]
  case optional.object godotClass objectId =>
    by_cases h : objectId = 0 <;> simp [h]

end Gzscript.Abi.FieldCodec
