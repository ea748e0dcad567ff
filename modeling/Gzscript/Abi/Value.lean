import Gzscript.Library.Bytes
import Mathlib.Algebra.GroupWithZero.Nat
import Mathlib.Data.Fin.VecNotation

/-!
# Engine values and ABI values

The two sides of the value codec. `Variant` is the engine's value with the component types of its
math library; `GzValue` is the tagged union of the C ABI, read through its tag, so that a value is
its tag and the union member the tag selects. The two float types are parameters: components are
copied, never computed with.

What the codec relies on in the engine is collected in `Engine`: the object registry and the two
conversions between a string and its UTF-8 bytes.
-/

set_option autoImplicit false
set_option relaxedAutoImplicit false

namespace Gzscript.Abi.Value

open Library.Bytes

/-- Rows and columns are counted from zero. -/
instance neZeroThree : NeZero 3 := ⟨by decide⟩

/-! ### The math types of the engine -/

structure Vector2 (F : Type) where
  x : F
  y : F
  deriving DecidableEq

structure Vector3 (F : Type) where
  x : F
  y : F
  z : F
  deriving DecidableEq

structure Color (F : Type) where
  r : F
  g : F
  b : F
  a : F
  deriving DecidableEq

/-- Three columns; `Transform2D[i]` is column `i`. -/
structure Transform2D (F : Type) where
  column : Fin 3 → Vector2 F

/-- Three rows; `Basis[i]` is row `i`. -/
structure Basis (F : Type) where
  row : Fin 3 → Vector3 F

structure Transform3D (F : Type) where
  basis : Basis F
  origin : Vector3 F

structure Rect2 (F : Type) where
  position : Vector2 F
  size : Vector2 F
  deriving DecidableEq

variable {F : Type}

/-- The constructor from six numbers, which fills one column after the other. -/
def Transform2D.ofNumbers (xx xy yx yy ox oy : F) : Transform2D F where
  column := ![⟨xx, xy⟩, ⟨yx, yy⟩, ⟨ox, oy⟩]

/-- Six numbers read off the columns give the transform back. -/
theorem Transform2D.ofNumbers_column (transform : Transform2D F) :
    ofNumbers (transform.column 0).x (transform.column 0).y (transform.column 1).x
      (transform.column 1).y (transform.column 2).x (transform.column 2).y = transform := by
  cases transform with
  | mk column =>
    rw [ofNumbers]
    congr 1
    funext i
    match i with
    | 0 => rfl
    | 1 => rfl
    | 2 => rfl

/-- The constructor from three vectors, which takes the columns. -/
def Basis.ofColumns (x y z : Vector3 F) : Basis F where
  row := ![⟨x.x, y.x, z.x⟩, ⟨x.y, y.y, z.y⟩, ⟨x.z, y.z, z.z⟩]

/-- Rows and columns exchanged. -/
def Basis.transpose (basis : Basis F) : Basis F :=
  .ofColumns (basis.row 0) (basis.row 1) (basis.row 2)

/-! ### The math types of the ABI -/

structure GzVector2 (F : Type) where
  x : F
  y : F
  deriving DecidableEq

structure GzVector3 (F : Type) where
  x : F
  y : F
  z : F
  deriving DecidableEq

structure GzColor (F : Type) where
  r : F
  g : F
  b : F
  a : F
  deriving DecidableEq

structure GzTransform2D (F : Type) where
  x : GzVector2 F
  y : GzVector2 F
  origin : GzVector2 F
  deriving DecidableEq

structure GzTransform3D (F : Type) where
  basis : Fin 3 → GzVector3 F
  origin : GzVector3 F

structure GzRect2 (F : Type) where
  position : GzVector2 F
  size : GzVector2 F
  deriving DecidableEq

/-! ### The two unions -/

/-- A value of the engine. `other` stands for the types the codec does not support. -/
inductive Variant (Object F32 F64 : Type)
  | nil
  | bool (value : Bool)
  | int (value : Int64)
  | float (value : F64)
  | string (value : String)
  | vector2 (value : Vector2 F32)
  | object (value : Option Object)
  | vector3 (value : Vector3 F32)
  | color (value : Color F32)
  | transform2d (value : Transform2D F32)
  | transform3d (value : Transform3D F32)
  | rect2 (value : Rect2 F32)
  | other (type : ℕ)

/-- A value of the ABI. `other` is a tag outside the enumeration. -/
inductive GzValue (F32 F64 : Type)
  | nil
  | bool (boolean : Bool)
  | int (integer : Int64)
  | float (floating : F64)
  | string (view : ByteString)
  | vector2 (value : GzVector2 F32)
  | object (objectId : UInt64)
  | vector3 (value : GzVector3 F32)
  | color (value : GzColor F32)
  | transform2d (value : GzTransform2D F32)
  | transform3d (value : GzTransform3D F32)
  | rect2 (value : GzRect2 F32)
  | other (type : UInt32)

/-- What the codec uses of the engine. -/
structure Engine (Object : Type) where
  /-- `ObjectDB::get_instance`: the live object with an identifier. -/
  getInstance : UInt64 → Option Object
  /-- `Object::get_instance_id`. -/
  getInstanceId : Object → UInt64
  /-- No object has the identifier zero. -/
  getInstance_zero : getInstance 0 = none
  /-- `String::utf8` of a string. -/
  utf8 : String → ByteString
  /-- `String::utf8` of a pointer and a length. -/
  ofUtf8 : ByteString → String
  /-- Decoding inverts encoding. -/
  ofUtf8_utf8 : ∀ value, ofUtf8 (utf8 value) = value

/-- The object is registered under its own identifier. -/
def Engine.Live {Object : Type} (engine : Engine Object) (object : Object) : Prop :=
  engine.getInstance (engine.getInstanceId object) = some object

end Gzscript.Abi.Value
