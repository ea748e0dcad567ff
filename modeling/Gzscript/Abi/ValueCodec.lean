import Gzscript.Abi.Value

/-!
# The value codec

`fromVariant` encodes an engine value for a script and `toVariant` decodes it. Both are switches
over the twelve supported types that copy components by position. Eleven of them invert each other
on every value. A `Transform3D` is encoded row by row and decoded through the constructor that takes
columns, so it comes back with its basis transposed (`toVariant_fromVariant_transform3d`):
`roundTrips_iff` says that the codec preserves a supported value exactly when it is not a
`Transform3D` with an asymmetric basis, and `quarterTurn_not_preserved` is a rotation it inverts.
-/

set_option autoImplicit false
set_option relaxedAutoImplicit false

namespace Gzscript.Abi.ValueCodec

open Library.Bytes Value

variable {Object F32 F64 : Type} (engine : Engine Object)

/-- The engine value of an ABI value, and whether its tag is one of the enumeration. -/
def toVariant : GzValue F32 F64 → Variant Object F32 F64 × Bool
  | .nil => (.nil, true)
  | .bool boolean => (.bool boolean, true)
  | .int integer => (.int integer, true)
  | .float floating => (.float floating, true)
  | .string view => (.string (engine.ofUtf8 view), true)
  | .vector2 value => (.vector2 ⟨value.x, value.y⟩, true)
  | .object objectId => (.object (engine.getInstance objectId), true)
  | .vector3 value => (.vector3 ⟨value.x, value.y, value.z⟩, true)
  | .color value => (.color ⟨value.r, value.g, value.b, value.a⟩, true)
  | .transform2d value =>
    (.transform2d (.ofNumbers value.x.x value.x.y value.y.x value.y.y value.origin.x
      value.origin.y), true)
  | .transform3d value =>
    (.transform3d
      { basis := .ofColumns
          ⟨(value.basis 0).x, (value.basis 0).y, (value.basis 0).z⟩
          ⟨(value.basis 1).x, (value.basis 1).y, (value.basis 1).z⟩
          ⟨(value.basis 2).x, (value.basis 2).y, (value.basis 2).z⟩
        origin := ⟨value.origin.x, value.origin.y, value.origin.z⟩ }, true)
  | .rect2 value =>
    (.rect2 ⟨⟨value.position.x, value.position.y⟩, ⟨value.size.x, value.size.y⟩⟩, true)
  | .other _ => (.nil, false)

/-- The ABI value of an engine value, and whether its type is supported. A string needs storage that
outlives the call. -/
def fromVariant (value : Variant Object F32 F64) (stringStorage : Bool) :
    GzValue F32 F64 × Bool :=
  match value with
  | .nil => (.nil, true)
  | .bool boolean => (.bool boolean, true)
  | .int integer => (.int integer, true)
  | .float floating => (.float floating, true)
  | .string text => if stringStorage then (.string (engine.utf8 text), true) else (.nil, false)
  | .vector2 vector => (.vector2 ⟨vector.x, vector.y⟩, true)
  | .object object => (.object ((object.map engine.getInstanceId).getD 0), true)
  | .vector3 vector => (.vector3 ⟨vector.x, vector.y, vector.z⟩, true)
  | .color color => (.color ⟨color.r, color.g, color.b, color.a⟩, true)
  | .transform2d transform =>
    (.transform2d ⟨⟨(transform.column 0).x, (transform.column 0).y⟩,
      ⟨(transform.column 1).x, (transform.column 1).y⟩,
      ⟨(transform.column 2).x, (transform.column 2).y⟩⟩, true)
  | .transform3d transform =>
    (.transform3d
      { basis := ![
          ⟨(transform.basis.row 0).x, (transform.basis.row 0).y, (transform.basis.row 0).z⟩,
          ⟨(transform.basis.row 1).x, (transform.basis.row 1).y, (transform.basis.row 1).z⟩,
          ⟨(transform.basis.row 2).x, (transform.basis.row 2).y, (transform.basis.row 2).z⟩]
        origin := ⟨transform.origin.x, transform.origin.y, transform.origin.z⟩ }, true)
  | .rect2 rect =>
    (.rect2 ⟨⟨rect.position.x, rect.position.y⟩, ⟨rect.size.x, rect.size.y⟩⟩, true)
  | .other _ => (.nil, false)

/-- The value is of a type the codec supports; an object is null or live. -/
def Supported : Variant Object F32 F64 → Prop
  | .object (some object) => engine.Live object
  | .other _ => False
  | _ => True

/-- Encoding with string storage is valid, and decoding gives the value back. -/
def RoundTrips (value : Variant Object F32 F64) : Prop :=
  (fromVariant engine value true).2 = true ∧
    toVariant engine (fromVariant engine value true).1 = (value, true)

/-- A `Transform3D` is decoded with its basis transposed. -/
theorem toVariant_fromVariant_transform3d (transform : Transform3D F32) :
    toVariant engine (fromVariant engine
        (.transform3d transform : Variant Object F32 F64) true).1 =
      (.transform3d { transform with basis := transform.basis.transpose }, true) := rfl

/-- Every other supported value round-trips. -/
theorem roundTrips_of_not_transform3d (value : Variant Object F32 F64)
    (hsupported : Supported engine value) (hnot : ∀ transform, value ≠ .transform3d transform) :
    RoundTrips engine value := by
  cases value with
  | string text => exact ⟨rfl, by simp [fromVariant, toVariant, engine.ofUtf8_utf8]⟩
  | object object =>
    cases object with
    | none => exact ⟨rfl, by simp [fromVariant, toVariant, engine.getInstance_zero]⟩
    | some object =>
      have hlive : engine.getInstance (engine.getInstanceId object) = some object := hsupported
      exact ⟨rfl, by simp [fromVariant, toVariant, hlive]⟩
  | transform2d transform =>
    exact ⟨rfl, by simp only [fromVariant, toVariant, Transform2D.ofNumbers_column]⟩
  | transform3d transform => exact absurd rfl (hnot transform)
  | other type => exact absurd hsupported id
  | _ => exact ⟨rfl, rfl⟩

/-- The codec preserves a supported value exactly when it is not a `Transform3D` whose basis
differs from its transpose. -/
theorem roundTrips_iff (value : Variant Object F32 F64) (hsupported : Supported engine value) :
    RoundTrips engine value ↔
      ∀ transform, value = .transform3d transform →
        transform.basis.transpose = transform.basis := by
  constructor
  · rintro ⟨-, hdecoded⟩ transform rfl
    rw [toVariant_fromVariant_transform3d] at hdecoded
    exact congrArg Transform3D.basis (Variant.transform3d.inj (Prod.mk.inj hdecoded).1)
  · intro hsymmetric
    by_cases htransform : ∃ transform, value = .transform3d transform
    · obtain ⟨transform, rfl⟩ := htransform
      refine ⟨rfl, ?_⟩
      rw [toVariant_fromVariant_transform3d, hsymmetric transform rfl]
    · exact roundTrips_of_not_transform3d engine value hsupported fun transform heq ↦
        htransform ⟨transform, heq⟩

/-! ### A rotation -/

/-- An engine without objects, with strings as their UTF-8 bytes. -/
def sampleEngine : Engine Empty where
  getInstance _ := none
  getInstanceId := Empty.elim
  getInstance_zero := rfl
  utf8 text := text.toUTF8.data.toList
  ofUtf8 bytes := (String.fromUTF8? ⟨bytes.toArray⟩).getD ""
  ofUtf8_utf8 text := by
    have hbytes : (⟨text.toUTF8.data.toList.toArray⟩ : ByteArray) = text.toByteArray := by simp
    rw [hbytes, String.fromUTF8?, dif_pos text.isValidUTF8]
    rfl

/-- The rotation by a quarter turn about the third axis. -/
def quarterTurn : Transform3D ℤ where
  basis := ⟨![⟨0, -1, 0⟩, ⟨1, 0, 0⟩, ⟨0, 0, 1⟩]⟩
  origin := ⟨0, 0, 0⟩

/-- The engine passes a script the rotation and reads the inverse rotation back. -/
theorem quarterTurn_not_preserved :
    ¬ RoundTrips sampleEngine (.transform3d quarterTurn : Variant Empty ℤ ℤ) := by
  rintro ⟨-, hdecoded⟩
  rw [toVariant_fromVariant_transform3d] at hdecoded
  have hbasis : quarterTurn.basis.transpose = quarterTurn.basis :=
    congrArg Transform3D.basis (Variant.transform3d.inj (Prod.mk.inj hdecoded).1)
  have hentry : (quarterTurn.basis.transpose.row 0).y = (quarterTurn.basis.row 0).y := by
    rw [hbasis]
  exact absurd hentry (by decide)

/-- A transform that stretches along axes of its own is preserved. -/
theorem roundTrips_iff_symmetric :
    RoundTrips sampleEngine (.transform3d
        ⟨⟨![⟨2, 1, 0⟩, ⟨1, 3, -1⟩, ⟨0, -1, 4⟩]⟩, ⟨4, 5, 6⟩⟩ : Variant Empty ℤ ℤ) := by
  refine (roundTrips_iff sampleEngine (.transform3d _) trivial).mpr ?_
  intro transform htransform
  obtain rfl := Variant.transform3d.inj htransform
  simp [Basis.transpose, Basis.ofColumns]

end Gzscript.Abi.ValueCodec
