import Gzscript.Abi.FieldCodec

/-!
# What decoding an ABI value leads to

`FieldCodec.fromValue` says which value a script reads. Where it reads none, the codec has returned
an error, or it has reached a cast that the integer does not fit, which is no longer an outcome that
a script can handle. `decode` tells these apart, and reads the same values (`result?_decode`).

An integer is cast only after its range is checked, and for an enum with all of its tags declared
only after a tag is found. An enum that is open to further tags is cast to at once. So decoding
meets its contract for every type and every value but an integer outside the tag type of an open
enum (`codecContract_iff`), and there it ends in the cast (`openEnum_illegalCast`).
-/

set_option autoImplicit false
set_option relaxedAutoImplicit false

namespace Gzscript.Abi.CodecOutcomes

open Library.Bytes Value Inspector FieldCodec

inductive CodecError
  | typeMismatch | nullObject | invalidEnumValue | integerOverflow
  deriving DecidableEq

/-- A value, an error, or a cast that is illegal. -/
inductive Outcome (α : Type)
  | value (result : α)
  | error (code : CodecError)
  | illegalCast
  deriving DecidableEq

namespace Outcome

def map {α β : Type} (function : α → β) : Outcome α → Outcome β
  | value result => value (function result)
  | error code => error code
  | illegalCast => illegalCast

/-- The value, if there is one. -/
def result? {α : Type} : Outcome α → Option α
  | value result => some result
  | _ => none

end Outcome

/-! ### Decoding -/

/-- `@enumFromInt`. -/
def enumFromInt (type : EnumType) (value : Int64) :
    Outcome { value : Int64 // type.Holds value } :=
  if hholds : type.Holds value then .value ⟨value, hholds⟩ else .illegalCast

def enumFromInteger (type : EnumType) (value : Int64) :
    Outcome { value : Int64 // type.Holds value } :=
  if ¬ type.isExhaustive then enumFromInt type value
  else if type.tags.any (· = value) then enumFromInt type value
  else .error .invalidEnumValue

/-- `std.math.cast`, with the error for an integer that is out of range. -/
def intFromInteger (type : IntType) (value : Int64) :
    Outcome { value : Int64 // type.Holds value } :=
  if hholds : type.Holds value then .value ⟨value, hholds⟩ else .error .integerOverflow

variable {F32 F64 : Type}

/-- The value is nil or an object without an identifier. -/
def isNull : GzValue F32 F64 → Bool
  | .nil => true
  | .object objectId => objectId = 0
  | _ => false

/-- `fromValue` for a type that is not optional. -/
def decodePlain : (type : FieldType F32 F64) → GzValue F32 F64 → Outcome type.Carrier
  | .bool, .bool value => .value value
  | .int type, .int value => intFromInteger type value
  | .enum type, .int value => enumFromInteger type value
  | .float format, .float value => .value (format.write value)
  | .string, .string value => .value value
  | .vector2 x y, .vector2 value => .value (x.write value.x, y.write value.y)
  | .vector3 x y z, .vector3 value =>
    .value (x.write value.x, y.write value.y, z.write value.z)
  | .color, .color value => .value value
  | .transform2d, .transform2d value => .value value
  | .transform3d, .transform3d value => .value value
  | .rect2, .rect2 value => .value value
  | .object _, .object objectId => if objectId = 0 then .error .nullObject else .value objectId
  | _, _ => .error .typeMismatch

def decode : (type : FieldType F32 F64) → GzValue F32 F64 → Outcome type.Carrier
  | .optional godotClass, value =>
    if isNull value then .value none
    else (decodePlain (.object godotClass : FieldType F32 F64) value).map some
  | type, value => decodePlain type value

theorem enumFromInt_of_holds {type : EnumType} {value : Int64} (hholds : type.Holds value) :
    enumFromInt type value = .value ⟨value, hholds⟩ := dif_pos hholds

/-- The cast of an enum is legal where a tag is found, and else the enum is an open one. -/
theorem enumFromInteger_of_not_holds {type : EnumType} {value : Int64}
    (hholds : ¬ type.Holds value) :
    enumFromInteger type value =
      if type.isExhaustive then .error .invalidEnumValue else .illegalCast := by
  unfold enumFromInteger
  by_cases hexhaustive : type.isExhaustive = true
  · have htag : ¬ type.tags.any (· = value) = true := by
      simpa [EnumType.Holds, hexhaustive] using hholds
    rw [if_neg (not_not_intro hexhaustive), if_neg htag, if_pos hexhaustive]
  · rw [if_pos hexhaustive, if_neg hexhaustive]
    exact dif_neg hholds

theorem enumFromInteger_of_holds {type : EnumType} {value : Int64}
    (hholds : type.Holds value) :
    enumFromInteger type value = .value ⟨value, hholds⟩ := by
  unfold enumFromInteger
  by_cases hexhaustive : type.isExhaustive = true
  · have htag : type.tags.any (· = value) = true := by
      simpa [EnumType.Holds, hexhaustive] using hholds
    rw [if_neg (not_not_intro hexhaustive), if_pos htag, enumFromInt_of_holds hholds]
  · rw [if_pos hexhaustive, enumFromInt_of_holds hholds]

theorem result?_decodePlain (type : FieldType F32 F64) (value : GzValue F32 F64)
    (hplain : ∀ godotClass, type ≠ .optional godotClass) :
    (decodePlain type value).result? = fromValue type value := by
  cases type with
  | optional godotClass => exact absurd rfl (hplain godotClass)
  | int type =>
    cases value with
    | int value =>
      by_cases hholds : type.Holds value <;>
        simp [decodePlain, intFromInteger, fromValue, hholds, Outcome.result?]
    | _ => rfl
  | enum type =>
    cases value with
    | int value =>
      by_cases hholds : type.Holds value
      · simp [decodePlain, enumFromInteger_of_holds hholds, fromValue, hholds, Outcome.result?]
      · simp only [decodePlain, enumFromInteger_of_not_holds hholds, fromValue, dif_neg hholds]
        split_ifs <;> rfl
    | _ => rfl
  | object godotClass =>
    cases value with
    | object objectId =>
      simp only [decodePlain, fromValue]
      split_ifs <;> rfl
    | _ => rfl
  | _ => cases value <;> rfl

/-- The values that a script reads are those of `FieldCodec.fromValue`. -/
theorem result?_decode (type : FieldType F32 F64) (value : GzValue F32 F64) :
    (decode type value).result? = fromValue type value := by
  cases type with
  | optional godotClass =>
    cases value with
    | nil => rfl
    | object objectId =>
      by_cases hzero : objectId = 0 <;>
        simp [decode, decodePlain, isNull, fromValue, hzero, Outcome.result?, Outcome.map]
    | _ => rfl
  | _ =>
    refine result?_decodePlain _ value fun godotClass hoptional ↦ ?_
    cases hoptional

/-! ### The contract -/

/-- The types of the contract: booleans, integers, enums, strings and objects. -/
def Contracted : FieldType F32 F64 → Prop
  | .bool | .int _ | .enum _ | .string | .object _ | .optional _ => True
  | _ => False

/-- The tag of the value fits the type, and its payload is a value of the type. -/
def Representable : FieldType F32 F64 → GzValue F32 F64 → Prop
  | .bool, .bool _ => True
  | .int type, .int value => type.minimum ≤ value.toInt ∧ value.toInt ≤ type.maximum
  | .enum type, .int value =>
    if type.isExhaustive then value ∈ type.tags else type.minimum ≤ value ∧ value ≤ type.maximum
  | .string, .string _ => True
  | .object _, .object objectId => objectId ≠ 0
  | .optional _, .nil => True
  | .optional _, .object _ => True
  | _, _ => False

/-- The owner of an object is not zero. -/
def OwnerNonzero : (type : FieldType F32 F64) → type.Carrier → Prop
  | .object _, owner => owner ≠ 0
  | .optional _, owner => owner ≠ some 0
  | _, _ => True

/-- The contract of decoding for a type and a value. -/
structure CodecContract (type : FieldType F32 F64) (value : GzValue F32 F64) : Prop where
  legal : decode type value ≠ .illegalCast
  representable : ∀ result, decode type value = .value result → Representable type value
  inverse : ∀ held : type.Carrier, OwnerNonzero type held →
    decode type (toValue type held) = .value held

/-- The type is an enum open to further tags, and the value an integer outside its tag type. -/
def OutsideOpenEnum : FieldType F32 F64 → GzValue F32 F64 → Prop
  | .enum type, .int value =>
    ¬ type.isExhaustive ∧ ¬ (type.minimum ≤ value ∧ value ≤ type.maximum)
  | _, _ => False

theorem decodePlain_object_ne_illegalCast (godotClass : ByteString) (value : GzValue F32 F64) :
    decodePlain (.object godotClass) value ≠ .illegalCast := by
  intro hillegal
  cases value with
  | object objectId =>
    rw [decodePlain] at hillegal
    split_ifs at hillegal
  | _ => cases hillegal

theorem decode_eq_illegalCast_iff (type : FieldType F32 F64) (value : GzValue F32 F64) :
    decode type value = .illegalCast ↔ OutsideOpenEnum type value := by
  cases type with
  | enum type =>
    cases value with
    | int value =>
      change enumFromInteger type value = .illegalCast ↔
        ¬ type.isExhaustive ∧ ¬ (type.minimum ≤ value ∧ value ≤ type.maximum)
      by_cases hholds : type.Holds value
      · rw [enumFromInteger_of_holds hholds]
        refine iff_of_false (fun hvalue ↦ by cases hvalue) fun ⟨hopen, houtside⟩ ↦ houtside ?_
        rwa [EnumType.Holds, if_neg hopen] at hholds
      · rw [enumFromInteger_of_not_holds hholds]
        by_cases hexhaustive : type.isExhaustive = true
        · rw [if_pos hexhaustive]
          exact iff_of_false (fun herror ↦ by cases herror) fun ⟨hopen, _⟩ ↦ hopen hexhaustive
        · rw [if_neg hexhaustive]
          refine iff_of_true rfl ⟨hexhaustive, ?_⟩
          rwa [EnumType.Holds, if_neg hexhaustive] at hholds
    | _ => exact iff_of_false (fun herror ↦ by cases herror) id
  | int type =>
    cases value with
    | int value =>
      refine iff_of_false ?_ id
      change intFromInteger type value ≠ .illegalCast
      unfold intFromInteger
      split_ifs <;> exact fun h ↦ by cases h
    | _ => exact iff_of_false (fun herror ↦ by cases herror) id
  | object godotClass =>
    exact iff_of_false (decodePlain_object_ne_illegalCast godotClass value) id
  | optional godotClass =>
    refine iff_of_false ?_ id
    have hchild := decodePlain_object_ne_illegalCast godotClass value
    rw [decode]
    split_ifs
    · exact fun hvalue ↦ by cases hvalue
    · cases houtcome : decodePlain (.object godotClass : FieldType F32 F64) value with
      | illegalCast => exact absurd houtcome hchild
      | value owner => exact fun hvalue ↦ by cases hvalue
      | error code => exact fun herror ↦ by cases herror
  | _ => cases value <;> exact iff_of_false (fun hvalue ↦ by cases hvalue) id

theorem holds_of_isSome {holds : Int64 → Prop} [DecidablePred holds] {value : Int64}
    (hresult : (if hholds : holds value then some (⟨value, hholds⟩ : { value // holds value })
      else none).isSome) : holds value := by
  by_contra hnot
  rw [dif_neg hnot] at hresult
  exact Bool.false_ne_true hresult

theorem representable_of_fromValue {type : FieldType F32 F64} {value : GzValue F32 F64}
    (hcontracted : Contracted type) (hresult : (fromValue type value).isSome) :
    Representable type value := by
  cases type with
  | int type =>
    cases value with
    | int value => exact holds_of_isSome hresult
    | _ => exact absurd hresult Bool.false_ne_true
  | enum type =>
    cases value with
    | int value => exact holds_of_isSome hresult
    | _ => exact absurd hresult Bool.false_ne_true
  | object godotClass =>
    cases value with
    | object objectId =>
      rintro rfl
      exact Bool.false_ne_true hresult
    | _ => exact absurd hresult Bool.false_ne_true
  | bool | string | optional =>
    cases value <;> first | exact trivial | exact absurd hresult Bool.false_ne_true
  | _ => exact hcontracted.elim

theorem decode_toValue {type : FieldType F32 F64} (hcontracted : Contracted type)
    {held : type.Carrier} (howner : OwnerNonzero type held) :
    decode type (toValue type held) = .value held := by
  cases type with
  | bool => rfl
  | string => rfl
  | int type => exact dif_pos held.2
  | enum type => exact enumFromInteger_of_holds held.2
  | object godotClass => exact if_neg howner
  | optional godotClass =>
    cases held with
    | none => rfl
    | some owner =>
      have hnonzero : owner ≠ 0 := fun hzero ↦ howner (congrArg some hzero)
      simp [toValue, decode, isNull, decodePlain, hnonzero, Outcome.map]
  | _ => exact hcontracted.elim

/-- Decoding meets its contract for a type and a value exactly if the value is no integer outside
the tag type of an enum that is open to further tags. -/
theorem codecContract_iff (type : FieldType F32 F64) (value : GzValue F32 F64)
    (hcontracted : Contracted type) :
    CodecContract type value ↔ ¬ OutsideOpenEnum type value := by
  rw [← decode_eq_illegalCast_iff]
  refine ⟨CodecContract.legal, fun hlegal ↦ ⟨hlegal, fun result hresult ↦ ?_,
    fun held howner ↦ decode_toValue hcontracted howner⟩⟩
  refine representable_of_fromValue hcontracted ?_
  rw [← result?_decode, hresult]
  rfl

/-- An enum over `u8` with one named tag. -/
def openEnum : EnumType where
  isExhaustive := false
  tags := [0]
  minimum := 0
  maximum := 255

theorem codecContract_iff_openEnum :
    CodecContract (.enum openEnum : FieldType Empty Empty) (.int 200) := by
  refine (codecContract_iff (.enum openEnum) (.int 200) trivial).mpr fun houtside ↦ ?_
  exact houtside.2 (by decide)

theorem openEnum_illegalCast :
    decode (.enum openEnum : FieldType Empty Empty) (.int 300) = .illegalCast ∧
      ¬ CodecContract (.enum openEnum : FieldType Empty Empty) (.int 300) := by
  have hillegal : decode (.enum openEnum : FieldType Empty Empty) (.int 300) = .illegalCast := by
    decide
  exact ⟨hillegal, fun hcontract ↦ hcontract.legal hillegal⟩

end Gzscript.Abi.CodecOutcomes
