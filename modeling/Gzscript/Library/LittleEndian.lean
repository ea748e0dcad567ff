import Gzscript.Library.Bytes
import Mathlib.Algebra.GroupWithZero.Nat

/-!
# Little-endian fields

The number that `width` bytes of a string stand for, the first byte the least significant.
`field_add` takes a field apart into two adjacent ones, and `field_eq_of_digits` says which number
the digits of a value make up where they stand one after another.
-/

set_option autoImplicit false
set_option relaxedAutoImplicit false

namespace Gzscript.Library.LittleEndian

open Bytes

/-- The number some bytes stand for. -/
def value : ByteString → ℕ
  | [] => 0
  | byte :: bytes => byte.toNat + 256 * value bytes

/-- The number at an offset. Bytes past the end count as zero. -/
def field (bytes : ByteString) (offset width : ℕ) : ℕ := value ((bytes.drop offset).take width)

theorem value_append (first second : ByteString) :
    value (first ++ second) = value first + 256 ^ first.length * value second := by
  induction first with
  | nil => simp [value]
  | cons byte first ih =>
    rw [List.cons_append, value, value, ih, List.length_cons, Nat.pow_succ', Nat.mul_add,
      ← Nat.mul_assoc, Nat.add_assoc]

theorem value_lt (bytes : ByteString) : value bytes < 256 ^ bytes.length := by
  induction bytes with
  | nil => exact Nat.one_pos
  | cons byte bytes ih =>
    have hbyte := byte.toNat_lt
    rw [value, List.length_cons, Nat.pow_succ']
    omega

theorem field_lt (bytes : ByteString) (offset width : ℕ) :
    field bytes offset width < 256 ^ width := by
  apply Nat.lt_of_lt_of_le (value_lt _)
  exact Nat.pow_le_pow_right (by omega) (List.length_take_le width _)

@[simp] theorem field_zero (bytes : ByteString) (offset : ℕ) : field bytes offset 0 = 0 := by
  rw [field, List.take_zero, value]

/-- A field is its first part and, above it, the rest. -/
theorem field_add {bytes : ByteString} {offset : ℕ} (width more : ℕ)
    (hfits : offset + width ≤ bytes.length) :
    field bytes offset (width + more) =
      field bytes offset width + 256 ^ width * field bytes (offset + width) more := by
  have hlength : ((bytes.drop offset).take width).length = width := by
    rw [List.length_take, List.length_drop]
    omega
  rw [field, List.take_add, value_append, hlength, List.drop_drop, field, field]

theorem field_one {bytes : ByteString} {offset : ℕ} {byte : UInt8}
    (hbyte : bytes[offset]? = some byte) : field bytes offset 1 = byte.toNat := by
  obtain ⟨hlt, rfl⟩ := List.getElem?_eq_some_iff.mp hbyte
  rw [field, List.drop_eq_getElem_cons hlt, List.take_succ_cons, List.take_zero, value, value,
    Nat.mul_zero, Nat.add_zero]

/-- Two adjacent fields put together by a shift and an or. -/
theorem or_shiftLeft_eq_field {bytes : ByteString} {offset low high : ℕ} (width : ℕ) {more : ℕ}
    (hfits : offset + width ≤ bytes.length) (hlow : low = field bytes offset width)
    (hhigh : high = field bytes (offset + width) more) :
    low ||| high <<< (8 * width) = field bytes offset (width + more) := by
  have hlt : low < 2 ^ (8 * width) := by
    rw [Nat.pow_mul, hlow]
    exact field_lt bytes offset width
  rw [Nat.or_comm, ← Nat.shiftLeft_add_eq_or_of_lt hlt, Nat.shiftLeft_eq, Nat.pow_mul,
    field_add width more hfits, ← hlow, ← hhigh, Nat.mul_comm, Nat.add_comm]

/-- The digits of a number, one after another, make it up. -/
theorem field_eq_of_digits {bytes : ByteString} (width : ℕ) {offset number : ℕ}
    (hdigits : ∀ index < width,
      bytes[offset + index]? = some (UInt8.ofNat (number / 256 ^ index))) :
    field bytes offset width = number % 256 ^ width := by
  induction width generalizing offset number with
  | zero => rw [field_zero, Nat.pow_zero, Nat.mod_one]
  | succ width ih =>
    have hfirst := hdigits 0 (Nat.succ_pos width)
    rw [Nat.add_zero, Nat.pow_zero, Nat.div_one] at hfirst
    have hrest : field bytes (offset + 1) width = number / 256 % 256 ^ width := by
      refine ih fun index hindex ↦ ?_
      have h := hdigits (index + 1) (Nat.succ_lt_succ hindex)
      rw [Nat.pow_succ', ← Nat.div_div_eq_div_mul] at h
      rw [Nat.add_assoc, Nat.add_comm 1 index]
      exact h
    have hfits : offset + 1 ≤ bytes.length := (List.getElem?_eq_some_iff.mp hfirst).1
    rw [Nat.add_comm width 1, field_add 1 width hfits, field_one hfirst, hrest, UInt8.toNat_ofNat',
      Nat.pow_add, Nat.pow_one, Nat.mod_mul]

end Gzscript.Library.LittleEndian
