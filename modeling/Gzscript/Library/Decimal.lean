import Gzscript.Library.Bytes
import Mathlib.Data.Nat.Digits.Defs

/-!
# Decimal digits in ASCII

The number that a string of decimal digits stands for, leading zeros or not. A reader that takes one
digit after the other and is to refuse a number above a limit can do so without ever exceeding it:
`limit_div_lt_iff` is the test it makes before it multiplies.
-/

set_option autoImplicit false
set_option relaxedAutoImplicit false

namespace Gzscript.Library.Decimal

open Bytes

def IsDigit (byte : UInt8) : Prop := 48 ≤ byte ∧ byte ≤ 57

instance (byte : UInt8) : Decidable (IsDigit byte) :=
  inferInstanceAs (Decidable (48 ≤ byte ∧ byte ≤ 57))

theorem not_isDigit_iff (byte : UInt8) : ¬ IsDigit byte ↔ byte < 48 ∨ 57 < byte := by
  rw [IsDigit, not_and_or, UInt8.not_le, UInt8.not_le]

def digitValue (byte : UInt8) : ℕ := byte.toNat - 48

/-- The number some digits stand for, the most significant one first. -/
def decimalValue (digits : ByteString) : ℕ := Nat.ofDigits 10 (digits.map digitValue).reverse

theorem IsDigit.digitValue_le {byte : UInt8} (h : IsDigit byte) : digitValue byte ≤ 9 := by
  have hle : byte.toNat ≤ 57 := UInt8.le_iff_toNat_le.mp h.2
  rw [digitValue]
  omega

@[simp] theorem decimalValue_nil : decimalValue [] = 0 := rfl

theorem decimalValue_cons (digit : UInt8) (digits : ByteString) :
    decimalValue (digit :: digits) =
      digitValue digit * 10 ^ digits.length + decimalValue digits := by
  rw [decimalValue, List.map_cons, List.reverse_cons, Nat.ofDigits_append, Nat.ofDigits_singleton,
    List.length_reverse, List.length_map, Nat.add_comm, Nat.mul_comm]
  rfl

/-- Whether one more digit exceeds a limit, told by a division. -/
theorem limit_div_lt_iff {limit number digit : ℕ} (hdigit : digit ≤ limit) :
    (limit - digit) / 10 < number ↔ limit < number * 10 + digit := by
  rw [Nat.div_lt_iff_lt_mul (by decide)]
  omega

end Gzscript.Library.Decimal
