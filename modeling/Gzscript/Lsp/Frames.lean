import Gzscript.Library.FramedStream
import Gzscript.Lsp.Framing

/-!
# The frames of messages

`frame` is what `send` writes for a body: one header line, which announces the length of the body
in decimal digits, an empty line and the body. Whatever follows it, `parse_messages` delivers the
body of a complete frame within the limit, and it waits for the rest of an incomplete one
(`frameCode`).
-/

set_option autoImplicit false
set_option relaxedAutoImplicit false

namespace Gzscript.Lsp.Frames

open Library.Bytes Library.FramedStream Framing

/-- `std::to_string` of a length. -/
def decimal (n : ℕ) : ByteString := (Nat.toDigits 10 n).map Char.toUInt8

/-- The header line of a frame. -/
def frameHeader (length : ℕ) : ByteString := ascii "Content-Length: " ++ decimal length

/-- The frame that `send` writes. -/
def frame (body : ByteString) : ByteString :=
  frameHeader body.length ++ headerTerminator ++ body

/-- A body that is not larger than a message may be. -/
abbrev Body : Type := { body : ByteString // body.length ≤ messageLimit }

/-! ### The digits of a length -/

theorem digitChar_toUInt8 : ∀ digit < 10, (Nat.digitChar digit).toUInt8.toNat = 48 + digit := by
  decide

/-- The last digit of a number is read last. -/
theorem decimal_of_ge {n : ℕ} (hn : 10 ≤ n) :
    decimal n = decimal (n / 10) ++ [(Nat.digitChar (n % 10)).toUInt8] := by
  rw [decimal, Nat.toDigits_of_base_le (by decide) hn, List.map_append]
  rfl

theorem decimal_of_lt {n : ℕ} (hn : n < 10) : decimal n = [(Nat.digitChar n).toUInt8] := by
  rw [decimal, Nat.toDigits_of_lt_base hn]
  rfl

/-- Every digit of a number is a decimal digit. -/
theorem decimal_digits (n : ℕ) :
    ∀ byte ∈ decimal n, ∃ digit < 10, byte = (Nat.digitChar digit).toUInt8 := by
  induction n using Nat.strong_induction_on with
  | _ n ih =>
    intro byte hbyte
    by_cases hn : n < 10
    · rw [decimal_of_lt hn] at hbyte
      exact ⟨n, hn, List.mem_singleton.mp hbyte⟩
    · rw [decimal_of_ge (not_lt.mp hn)] at hbyte
      rcases List.mem_append.mp hbyte with hearlier | hlast
      · exact ih (n / 10) (by omega) byte hearlier
      · exact ⟨n % 10, Nat.mod_lt _ (by decide), List.mem_singleton.mp hlast⟩

theorem decimal_range {n : ℕ} {byte : UInt8} (h : byte ∈ decimal n) :
    48 ≤ byte.toNat ∧ byte.toNat ≤ 57 := by
  obtain ⟨digit, hdigit, rfl⟩ := decimal_digits n byte h
  rw [digitChar_toUInt8 digit hdigit]
  omega

theorem decimal_ne_nil (n : ℕ) : decimal n ≠ [] := by
  rw [decimal, ne_eq, List.map_eq_nil_iff]
  exact Nat.toDigits_ne_nil

/-- A digit is read unless the length before it is too large. -/
theorem lengthDigits_digit {length digit : ℕ} (hdigit : digit < 10)
    (hwithin : length * 10 + digit ≤ messageLimit) (digits : ByteString) :
    lengthDigits length ((Nat.digitChar digit).toUInt8 :: digits) =
      lengthDigits (length * 10 + digit) digits := by
  have hvalue := digitChar_toUInt8 digit hdigit
  have hlow : ¬ (Nat.digitChar digit).toUInt8 < 48 := by
    rw [UInt8.lt_iff_toNat_lt, hvalue]
    exact Nat.not_lt.mpr (Nat.le_add_right 48 digit)
  have hhigh : ¬ 57 < (Nat.digitChar digit).toUInt8 := by
    rw [UInt8.lt_iff_toNat_lt, hvalue]
    change ¬ 57 < 48 + digit
    omega
  have hvalue' : (Nat.digitChar digit).toUInt8.toNat - 48 = digit := by
    rw [hvalue, Nat.add_sub_cancel_left]
  rw [lengthDigits, hvalue', if_neg]
  rintro (hbad | hbad | hbad)
  · exact hlow hbad
  · exact hhigh hbad
  · omega

/-- The digits of a length within the limit are read as that length. -/
theorem lengthDigits_decimal {n : ℕ} (hwithin : n ≤ messageLimit) (digits : ByteString) :
    lengthDigits 0 (decimal n ++ digits) = lengthDigits n digits := by
  induction n using Nat.strong_induction_on generalizing digits with
  | _ n ih =>
    by_cases hn : n < 10
    · rw [decimal_of_lt hn, List.singleton_append, lengthDigits_digit hn (by omega), Nat.zero_mul,
        Nat.zero_add]
    · have hdivide : n / 10 * 10 + n % 10 = n := by omega
      rw [decimal_of_ge (not_lt.mp hn), List.append_assoc, ih (n / 10) (by omega) (by omega),
        List.singleton_append, lengthDigits_digit (Nat.mod_lt _ (by decide)) (by omega), hdivide]

/-! ### The header of a frame -/

theorem not_mem_frameHeader (length : ℕ) : (13 : UInt8) ∉ frameHeader length := by
  rw [frameHeader, List.mem_append, not_or]
  refine ⟨by decide, fun h ↦ ?_⟩
  have hrange := (decimal_range h).1
  change 48 ≤ 13 at hrange
  omega

theorem length_frameHeader (length : ℕ) :
    (frameHeader length).length = 16 + (decimal length).length := by
  rw [frameHeader, List.length_append]
  rfl

/-- The header of a frame is far below the limit of a header. -/
theorem length_frameHeader_le {length : ℕ} (hwithin : length ≤ messageLimit) :
    (frameHeader length).length ≤ 23 := by
  have hdigits : (Nat.toDigits 10 length).length ≤ 7 := by
    rw [Nat.length_toDigits_le_iff (by decide) (by decide)]
    exact hwithin.trans_lt (by decide)
  rw [length_frameHeader, decimal, List.length_map]
  omega

/-- The one line of the header announces the length. -/
theorem headerLine_frameHeader {length : ℕ} (hwithin : length ≤ messageLimit) :
    headerLine (frameHeader length) none = .ok (some length) := by
  have hprefix : contentLengthPrefix.isPrefixOf (frameHeader length) = true := by
    rw [List.isPrefixOf_iff_prefix]
    exact (show contentLengthPrefix <+: ascii "Content-Length: " by decide).trans
      (List.prefix_append _ _)
  have hspaces : ((frameHeader length).drop contentLengthPrefix.length).dropWhile (· == 32) =
      decimal length := by
    change (32 :: decimal length).dropWhile (· == 32) = _
    rw [List.dropWhile_cons_of_pos (by decide)]
    obtain ⟨first, rest, hdigits⟩ := List.exists_cons_of_ne_nil (decimal_ne_nil length)
    have hfirst := (decimal_range (hdigits ▸ List.mem_cons_self)).1
    rw [hdigits, List.dropWhile_cons_of_neg]
    intro hspace
    rw [beq_iff_eq.mp hspace] at hfirst
    change 48 ≤ 32 at hfirst
    omega
  have hread : lengthDigits 0 (decimal length) = .ok length := by
    have h := lengthDigits_decimal hwithin []
    rwa [List.append_nil] at h
  obtain ⟨first, rest, hdigits⟩ := List.exists_cons_of_ne_nil (decimal_ne_nil length)
  rw [hdigits] at hread hspaces
  simp only [headerLine, if_pos hprefix, hspaces, hread]
  rfl

/-- The header of a frame is accepted, whatever follows it. -/
theorem acceptedHeader_frame {length : ℕ} (hwithin : length ≤ messageLimit) (rest : ByteString) :
    AcceptedHeader (frameHeader length ++ headerTerminator ++ rest) (frameHeader length).length
      length := by
  have hlength := length_frameHeader length
  have hshort := length_frameHeader_le hwithin
  have hbytes : frameHeader length ++ headerTerminator ++ rest =
      frameHeader length ++ (headerTerminator ++ rest) := List.append_assoc ..
  have hline : lineEnd (frameHeader length ++ headerTerminator ++ rest)
      (frameHeader length).length 0 = (frameHeader length).length := by
    have hfind : find lineBreak (frameHeader length ++ headerTerminator ++ rest) =
        some (frameHeader length).length := by
      rw [hbytes]
      exact find_append_of_not_mem (not_mem_frameHeader length) _
    rw [lineEnd, List.drop_zero, hfind]
    simp
  refine ⟨?_, hshort.trans (by decide), ?_⟩
  · rw [hbytes]
    exact find_append_of_not_mem (not_mem_frameHeader length) _
  · have hat : lineAt (frameHeader length ++ headerTerminator ++ rest) (frameHeader length).length
        0 = frameHeader length := by
      rw [lineAt, hline, hbytes]
      exact List.take_left
    rw [headerLines_of_lt _ (by omega), hat, headerLine_frameHeader hwithin, hline]
    exact headerLines_of_le _ (Nat.le_add_right _ _) _

/-! ### The frames as a code -/

theorem length_frame (body : ByteString) :
    (frame body).length = (frameHeader body.length).length + 4 + body.length := by
  rw [frame, List.length_append, List.length_append]
  rfl

/-- A complete frame is delivered. -/
theorem parseMessage_frame {body : ByteString} (hwithin : body.length ≤ messageLimit)
    (more : ByteString) : parseMessage (frame body ++ more) = .deliver body more := by
  have hbytes : frame body ++ more =
      frameHeader body.length ++ headerTerminator ++ (body ++ more) := List.append_assoc ..
  have hheader : (frameHeader body.length ++ headerTerminator).length =
      (frameHeader body.length).length + 4 := List.length_append
  have haccepted := acceptedHeader_frame hwithin (body ++ more)
  rw [hbytes, parseMessage_accepted haccepted, ← hheader, if_neg, List.drop_left, List.take_left,
    ← List.drop_drop, List.drop_left, List.drop_left]
  simp only [List.length_append]
  omega

/-- An incomplete frame is waited for. -/
theorem parseMessage_incomplete_frame {body held more : ByteString}
    (hwithin : body.length ≤ messageLimit) (hframe : held ++ more = frame body)
    (hmore : more ≠ []) : parseMessage held = .wait := by
  have hshort := length_frameHeader_le hwithin
  have hlength := length_frame body
  have hpositive := List.length_pos_iff.mpr hmore
  have haccepted : AcceptedHeader (held ++ more) (frameHeader body.length).length body.length := by
    rw [hframe]
    exact acceptedHeader_frame hwithin body
  rw [← hframe, List.length_append] at hlength
  by_cases hfits : (frameHeader body.length).length + 4 ≤ held.length
  · have hheld := (acceptedHeader_append_iff hfits more).mp haccepted
    rw [parseMessage_accepted hheld, if_pos (by omega)]
  · rw [parseMessage_incomplete (header_open_of_short haccepted (not_le.mp hfits)), if_neg]
    rw [headerLimit]
    omega

/-- The frames of bodies within the limit. -/
def frameCode : Code messageDecoder Body where
  word body := frame body.val
  item body := body.val
  complete body more := parseMessage_frame body.property more
  incomplete body _ _ hframe hmore := parseMessage_incomplete_frame body.property hframe hmore

end Gzscript.Lsp.Frames
