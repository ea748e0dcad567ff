import Gzscript.Library.Bytes

/-!
# The UTF-8 bytes of a text

A text is the list of its characters. An ASCII character is one byte, and every byte of another
character is above the ASCII range, so the ASCII characters of a text can be looked for among its
bytes (`mem_utf8Bytes_iff`, `head?_utf8Bytes_iff`).
-/

set_option autoImplicit false
set_option relaxedAutoImplicit false

namespace Gzscript.Library.Utf8

open Library.Bytes

def utf8Bytes (text : List Char) : ByteString := text.flatMap String.utf8EncodeChar

@[simp] theorem utf8Bytes_nil : utf8Bytes [] = [] := rfl

theorem utf8Bytes_cons (c : Char) (text : List Char) :
    utf8Bytes (c :: text) = String.utf8EncodeChar c ++ utf8Bytes text := List.flatMap_cons

theorem utf8EncodeChar_ascii {c : Char} (hascii : c.val ≤ 127) :
    String.utf8EncodeChar c = [c.toUInt8] :=
  String.utf8EncodeChar_eq_singleton (Char.utf8Size_eq_one_iff.mpr hascii)

theorem high_of_or : ∀ n < 256, ∀ mark ∈ [0x80, 0xc0, 0xe0, 0xf0],
    127 < UInt8.ofNat n ||| mark := by
  decide +kernel

/-- Every byte of a character that is not ASCII has its highest bit. -/
theorem high_of_mem {c : Char} (hascii : ¬ c.val ≤ 127) {byte : UInt8}
    (hmem : byte ∈ String.utf8EncodeChar c) : 127 < byte := by
  have hhigh : ∀ (byte : UInt8), ∀ mark ∈ [0x80, 0xc0, 0xe0, 0xf0], 127 < byte ||| mark := by
    intro byte mark hmark
    have h := high_of_or byte.toNat byte.toNat_lt mark hmark
    rwa [UInt8.ofNat_toNat] at h
  rcases c.utf8Size_eq with hone | htwo | hthree | hfour
  · exact absurd (Char.utf8Size_eq_one_iff.mp hone) hascii
  · rw [String.utf8EncodeChar_eq_cons_cons htwo] at hmem
    simp only [List.mem_cons, List.not_mem_nil, or_false] at hmem
    rcases hmem with rfl | rfl <;> exact hhigh _ _ (by decide)
  · rw [String.utf8EncodeChar_eq_cons_cons_cons hthree] at hmem
    simp only [List.mem_cons, List.not_mem_nil, or_false] at hmem
    rcases hmem with rfl | rfl | rfl <;> exact hhigh _ _ (by decide)
  · rw [String.utf8EncodeChar_eq_cons_cons_cons_cons hfour] at hmem
    simp only [List.mem_cons, List.not_mem_nil, or_false] at hmem
    rcases hmem with rfl | rfl | rfl | rfl <;> exact hhigh _ _ (by decide)

theorem toNat_toUInt8 {c : Char} (hascii : c.val ≤ 127) : c.toUInt8.toNat = c.toNat := by
  have hle : c.val.toNat ≤ 127 := hascii
  have hlt : c.val.toNat < 256 := by omega
  rw [Char.toUInt8, UInt32.toNat_toUInt8]
  exact Nat.mod_eq_of_lt hlt

theorem toUInt8_inj {c d : Char} (hc : c.val ≤ 127) (hd : d.val ≤ 127)
    (hequal : c.toUInt8 = d.toUInt8) : c = d := by
  have hvalues := congrArg UInt8.toNat hequal
  rw [toNat_toUInt8 hc, toNat_toUInt8 hd] at hvalues
  exact Char.ext (UInt32.toNat_inj.mp hvalues)

theorem toUInt8_le {c : Char} (hascii : c.val ≤ 127) : ¬ 127 < c.toUInt8 := by
  have hle : c.val.toNat ≤ 127 := hascii
  rw [UInt8.lt_iff_toNat_lt, toNat_toUInt8 hascii]
  exact Nat.not_lt.mpr hle

/-- An ASCII byte is a byte of its own character only. -/
theorem mem_utf8EncodeChar_iff {c d : Char} (hascii : c.val ≤ 127) :
    c.toUInt8 ∈ String.utf8EncodeChar d ↔ d = c := by
  constructor
  · intro hmem
    by_cases hd : d.val ≤ 127
    · rw [utf8EncodeChar_ascii hd] at hmem
      exact toUInt8_inj hd hascii (List.mem_singleton.mp hmem).symm
    · exact absurd (high_of_mem hd hmem) (toUInt8_le hascii)
  · rintro rfl
    rw [utf8EncodeChar_ascii hascii]
    exact List.mem_cons_self

theorem mem_utf8Bytes_iff {c : Char} (hascii : c.val ≤ 127) (text : List Char) :
    c.toUInt8 ∈ utf8Bytes text ↔ c ∈ text := by
  simp [utf8Bytes, List.mem_flatMap, mem_utf8EncodeChar_iff hascii]

theorem head?_utf8Bytes_iff {c : Char} (hascii : c.val ≤ 127) (text : List Char) :
    (utf8Bytes text).head? = some c.toUInt8 ↔ text.head? = some c := by
  cases text with
  | nil => exact iff_of_false (fun h ↦ by cases h) (fun h ↦ by cases h)
  | cons d text =>
    rw [utf8Bytes_cons, List.head?_append_of_ne_nil _ String.utf8EncodeChar_ne_nil,
      List.head?_cons, Option.some.injEq, ← mem_utf8EncodeChar_iff hascii]
    refine ⟨List.mem_of_mem_head?, fun hmem ↦ ?_⟩
    obtain rfl := (mem_utf8EncodeChar_iff hascii).mp hmem
    rw [utf8EncodeChar_ascii hascii]
    rfl

end Gzscript.Library.Utf8
