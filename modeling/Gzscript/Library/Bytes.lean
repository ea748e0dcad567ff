import Mathlib.Data.List.Lex
import Mathlib.Order.Lex
import Mathlib.Data.Nat.Basic

/-!
# Byte strings

A byte string is a list of bytes, with the comparison of C++ `std::string`: lexicographic, bytes
compared as unsigned numbers. `less_iff` identifies it with the lexicographic order on the lists of
the bytes' values, which is a linear order.
-/

set_option autoImplicit false
set_option relaxedAutoImplicit false

namespace Gzscript.Library.Bytes

/-- A string of bytes, with no assumption on its encoding. -/
abbrev ByteString := List UInt8

/-- The bytes of a text of ASCII characters. -/
def ascii (text : String) : ByteString := text.toList.map Char.toUInt8

/-- The order of `std::string`: the first differing byte decides, and a proper prefix is less. -/
def less : ByteString → ByteString → Bool
  | [], [] => false
  | [], _ :: _ => true
  | _ :: _, [] => false
  | first :: firsts, second :: seconds =>
    if first = second then less firsts seconds else decide (first < second)

/-- The values of the bytes, on which the lexicographic order is linear. -/
def rank (bytes : ByteString) : List ℕ := bytes.map UInt8.toNat

theorem rank_injective : Function.Injective rank :=
  List.map_injective_iff.mpr fun _ _ ↦ UInt8.toNat_inj.mp

theorem less_iff (first second : ByteString) :
    less first second = true ↔ rank first < rank second := by
  induction first generalizing second with
  | nil => cases second <;> simp [less, rank]
  | cons head tail ih =>
    cases second with
    | nil => simp [less, rank]
    | cons head' tail' =>
      by_cases heq : head = head'
      · subst heq
        simp [less, rank, ih]
      · have hne : head.toNat ≠ head'.toNat := fun h ↦ heq (UInt8.toNat_inj.mp h)
        simp [less, rank, heq, hne, List.cons_lt_cons_iff, UInt8.lt_iff_toNat_lt]

/-- `std::string::find`: the position of the first occurrence of `needle`. -/
def find (needle : ByteString) : ByteString → Option ℕ
  | [] => if needle.isPrefixOf [] then some 0 else none
  | byte :: bytes =>
    if needle.isPrefixOf (byte :: bytes) then some 0 else (find needle bytes).map (· + 1)

/-! ### Searching -/

/-- What follows the last byte of an occurrence does not matter to a search. -/
theorem find_append_iff {needle bytes : ByteString} {position : ℕ}
    (hfits : position + needle.length ≤ bytes.length) (more : ByteString) :
    find needle (bytes ++ more) = some position ↔ find needle bytes = some position := by
  induction bytes generalizing position with
  | nil =>
    rw [List.length_nil] at hfits
    obtain rfl : needle = [] := List.eq_nil_of_length_eq_zero (by omega)
    cases more <;> simp [find]
  | cons byte bytes ih =>
    have hprefix : needle.isPrefixOf (byte :: (bytes ++ more)) =
        needle.isPrefixOf (byte :: bytes) := by
      rw [Bool.eq_iff_iff, List.isPrefixOf_iff_prefix, List.isPrefixOf_iff_prefix,
        ← List.cons_append]
      refine ⟨fun h ↦ ?_, fun h ↦ h.trans (List.prefix_append _ _)⟩
      exact List.prefix_of_prefix_length_le h (List.prefix_append _ _) (by omega)
    rw [List.cons_append, find, find, hprefix]
    split
    · rfl
    · cases position with
      | zero => simp
      | succ position =>
        simp only [List.length_cons] at hfits
        simp only [Option.map_eq_some_iff, Nat.add_right_cancel_iff, exists_eq_right]
        exact ih (by omega)

theorem prefix_of_find {needle bytes : ByteString} {position : ℕ}
    (h : find needle bytes = some position) : needle <+: bytes.drop position := by
  induction bytes generalizing position with
  | nil =>
    rw [find] at h
    split at h
    next hprefix =>
      cases h
      exact List.isPrefixOf_iff_prefix.mp hprefix
    next => cases h
  | cons byte bytes ih =>
    rw [find] at h
    split at h
    next hprefix =>
      cases h
      exact List.isPrefixOf_iff_prefix.mp hprefix
    next =>
      obtain ⟨before, hbefore, rfl⟩ := Option.map_eq_some_iff.mp h
      exact ih hbefore

theorem find_of_prefix {needle bytes : ByteString} {position : ℕ}
    (h : needle <+: bytes.drop position) : ∃ first ≤ position, find needle bytes = some first := by
  induction bytes generalizing position with
  | nil =>
    rw [List.drop_nil] at h
    exact ⟨0, Nat.zero_le _, by rw [find, if_pos (List.isPrefixOf_iff_prefix.mpr h)]⟩
  | cons byte bytes ih =>
    by_cases hhead : needle.isPrefixOf (byte :: bytes)
    · exact ⟨0, Nat.zero_le _, by rw [find, if_pos hhead]⟩
    · cases position with
      | zero => exact absurd (List.isPrefixOf_iff_prefix.mpr h) hhead
      | succ position =>
        obtain ⟨first, hfirst, hfind⟩ := ih h
        exact ⟨first + 1, by omega, by rw [find, if_neg hhead, hfind, Option.map_some]⟩

/-- A search passes bytes among which the needle cannot begin. -/
theorem find_append_of_not_mem {first : UInt8} {needle before : ByteString}
    (habsent : first ∉ before) (bytes : ByteString) :
    find (first :: needle) (before ++ bytes) =
      (find (first :: needle) bytes).map (before.length + ·) := by
  induction before with
  | nil => simp
  | cons byte before ih =>
    obtain ⟨hne, habsent⟩ := not_or.mp (List.mem_cons.not.mp habsent)
    have hhead : (first :: needle).isPrefixOf (byte :: (before ++ bytes)) = false := by
      simp [List.isPrefixOf, hne]
    rw [List.cons_append, find, hhead, if_neg Bool.false_ne_true, ih habsent, Option.map_map]
    congr 1
    funext position
    exact Nat.add_right_comm before.length position 1

theorem find_replicate_append {first byte : UInt8} {needle : ByteString} (hne : first ≠ byte)
    (count : ℕ) (bytes : ByteString) :
    find (first :: needle) (List.replicate count byte ++ bytes) =
      (find (first :: needle) bytes).map (count + ·) := by
  have habsent : first ∉ List.replicate count byte := fun h ↦ hne (List.eq_of_mem_replicate h)
  rw [find_append_of_not_mem habsent, List.length_replicate]

/-- An occurrence lies within the bytes. -/
theorem find_fits {needle bytes : ByteString} {position : ℕ} (hneedle : needle ≠ [])
    (h : find needle bytes = some position) : position + needle.length ≤ bytes.length := by
  have hlength := (prefix_of_find h).length_le
  have hpositive := List.length_pos_iff.mpr hneedle
  rw [List.length_drop] at hlength
  omega

end Gzscript.Library.Bytes
