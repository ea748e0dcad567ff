import Gzscript.Library.Bytes
import Mathlib.Data.List.Infix

/-!
# Texts of lines

A text is read as lines between which a separator stands. `lines` cuts it at one occurrence after
the other; joined with the separator the lines are the text, and none has the separator in it
(`isLines_lines`).

A separator of which no end is a beginning is `Unbordered`. Then what a line ends with does not
matter: behind it, the separator is found where it stands (`find_after_line`).
-/

set_option autoImplicit false
set_option relaxedAutoImplicit false

namespace Gzscript.Library.Lines

open Bytes

/-- The lines of a text. -/
def lines (separator text : ByteString) : List ByteString :=
  if _hseparator : separator = [] then [text]
  else
    match _hfind : find separator text with
    | none => [text]
    | some offset => text.take offset :: lines separator (text.drop (offset + separator.length))
termination_by text.length
decreasing_by
  have hfits := find_fits _hseparator _hfind
  have hpositive := List.length_pos_iff.mpr _hseparator
  rw [List.length_drop]
  omega

/-- Some lines make up a text. -/
structure IsLines (separator : ByteString) (lines : List ByteString) (text : ByteString) :
    Prop where
  joined : separator.intercalate lines = text
  plain : ∀ line ∈ lines, find separator line = none

variable {separator text : ByteString}

theorem lines_of_none (hfind : find separator text = none) : lines separator text = [text] := by
  rw [lines]
  split
  · rfl
  · split
    next => rfl
    next hsome => exact absurd (hfind.symm.trans hsome) (Option.some_ne_none _).symm

theorem lines_of_some (hseparator : separator ≠ []) {offset : ℕ}
    (hfind : find separator text = some offset) :
    lines separator text =
      text.take offset :: lines separator (text.drop (offset + separator.length)) := by
  rw [lines, dif_neg hseparator]
  split
  next hnone => exact absurd (hfind.symm.trans hnone) (Option.some_ne_none _)
  next other hother =>
    obtain rfl := Option.some.inj (hfind.symm.trans hother)
    rfl

theorem lines_ne_nil (separator text : ByteString) : lines separator text ≠ [] := by
  rw [lines]
  split
  · exact List.cons_ne_nil _ _
  · split <;> exact List.cons_ne_nil _ _

/-- Nothing is found before the first occurrence. -/
theorem find_take_eq_none (hseparator : separator ≠ []) {offset : ℕ}
    (hfind : find separator text = some offset) : find separator (text.take offset) = none := by
  have hpositive := List.length_pos_iff.mpr hseparator
  have hlength : (text.take offset).length ≤ offset := List.length_take_le offset text
  rw [Option.eq_none_iff_forall_ne_some]
  intro early hearly
  have hfits := find_fits hseparator hearly
  have hsame := (find_append_iff hfits (text.drop offset)).mpr hearly
  rw [List.take_append_drop, hfind] at hsame
  obtain rfl := Option.some.inj hsame
  omega

/-- An occurrence splits the text. -/
theorem split_at_find {offset : ℕ} (hfind : find separator text = some offset) :
    text.take offset ++ (separator ++ text.drop (offset + separator.length)) = text := by
  obtain ⟨rest, hrest⟩ := prefix_of_find hfind
  have hdrop : text.drop (offset + separator.length) = rest := by
    rw [← List.drop_drop, ← hrest, List.drop_left]
  rw [hdrop, hrest, List.take_append_drop]

theorem isLines_lines (hseparator : separator ≠ []) (text : ByteString) :
    IsLines separator (lines separator text) text := by
  induction text using lines.induct separator with
  | case1 text hnil => exact absurd hnil hseparator
  | case2 text _ hfind =>
    rw [lines_of_none hfind]
    exact ⟨List.intercalate_singleton, List.forall_mem_singleton.mpr hfind⟩
  | case3 text _ offset hfind ih =>
    rw [lines_of_some hseparator hfind]
    refine ⟨?_, List.forall_mem_cons.mpr ⟨find_take_eq_none hseparator hfind, ih.plain⟩⟩
    rw [List.intercalate_cons_of_ne_nil (lines_ne_nil _ _), ih.joined, List.append_assoc]
    exact split_at_find hfind

/-- No end of a separator is a beginning of it, except for the whole. -/
def Unbordered (separator : ByteString) : Prop :=
  ∀ shift, 0 < shift → shift < separator.length → ¬ separator.drop shift <+: separator

theorem find_after_line (hunbordered : Unbordered separator) {line : ByteString}
    (hplain : find separator line = none) (more : ByteString) :
    find separator (line ++ (separator ++ more)) = some line.length := by
  have hhere : separator <+: (line ++ (separator ++ more)).drop line.length := by
    rw [List.drop_left]
    exact List.prefix_append separator more
  obtain ⟨offset, hoffset, hfind⟩ := find_of_prefix hhere
  obtain rfl | hbefore := hoffset.eq_or_lt
  · exact hfind
  · exfalso
    by_cases hfits : offset + separator.length ≤ line.length
    · rw [find_append_iff hfits, hplain] at hfind
      cases hfind
    · -- it would begin in the line and end in the separator
      have hprefix := prefix_of_find hfind
      rw [List.drop_append_of_le_length hoffset] at hprefix
      have hlength : (line.drop offset).length = line.length - offset := List.length_drop
      have hend : separator.drop (line.length - offset) <+: separator ++ more := by
        have hdropped := List.IsPrefix.drop hprefix (line.drop offset).length
        rwa [List.drop_left, hlength] at hdropped
      refine hunbordered (line.length - offset) (by omega) (by omega) ?_
      refine List.prefix_of_prefix_length_le hend (List.prefix_append separator more) ?_
      rw [List.length_drop]
      exact Nat.sub_le _ _

end Gzscript.Library.Lines
