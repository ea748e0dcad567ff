import Gzscript.Lsp.PendingQueries
import Mathlib.Data.List.Induction

/-!
# The position of the caret

A query has the position of the caret as a line and a column in UTF-16 code units, counted on the
code with its markers, while the server reads it in the source, from which all markers are taken.
`offsetAt` is what the server makes of a position. The markers do no harm, since the count ends
before the first one, and the position leads back to the caret (`offsetAt_caret`).

The fields of a query are 32-bit integers. They have room for what the protocol can express
(`makeQueryInt32_decodes`); a longer line runs over (`long_line_overflows`).
-/

set_option autoImplicit false
set_option relaxedAutoImplicit false

namespace Gzscript.Lsp.CaretPosition

open Protocol PendingQueries

/-! ### Positions of the protocol -/

/-- The UTF-16 code units of a character. -/
def codeUnits (character : Char) : ℕ := if 0xFFFF < character.toNat then 2 else 1

/-- The offset of a position in a text, whose lines end at newlines. A column behind the end of a
line is its end; one within a character is no position, nor is a line behind the last one. -/
def offsetAt : Text → ℕ → ℕ → Option ℕ
  | [], line, _ => if line = 0 then some 0 else none
  | character :: text, line, column =>
    if line = 0 then
      if column = 0 ∨ character = '\n' then some 0
      else if codeUnits character ≤ column then
        (offsetAt text 0 (column - codeUnits character)).map Nat.succ
      else none
    else (offsetAt text (if character = '\n' then line - 1 else line) column).map Nat.succ

/-- The position behind a text. -/
def positionOf (text : Text) : ℕ × ℕ := text.foldl advance (0, 0)

theorem advance_newline (position : ℕ × ℕ) : advance position '\n' = (position.1 + 1, 0) :=
  if_pos rfl

theorem advance_other (position : ℕ × ℕ) {character : Char} (h : character ≠ '\n') :
    advance position character = (position.1, position.2 + codeUnits character) :=
  if_neg h

theorem codeUnits_pos (character : Char) : 0 < codeUnits character := by
  unfold codeUnits
  split_ifs
  · exact Nat.two_pos
  · exact Nat.one_pos

/-- A text moves the line on, and the column too if it stays in its line. -/
theorem foldl_advance (text : Text) (line column : ℕ) :
    text.foldl advance (line, column) =
      (line + (positionOf text).1,
        if (positionOf text).1 = 0 then column + (positionOf text).2 else (positionOf text).2) := by
  induction text generalizing line column with
  | nil => rfl
  | cons character text ih =>
    by_cases hnewline : character = '\n'
    · subst hnewline
      rw [positionOf, List.foldl_cons, List.foldl_cons, advance_newline, advance_newline, ih, ih]
      simp [Nat.add_assoc]
    · rw [positionOf, List.foldl_cons, List.foldl_cons, advance_other _ hnewline,
        advance_other _ hnewline, ih, ih]
      by_cases hline : (positionOf text).1 = 0
      · simp [hline, Nat.add_assoc]
      · simp [hline]

theorem positionOf_newline (text : Text) :
    positionOf ('\n' :: text) = ((positionOf text).1 + 1, (positionOf text).2) := by
  rw [positionOf, List.foldl_cons, advance_newline, foldl_advance]
  simp [Nat.add_comm]

theorem positionOf_other {character : Char} (h : character ≠ '\n') (text : Text) :
    positionOf (character :: text) = ((positionOf text).1,
      if (positionOf text).1 = 0 then codeUnits character + (positionOf text).2
      else (positionOf text).2) := by
  rw [positionOf, List.foldl_cons, advance_other _ h, foldl_advance]
  simp

/-- The position behind the beginning of a text leads to its end. -/
theorem offsetAt_positionOf (before after : Text) :
    offsetAt (before ++ after) (positionOf before).1 (positionOf before).2 =
      some before.length := by
  induction before with
  | nil =>
    show offsetAt after 0 0 = some 0
    rcases after with _ | ⟨character, after⟩
    · rfl
    · rw [offsetAt, if_pos rfl, if_pos (.inl rfl)]
  | cons character before ih =>
    by_cases hnewline : character = '\n'
    · subst hnewline
      rw [positionOf_newline, List.cons_append, offsetAt, if_neg (Nat.succ_ne_zero _), if_pos rfl,
        Nat.add_sub_cancel, ih]
      rfl
    · rw [positionOf_other hnewline, List.cons_append, offsetAt]
      by_cases hline : (positionOf before).1 = 0
      · have hpos := codeUnits_pos character
        have hcolumn : ¬ (codeUnits character + (positionOf before).2 = 0 ∨ character = '\n') := by
          rintro (hzero | hsame)
          · omega
          · exact hnewline hsame
        rw [if_pos hline, if_pos hline, if_neg hcolumn, if_pos (Nat.le_add_right _ _),
          Nat.add_sub_cancel_left, ← hline, ih]
        rfl
      · rw [if_neg hline, if_neg hnewline, if_neg hline, ih]
        rfl

/-! ### The caret -/

/-- `code.find` of the marker, or the length of the code without one. -/
def caretOffset (code : Text) : ℕ :=
  (code.findIdx? (· = caretMarker)).getD code.length

/-- The text in front of the caret. -/
def beforeCaret (code : Text) : Text := code.takeWhile (· ≠ caretMarker)

theorem length_beforeCaret (code : Text) : (beforeCaret code).length = caretOffset code := by
  unfold beforeCaret caretOffset
  induction code with
  | nil => rfl
  | cons character code ih =>
    by_cases hmarker : character = caretMarker
    · rw [List.takeWhile_cons_of_neg (by simpa using hmarker), List.findIdx?_cons,
        if_pos (by simpa using hmarker)]
      rfl
    · rw [List.takeWhile_cons_of_pos (by simpa using hmarker), List.findIdx?_cons,
        if_neg (by simpa using hmarker), List.length_cons, ih]
      rcases code.findIdx? (· = caretMarker) with _ | index
      · rfl
      · rfl

/-- No marker is taken from the text in front of the caret. -/
theorem exists_source (code : Text) :
    ∃ after, code.filter (· ≠ caretMarker) = beforeCaret code ++ after := by
  have hkept : (beforeCaret code).filter (· ≠ caretMarker) = beforeCaret code :=
    List.filter_eq_self.mpr (List.all_eq_true.mp List.all_takeWhile)
  have hsplit : beforeCaret code ++ code.dropWhile (· ≠ caretMarker) = code :=
    List.takeWhile_append_dropWhile
  refine ⟨(code.dropWhile (· ≠ caretMarker)).filter (· ≠ caretMarker), ?_⟩
  calc code.filter (· ≠ caretMarker)
      = (beforeCaret code ++ code.dropWhile (· ≠ caretMarker)).filter (· ≠ caretMarker) := by
        rw [hsplit]
    _ = beforeCaret code ++ (code.dropWhile (· ≠ caretMarker)).filter (· ≠ caretMarker) := by
        rw [List.filter_append, hkept]

/-- The position of the query leads back to the caret. -/
theorem offsetAt_caret (engine : Engine) (code path : Text) :
    offsetAt (makeQuery engine code path).source (makeQuery engine code path).line
      (makeQuery engine code path).character = some (caretOffset code) := by
  obtain ⟨after, hsource⟩ := exists_source code
  rw [← length_beforeCaret, ← offsetAt_positionOf (beforeCaret code) after, ← hsource]
  rfl

/-! ### The fields of a query -/

/-- `INT32_MAX`. -/
def int32Max : ℕ := 2 ^ 31 - 1

def InRange (position : ℕ × ℕ) : Prop := position.1 ≤ int32Max ∧ position.2 ≤ int32Max

instance (position : ℕ × ℕ) : Decidable (InRange position) := inferInstanceAs (Decidable (_ ∧ _))

/-- One more character. A position that the fields have no room for is undefined. -/
def advanceInt32 (position : ℕ × ℕ) (character : Char) : Option (ℕ × ℕ) :=
  if InRange (advance position character) then some (advance position character) else none

/-- `make_query` with its 32-bit fields. -/
def makeQueryInt32 (engine : Engine) (code path : Text) : Option Query :=
  ((beforeCaret code).foldlM advanceInt32 (0, 0)).map fun position ↦
    { makeQuery engine code path with line := position.1, character := position.2 }

/-- The fields have room for every position up to the end of a text. -/
def Fits (text : Text) : Prop := ∀ before, before <+: text → InRange (positionOf before)

theorem positionOf_concat (text : Text) (character : Char) :
    positionOf (text ++ [character]) = advance (positionOf text) character := by
  rw [positionOf, List.foldl_append]
  rfl

theorem fits_concat_iff (text : Text) (character : Char) :
    Fits (text ++ [character]) ↔ Fits text ∧ InRange (advance (positionOf text) character) := by
  rw [← positionOf_concat]
  constructor
  · intro h
    exact ⟨fun before hbefore ↦ h before (hbefore.trans (List.prefix_append _ _)),
      h _ (List.prefix_refl _)⟩
  · rintro ⟨htext, hlast⟩ before hbefore
    obtain rfl | hprefix := List.prefix_concat_iff.mp hbefore
    · exact hlast
    · exact htext before hprefix

/-- The loop has a result exactly if the fields have room for all positions. -/
theorem foldlM_advanceInt32_eq_some_iff (text : Text) (position : ℕ × ℕ) :
    text.foldlM advanceInt32 (0, 0) = some position ↔ Fits text ∧ position = positionOf text := by
  induction text using List.reverseRecOn generalizing position with
  | nil =>
    have hfits : Fits [] := fun before hbefore ↦ by
      rw [List.prefix_nil.mp hbefore]
      exact ⟨Nat.zero_le _, Nat.zero_le _⟩
    rw [List.foldlM_nil]
    exact ⟨fun h ↦ ⟨hfits, (Option.some.inj h).symm⟩, fun h ↦ congrArg some h.2.symm⟩
  | append_singleton text character ih =>
    rw [List.foldlM_append, fits_concat_iff, positionOf_concat]
    constructor
    · intro h
      obtain ⟨before, hbefore, hlast⟩ := Option.bind_eq_some_iff.mp h
      obtain ⟨hfits, rfl⟩ := (ih before).mp hbefore
      rw [List.foldlM_cons] at hlast
      obtain ⟨last, hstep, hend⟩ := Option.bind_eq_some_iff.mp hlast
      obtain rfl := Option.some.inj hend
      unfold advanceInt32 at hstep
      split_ifs at hstep with hrange
      exact ⟨⟨hfits, hrange⟩, (Option.some.inj hstep).symm⟩
    · rintro ⟨⟨hfits, hrange⟩, rfl⟩
      refine Option.bind_eq_some_iff.mpr ⟨positionOf text, (ih _).mpr ⟨hfits, rfl⟩, ?_⟩
      rw [List.foldlM_cons, advanceInt32, if_pos hrange]
      rfl

/-- The fields have a value exactly if they have room for it, and are the position then. -/
theorem makeQueryInt32_eq_some_iff (engine : Engine) (code path : Text) (query : Query) :
    makeQueryInt32 engine code path = some query ↔
      Fits (beforeCaret code) ∧ query = makeQuery engine code path := by
  rw [makeQueryInt32, Option.map_eq_some_iff]
  constructor
  · rintro ⟨position, hposition, rfl⟩
    obtain ⟨hfits, rfl⟩ := (foldlM_advanceInt32_eq_some_iff _ position).mp hposition
    exact ⟨hfits, rfl⟩
  · rintro ⟨hfits, rfl⟩
    exact ⟨_, (foldlM_advanceInt32_eq_some_iff _ _).mpr ⟨hfits, rfl⟩, rfl⟩

/-- Where the fields have room for the positions up to the caret, the position of the query leads
back to the caret. -/
theorem makeQueryInt32_decodes (engine : Engine) (code path : Text)
    (hfits : Fits (beforeCaret code)) :
    ∃ query, makeQueryInt32 engine code path = some query ∧
      offsetAt query.source query.line query.character = some (caretOffset code) :=
  ⟨makeQuery engine code path, (makeQueryInt32_eq_some_iff engine code path _).mpr ⟨hfits, rfl⟩,
    offsetAt_caret engine code path⟩

theorem positionOf_le (text : Text) :
    (positionOf text).1 ≤ text.length ∧ (positionOf text).2 ≤ 2 * text.length := by
  induction text using List.reverseRecOn with
  | nil => exact ⟨Nat.le_refl 0, Nat.le_refl 0⟩
  | append_singleton text character ih =>
    have hunits : codeUnits character ≤ 2 := by
      unfold codeUnits
      split_ifs
      · exact Nat.le_refl 2
      · exact Nat.le_succ 1
    rw [positionOf_concat, List.length_append, List.length_singleton]
    by_cases hnewline : character = '\n'
    · subst hnewline
      rw [advance_newline]
      exact ⟨Nat.succ_le_succ ih.1, Nat.zero_le _⟩
    · rw [advance_other _ hnewline]
      exact ⟨Nat.le_succ_of_le ih.1, by omega⟩

/-- A text of at most half as many characters as the range has numbers fits. -/
theorem fits_of_length {text : Text} (h : 2 * text.length ≤ int32Max) : Fits text := by
  intro before hbefore
  have hlength := hbefore.length_le
  obtain ⟨hline, hcolumn⟩ := positionOf_le before
  exact ⟨by omega, by omega⟩

/-- Two lines, the second with a character of two code units before the caret. -/
def markedCode : Text := "const a = 1;\nb𝒳".toList ++ caretMarker :: "c".toList

theorem makeQueryInt32_decodes_sample :
    ∃ query, makeQueryInt32 plainEngine markedCode "/project/a.zig".toList = some query ∧
      offsetAt query.source query.line query.character = some (caretOffset markedCode) :=
  makeQueryInt32_decodes plainEngine markedCode _ (fits_of_length (by decide))

/-- A line of characters of two code units each. -/
def wideLine (count : ℕ) : Text := List.replicate count (Char.ofNat 0x10000)

theorem positionOf_wideLine (count : ℕ) : positionOf (wideLine count) = (0, 2 * count) := by
  induction count with
  | zero => rfl
  | succ count ih =>
    have hunits : codeUnits (Char.ofNat 0x10000) = 2 := by decide
    rw [wideLine, List.replicate_succ', positionOf_concat, ← wideLine, ih,
      advance_other _ (by decide), hunits, Nat.mul_succ]

theorem beforeCaret_wideLine (count : ℕ) : beforeCaret (wideLine count) = wideLine count := by
  rw [beforeCaret, wideLine, List.takeWhile_replicate, if_pos (by decide)]

/-- The fields have no room for the end of a line that is too wide. -/
theorem wideLine_overflows {count : ℕ} (h : int32Max < 2 * count) (engine : Engine) (path : Text) :
    makeQueryInt32 engine (wideLine count) path = none := by
  rw [Option.eq_none_iff_forall_ne_some]
  intro query hquery
  obtain ⟨hfits, -⟩ := (makeQueryInt32_eq_some_iff _ _ _ _).mp hquery
  rw [beforeCaret_wideLine] at hfits
  have hrange := hfits (wideLine count) (List.prefix_refl _)
  rw [positionOf_wideLine] at hrange
  exact absurd hrange.2 (Nat.not_le.mpr h)

/-- In a line of half as many such characters as there are column numbers, the column of the end is
not defined. -/
theorem long_line_overflows :
    ¬ ∃ query,
      makeQueryInt32 plainEngine (wideLine (2 ^ 30)) "/project/a.zig".toList = some query ∧
      offsetAt query.source query.line query.character =
        some (caretOffset (wideLine (2 ^ 30))) := by
  rintro ⟨query, hquery, -⟩
  rw [wideLine_overflows (by decide)] at hquery
  exact absurd hquery.symm (Option.some_ne_none query)

end Gzscript.Lsp.CaretPosition
