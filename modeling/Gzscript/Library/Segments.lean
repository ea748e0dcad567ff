import Mathlib.Data.List.Basic

/-!
# Segments between separators

A list with a separator is read as the pieces between its separators, of which the empty ones do not
count (`segments`). Runs of separators may then be collapsed without changing what is read
(`segments_collapse`), and a list of segments is read back from what joining it gives
(`segments_intercalate`).
-/

set_option autoImplicit false
set_option relaxedAutoImplicit false

namespace Gzscript.Library.Segments

variable {α : Type*} [DecidableEq α] (separator : α)

/-- The pieces between separators that are not empty. -/
def segments (elements : List α) : List (List α) :=
  (elements.splitOn separator).filter (· ≠ [])

/-- A piece that can stand between separators. -/
structure IsSegment (piece : List α) : Prop where
  nonempty : piece ≠ []
  plain : separator ∉ piece

/-- Drops every separator that follows a separator; `last` is the last element kept. -/
def collapse (last : Option α) : List α → List α
  | [] => []
  | element :: rest =>
    if element = separator ∧ last = some separator then collapse last rest
    else element :: collapse (some element) rest

theorem exists_splitOn_cons (elements : List α) :
    ∃ first rest, elements.splitOn separator = first :: rest :=
  List.exists_cons_of_ne_nil (List.splitOn_ne_nil separator elements)

@[simp] theorem splitOn_cons_self (elements : List α) :
    (separator :: elements).splitOn separator = [] :: elements.splitOn separator := by
  simp [List.splitOn_cons_eq_if_modifyHead]

theorem splitOn_cons_of_ne {element : α} (hne : element ≠ separator) (elements : List α) :
    (element :: elements).splitOn separator =
      (elements.splitOn separator).modifyHead (element :: ·) := by
  simp [List.splitOn_cons_eq_if_modifyHead, hne]

@[simp] theorem segments_nil : segments separator [] = [] := rfl

@[simp] theorem segments_cons_self (elements : List α) :
    segments separator (separator :: elements) = segments separator elements := by
  simp [segments]

theorem not_mem_of_mem_splitOn {elements piece : List α}
    (hpiece : piece ∈ elements.splitOn separator) : separator ∉ piece := by
  induction elements generalizing piece with
  | nil =>
    obtain rfl := List.mem_singleton.mp hpiece
    exact List.not_mem_nil
  | cons element elements ih =>
    by_cases hseparator : element = separator
    · rw [hseparator, splitOn_cons_self] at hpiece
      obtain rfl | hrest := List.mem_cons.mp hpiece
      · exact List.not_mem_nil
      · exact ih hrest
    · obtain ⟨first, rest, hsplit⟩ := exists_splitOn_cons separator elements
      rw [splitOn_cons_of_ne separator hseparator, hsplit, List.modifyHead_cons] at hpiece
      obtain rfl | hrest := List.mem_cons.mp hpiece
      · have hfirst := ih (hsplit ▸ List.mem_cons_self)
        exact fun hmem ↦ (List.mem_cons.mp hmem).elim (fun heq ↦ hseparator heq.symm) hfirst
      · exact ih (hsplit ▸ List.mem_cons_of_mem first hrest)

theorem isSegment_of_mem_segments {elements piece : List α}
    (hpiece : piece ∈ segments separator elements) : IsSegment separator piece := by
  obtain ⟨hmem, hne⟩ := List.mem_filter.mp hpiece
  exact ⟨of_decide_eq_true hne, not_mem_of_mem_splitOn separator hmem⟩

/-- A loop over all pieces that passes over empty ones is a loop over the segments. -/
theorem foldl_splitOn {σ : Type*} {step : σ → List α → σ} (hskip : ∀ state, step state [] = state)
    (elements : List α) (start : σ) :
    (elements.splitOn separator).foldl step start =
      (segments separator elements).foldl step start := by
  rw [segments, List.foldl_filter]
  congr 1
  funext state piece
  by_cases hempty : piece = []
  · rw [if_neg (by simp [hempty]), hempty, hskip]
  · rw [if_pos (decide_eq_true hempty)]

/-! ### Collapsing separators -/

/-- Two lists of pieces have the same first piece, and the same others up to empty ones. -/
def SameFirst (pieces others : List (List α)) : Prop :=
  pieces.head? = others.head? ∧ pieces.tail.filter (· ≠ []) = others.tail.filter (· ≠ [])

omit [DecidableEq α] in
theorem SameFirst.filter {first other : List α} {pieces others : List (List α)}
    (hsame : SameFirst (first :: pieces) (other :: others)) :
    (first :: pieces).filter (· ≠ []) = (other :: others).filter (· ≠ []) := by
  obtain ⟨hfirst, hrest⟩ := hsame
  obtain rfl : first = other := Option.some.inj hfirst
  have hrest' : pieces.filter (· ≠ []) = others.filter (· ≠ []) := hrest
  rw [List.filter_cons, List.filter_cons, hrest']

omit [DecidableEq α] in
theorem SameFirst.cons (element : α) {first other : List α} {pieces others : List (List α)}
    (hsame : SameFirst (first :: pieces) (other :: others)) :
    SameFirst ((element :: first) :: pieces) ((element :: other) :: others) := by
  obtain ⟨hfirst, hrest⟩ := hsame
  obtain rfl : first = other := Option.some.inj hfirst
  exact ⟨rfl, hrest⟩

/-- Collapsing keeps the segments. Where it does not follow a separator, it also keeps the first
piece, to which an element in front belongs. -/
theorem splitOn_collapse (last : Option α) (elements : List α) :
    segments separator (collapse separator last elements) = segments separator elements ∧
      (last ≠ some separator → SameFirst ((collapse separator last elements).splitOn separator)
        (elements.splitOn separator)) := by
  induction elements generalizing last with
  | nil => exact ⟨rfl, fun _ ↦ ⟨rfl, rfl⟩⟩
  | cons element elements ih =>
    by_cases hskip : element = separator ∧ last = some separator
    · obtain ⟨rfl, rfl⟩ := hskip
      rw [collapse, if_pos ⟨rfl, rfl⟩, segments_cons_self]
      exact ⟨(ih _).1, fun hne ↦ absurd rfl hne⟩
    · rw [collapse, if_neg hskip]
      by_cases hseparator : element = separator
      · subst hseparator
        rw [segments_cons_self, segments_cons_self, splitOn_cons_self, splitOn_cons_self]
        exact ⟨(ih _).1, fun _ ↦ ⟨rfl, (ih _).1⟩⟩
      · have hlast : some element ≠ some separator := fun h ↦ hseparator (Option.some.inj h)
        have hsame := (ih (some element)).2 hlast
        obtain ⟨first, rest, hsplit⟩ := exists_splitOn_cons separator elements
        obtain ⟨first', rest', hsplit'⟩ :=
          exists_splitOn_cons separator (collapse separator (some element) elements)
        rw [hsplit, hsplit'] at hsame
        rw [segments, segments, splitOn_cons_of_ne separator hseparator,
          splitOn_cons_of_ne separator hseparator, hsplit, hsplit', List.modifyHead_cons,
          List.modifyHead_cons]
        exact ⟨(hsame.cons element).filter, fun _ ↦ hsame.cons element⟩

@[simp] theorem segments_collapse (elements : List α) :
    segments separator (collapse separator none elements) = segments separator elements :=
  (splitOn_collapse separator none elements).1

/-! ### Joining segments -/

variable {separator}

theorem segments_intercalate {pieces : List (List α)}
    (hpieces : ∀ piece ∈ pieces, IsSegment separator piece) :
    segments separator ([separator].intercalate pieces) = pieces := by
  by_cases hnone : pieces = []
  · rw [hnone]
    rfl
  · rw [segments, List.splitOn_intercalate separator (fun piece hmem ↦ (hpieces piece hmem).plain)
      hnone, List.filter_eq_self]
    exact fun piece hmem ↦ decide_eq_true (hpieces piece hmem).nonempty

end Gzscript.Library.Segments
