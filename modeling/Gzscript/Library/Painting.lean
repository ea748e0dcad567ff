import Mathlib.Algebra.Order.Group.Nat
import Mathlib.Data.List.Basic
import Mathlib.Data.List.Pairwise

/-!
# Painting a line

A line is painted by a dictionary from columns to colours. An entry holds from its column to the
next entry, and the ground is what shows in front of the first one (`shown`). A dictionary keeps its
keys in the order they were added in, and a key that is assigned again stays where it is (`assign`).

A painter that goes from left to right is `At` a column when the ground shows from there on. From
there it can paint a region and go on behind it (`At.region`), leave some columns as they are
(`At.skip`), or paint what is left of the line (`At.rest`). Each of these `Paints` some colours: it
keeps what shows in front of them, and the colours of one piece follow those of another
(`Paints.append`).
-/

set_option autoImplicit false
set_option relaxedAutoImplicit false

namespace Gzscript.Library.Painting

variable {Color : Type*}

/-- Assigns a key of a dictionary. -/
def assign (entries : List (ℕ × Color)) (column : ℕ) (color : Color) : List (ℕ × Color) :=
  match entries with
  | [] => [(column, color)]
  | entry :: rest =>
    if entry.1 = column then (column, color) :: rest else entry :: assign rest column color

/-- The colour that shows in a column: that of the last entry which is not behind it. -/
def shown (entries : List (ℕ × Color)) (ground : Color) : ℕ → Color
  | 0 => (entries.lookup 0).getD ground
  | column + 1 => (entries.lookup (column + 1)).getD (shown entries ground column)

/-- Paints from one column to another, behind which the ground shows again, if that is a column of
the line. -/
def paintRegion (entries : List (ℕ × Color)) (start stop : ℕ) (color ground : Color)
    (length : ℕ) : List (ℕ × Color) :=
  let entries := assign entries start color
  if stop < length then assign entries stop ground else entries

/-- The columns of the dictionary are in order, those of the line, and not behind the given one,
from which on the ground shows. -/
structure At (entries : List (ℕ × Color)) (ground : Color) (length column : ℕ) : Prop where
  ordered : (entries.map Prod.fst).Pairwise (· < ·)
  inside : ∀ entry ∈ entries, entry.1 < length
  before : ∀ entry ∈ entries, entry.1 ≤ column
  ground : column < length → shown entries ground column = ground

/-- From the column on the colours show, and in front of it what has shown there before. -/
structure Paints (entries painted : List (ℕ × Color)) (ground : Color) (start : ℕ)
    (colors : List Color) : Prop where
  kept : ∀ column < start, shown painted ground column = shown entries ground column
  colored : ∀ k color, colors[k]? = some color → shown painted ground (start + k) = color

variable {entries middle painted : List (ℕ × Color)} {ground color : Color}
variable {colors others : List Color} {length column start stop n : ℕ}

/-! ### Assigning -/

theorem lookup_cons_eq_ite (entry : ℕ × Color) (rest : List (ℕ × Color)) (column : ℕ) :
    (entry :: rest).lookup column =
      if column = entry.1 then some entry.2 else rest.lookup column := by
  rw [List.lookup_cons]
  by_cases hcolumn : column = entry.1
  · rw [if_pos hcolumn, beq_iff_eq.mpr hcolumn]
  · rw [if_neg hcolumn, beq_false_of_ne hcolumn]

theorem lookup_assign (entries : List (ℕ × Color)) (column : ℕ) (color : Color) (other : ℕ) :
    (assign entries column color).lookup other =
      if other = column then some color else entries.lookup other := by
  induction entries with
  | nil => rw [assign, lookup_cons_eq_ite]
  | cons entry rest ih =>
    rw [assign, lookup_cons_eq_ite]
    by_cases hkey : entry.1 = column
    · rw [if_pos hkey, lookup_cons_eq_ite, hkey]
      by_cases hother : other = column
      · rw [if_pos hother, if_pos hother]
      · rw [if_neg hother, if_neg hother, if_neg hother]
    · rw [if_neg hkey, lookup_cons_eq_ite, ih]
      by_cases hother : other = entry.1
      · have hcolumn : other ≠ column := hother ▸ hkey
        rw [if_pos hother, if_neg hcolumn, if_pos hother]
      · rw [if_neg hother, if_neg hother]

theorem columns_assign (entries : List (ℕ × Color)) (column : ℕ) (color : Color) :
    (assign entries column color).map Prod.fst =
      if column ∈ entries.map Prod.fst then entries.map Prod.fst
      else entries.map Prod.fst ++ [column] := by
  induction entries with
  | nil => rfl
  | cons entry rest ih =>
    rw [assign]
    by_cases hkey : entry.1 = column
    · rw [if_pos hkey, List.map_cons, List.map_cons, hkey, if_pos List.mem_cons_self]
    · rw [if_neg hkey, List.map_cons, List.map_cons, ih]
      by_cases hrest : column ∈ rest.map Prod.fst
      · rw [if_pos hrest, if_pos (List.mem_cons_of_mem _ hrest)]
      · have hnew : column ∉ entry.1 :: rest.map Prod.fst :=
          List.not_mem_cons_of_ne_of_not_mem (Ne.symm hkey) hrest
        rw [if_neg hrest, if_neg hnew, List.cons_append]

theorem column_of_mem_assign {entry : ℕ × Color} (hentry : entry ∈ assign entries column color) :
    entry.1 = column ∨ ∃ before ∈ entries, before.1 = entry.1 := by
  have hcolumn := List.mem_map_of_mem (f := Prod.fst) hentry
  rw [columns_assign] at hcolumn
  split at hcolumn
  · obtain ⟨before, hbefore, hsame⟩ := List.mem_map.mp hcolumn
    exact .inr ⟨before, hbefore, hsame⟩
  · obtain hbefore | hlast := List.mem_append.mp hcolumn
    · obtain ⟨before, hbefore, hsame⟩ := List.mem_map.mp hbefore
      exact .inr ⟨before, hbefore, hsame⟩
    · exact .inl (List.mem_singleton.mp hlast)

/-- A column that is not in front of another one keeps the columns in order. -/
theorem ordered_assign (hordered : (entries.map Prod.fst).Pairwise (· < ·))
    (hbefore : ∀ entry ∈ entries, entry.1 ≤ column) (color : Color) :
    ((assign entries column color).map Prod.fst).Pairwise (· < ·) := by
  rw [columns_assign]
  split
  next => exact hordered
  next hnew =>
    refine List.pairwise_append.mpr ⟨hordered, List.pairwise_singleton _ _, fun other hother last
      hlast ↦ ?_⟩
    obtain ⟨entry, hentry, rfl⟩ := List.mem_map.mp hother
    rw [List.mem_singleton.mp hlast]
    refine lt_of_le_of_ne (hbefore entry hentry) fun hsame ↦ hnew ?_
    exact hsame ▸ List.mem_map_of_mem hentry

/-! ### What shows -/

theorem shown_congr {others : List (ℕ × Color)}
    (hsame : ∀ other ≤ column, others.lookup other = entries.lookup other) :
    shown others ground column = shown entries ground column := by
  induction column with
  | zero => rw [shown, shown, hsame 0 le_rfl]
  | succ column ih =>
    rw [shown, shown, hsame _ le_rfl, ih fun other hother ↦ hsame other (Nat.le_succ_of_le hother)]

theorem shown_assign_of_lt (hcolumn : column < start) :
    shown (assign entries start color) ground column = shown entries ground column := by
  refine shown_congr fun other hother ↦ ?_
  rw [lookup_assign, if_neg (hother.trans_lt hcolumn).ne]

/-- Behind the last entry, the colour does not change. -/
theorem shown_of_before (hbefore : ∀ entry ∈ entries, entry.1 ≤ start) (hcolumn : start ≤ column) :
    shown entries ground column = shown entries ground start := by
  induction column, hcolumn using Nat.le_induction with
  | base => rfl
  | succ column hcolumn ih =>
    have hnone : entries.lookup (column + 1) = none := by
      refine List.lookup_eq_none_iff.mpr fun entry hentry ↦ ?_
      have hle := hbefore entry hentry
      rw [bne_iff_ne]
      omega
    rw [shown, hnone, Option.getD_none, ih]

/-- The last entry colours what is left of the line. -/
theorem shown_assign_of_le (hbefore : ∀ entry ∈ entries, entry.1 ≤ start)
    (hcolumn : start ≤ column) : shown (assign entries start color) ground column = color := by
  have hlast (entry : ℕ × Color) (hentry : entry ∈ assign entries start color) :
      entry.1 ≤ start := by
    obtain hsame | ⟨before, hmem, hsame⟩ := column_of_mem_assign hentry
    · exact hsame.le
    · exact hsame ▸ hbefore before hmem
  have hstart : (assign entries start color).lookup start = some color := by
    rw [lookup_assign, if_pos rfl]
  rw [shown_of_before hlast hcolumn]
  cases start with
  | zero => rw [shown, hstart, Option.getD_some]
  | succ start => rw [shown, hstart, Option.getD_some]

/-! ### Colours one after the other -/

theorem paints_nil (entries : List (ℕ × Color)) (ground : Color) (start : ℕ) :
    Paints entries entries ground start [] where
  kept _ _ := rfl
  colored _ _ hcolor := absurd hcolor (by simp)

theorem paints_replicate (hkept : ∀ column < start,
      shown painted ground column = shown entries ground column)
    (hcolored : ∀ column, start ≤ column → column < start + n →
      shown painted ground column = color) :
    Paints entries painted ground start (List.replicate n color) where
  kept := hkept
  colored k other hother := by
    obtain ⟨hk, hsame⟩ := List.getElem?_eq_some_iff.mp hother
    rw [List.getElem_replicate] at hsame
    rw [List.length_replicate] at hk
    rw [← hsame]
    exact hcolored (start + k) (Nat.le_add_right _ _) (Nat.add_lt_add_left hk _)

theorem Paints.append (first : Paints entries middle ground start colors)
    (second : Paints middle painted ground (start + colors.length) others) :
    Paints entries painted ground start (colors ++ others) where
  kept column hcolumn := by
    rw [second.kept column (Nat.lt_add_right _ hcolumn), first.kept column hcolumn]
  colored k color hcolor := by
    by_cases hk : k < colors.length
    · rw [List.getElem?_append_left hk] at hcolor
      rw [second.kept _ (Nat.add_lt_add_left hk _)]
      exact first.colored k color hcolor
    · have hle : colors.length ≤ k := Nat.le_of_not_lt hk
      rw [List.getElem?_append_right hle] at hcolor
      have hshown := second.colored _ color hcolor
      rwa [Nat.add_assoc, Nat.add_sub_cancel' hle] at hshown

/-- The colours of a line that is painted from its first column on. -/
theorem Paints.colors_eq (h : Paints entries painted ground 0 colors) :
    (List.range colors.length).map (shown painted ground) = colors := by
  refine List.ext_getElem (by simp) fun k hk hcolor ↦ ?_
  rw [List.getElem_map, List.getElem_range]
  have hshown := h.colored k colors[k] (List.getElem?_eq_getElem hcolor)
  rwa [Nat.zero_add] at hshown

/-! ### Painting from left to right -/

theorem at_nil (ground : Color) (length : ℕ) : At [] ground length 0 where
  ordered := List.Pairwise.nil
  inside _ hentry := absurd hentry List.not_mem_nil
  before _ hentry := absurd hentry List.not_mem_nil
  ground _ := rfl

/-- Columns that are left as they are show the ground. -/
theorem At.skip (h : At entries ground length start) (hstop : start + n ≤ length) :
    At entries ground length (start + n) ∧
      Paints entries entries ground start (List.replicate n ground) := by
  have hground (column : ℕ) (hcolumn : start ≤ column) (hlength : column < length) :
      shown entries ground column = ground := by
    rw [shown_of_before h.before hcolumn]
    exact h.ground (hcolumn.trans_lt hlength)
  refine ⟨⟨h.ordered, h.inside, fun entry hentry ↦ ?_, ?_⟩, ?_⟩
  · exact (h.before entry hentry).trans (Nat.le_add_right _ _)
  · exact hground _ (Nat.le_add_right _ _)
  · exact paints_replicate (fun _ _ ↦ rfl) fun column hcolumn hlt ↦
      hground column hcolumn (hlt.trans_le hstop)

theorem forall_mem_assign (P : ℕ → Prop) (hentries : ∀ entry ∈ entries, P entry.1)
    (hcolumn : P column) (color : Color) :
    ∀ entry ∈ assign entries column color, P entry.1 := by
  intro entry hentry
  obtain hsame | ⟨before, hbefore, hsame⟩ := column_of_mem_assign hentry
  · rw [hsame]
    exact hcolumn
  · rw [← hsame]
    exact hentries before hbefore

/-- The last entry paints what is left of the line. -/
theorem At.rest (h : At entries ground length start) (hstart : start < length) (color : Color)
    (n : ℕ) :
    At (assign entries start color) ground length length ∧
      Paints entries (assign entries start color) ground start (List.replicate n color) := by
  have hinside := forall_mem_assign (· < length) h.inside hstart color
  refine ⟨⟨ordered_assign h.ordered h.before color, hinside, fun entry hentry ↦ ?_, ?_⟩, ?_⟩
  · exact (hinside entry hentry).le
  · exact fun hbehind ↦ absurd hbehind (Nat.lt_irrefl _)
  · exact paints_replicate (fun _ hcolumn ↦ shown_assign_of_lt hcolumn) fun _ hcolumn _ ↦
      shown_assign_of_le h.before hcolumn

/-- A region is painted, and the painter is behind it. -/
theorem At.region (h : At entries ground length start) (hstart : start < length)
    (hn : start + n ≤ stop) (hstop : start < stop) (color : Color) :
    At (paintRegion entries start stop color ground length) ground length stop ∧
      Paints entries (paintRegion entries start stop color ground length) ground start
        (List.replicate n color) := by
  have hbefore := forall_mem_assign (· ≤ start) h.before le_rfl color
  have hstill (entry : ℕ × Color) (hentry : entry ∈ Painting.assign entries start color) :
      entry.1 ≤ stop := (hbefore entry hentry).trans hstop.le
  have hordered := ordered_assign h.ordered h.before color
  have hinside := forall_mem_assign (· < length) h.inside hstart color
  have hcolor (column : ℕ) (hcolumn : start ≤ column) :
      shown (assign entries start color) ground column = color :=
    shown_assign_of_le h.before hcolumn
  unfold paintRegion
  by_cases hlength : stop < length
  · simp only [if_pos hlength]
    refine ⟨⟨ordered_assign hordered hstill ground, forall_mem_assign (· < length) hinside
      hlength ground, forall_mem_assign (· ≤ stop) hstill le_rfl ground,
      fun _ ↦ shown_assign_of_le hstill le_rfl⟩,
      paints_replicate (fun column hcolumn ↦ ?_) fun column hcolumn hbehind ↦ ?_⟩
    · rw [shown_assign_of_lt (hcolumn.trans hstop), shown_assign_of_lt hcolumn]
    · rw [shown_assign_of_lt (hbehind.trans_le hn)]
      exact hcolor column hcolumn
  · simp only [if_neg hlength]
    exact ⟨⟨hordered, hinside, hstill, fun hbehind ↦ absurd hbehind hlength⟩,
      paints_replicate (fun _ hcolumn ↦ shown_assign_of_lt hcolumn) fun column hcolumn _ ↦
        hcolor column hcolumn⟩

end Gzscript.Library.Painting
