import Mathlib.Data.List.Sort

/-!
# Sorting by a strict weak order

`SortAlgorithm` is what a library sort such as `std::sort` promises for a comparison `less`: a
permutation of its input with no element less than an earlier one. Nothing is promised about the
order of elements neither of which is less than the other, so a model that takes a `SortAlgorithm`
as a parameter holds for every result the library may return. `stableSort` is `std::stable_sort`,
whose result is determined. Both exist for every strict weak order (`insertion`,
`stableSort_sorted`).
-/

set_option autoImplicit false
set_option relaxedAutoImplicit false

namespace Gzscript.Library.Sorting

variable {α : Type*}

/-- A comparison that sorts: irreflexive, and with incomparability transitive. -/
structure StrictWeakOrder (less : α → α → Bool) : Prop where
  asymm : ∀ first second, less first second = true → less second first = false
  negTrans : ∀ first second third, less second first = false → less third second = false →
    less third first = false

/-- A comparison by a key in a linear order is a strict weak order. -/
theorem StrictWeakOrder.ofKey {κ : Type*} [LinearOrder κ] {less : α → α → Bool} (key : α → κ)
    (hkey : ∀ first second, less first second = true ↔ key first < key second) :
    StrictWeakOrder less := by
  have hfalse : ∀ first second, less first second = false ↔ key second ≤ key first := by
    intro first second
    rw [← Bool.not_eq_true, hkey, not_lt]
  exact
    { asymm := fun first second h ↦ (hfalse _ _).mpr ((hkey _ _).mp h).le
      negTrans := fun first second third h h' ↦
        (hfalse _ _).mpr (((hfalse _ _).mp h).trans ((hfalse _ _).mp h')) }

namespace StrictWeakOrder

variable {less : α → α → Bool}

theorem irrefl (hless : StrictWeakOrder less) (element : α) : less element element = false := by
  cases h : less element element with
  | false => rfl
  | true => exact h.symm.trans (hless.asymm element element h)

theorem trans (hless : StrictWeakOrder less) {first second third : α}
    (hfirst : less first second = true) (hsecond : less second third = true) :
    less first third = true := by
  have hback := hless.asymm first second hfirst
  have hback' := hless.asymm second third hsecond
  cases h : less first third with
  | true => rfl
  | false =>
    have hcontra := hless.negTrans second third first hback' h
    exact absurd (hcontra.symm.trans hfirst) Bool.false_ne_true

end StrictWeakOrder

/-- Neither element is less than the other. -/
def Equivalent (less : α → α → Bool) (first second : α) : Prop :=
  less first second = false ∧ less second first = false

theorem Equivalent.trans {less : α → α → Bool} (hless : StrictWeakOrder less)
    {first second third : α} (hfirst : Equivalent less first second)
    (hsecond : Equivalent less second third) : Equivalent less first third :=
  ⟨hless.negTrans third second first hsecond.1 hfirst.1,
    hless.negTrans first second third hfirst.2 hsecond.2⟩

/-- No element is less than an earlier one. -/
def SortedBy (less : α → α → Bool) (elements : List α) : Prop :=
  elements.Pairwise fun first second ↦ less second first = false

/-- A sorting function that meets the contract of `std::sort` for a comparison. -/
structure SortAlgorithm (less : α → α → Bool) where
  sort : List α → List α
  perm : ∀ elements, (sort elements).Perm elements
  sorted : ∀ elements, SortedBy less (sort elements)

/-- `std::stable_sort`: sorted, and elements neither of which is less keep their order. -/
def stableSort (less : α → α → Bool) (elements : List α) : List α :=
  elements.insertionSort fun first second ↦ less second first = false

theorem stableSort_perm (less : α → α → Bool) (elements : List α) :
    (stableSort less elements).Perm elements :=
  List.perm_insertionSort _ elements

theorem stableSort_sorted {less : α → α → Bool} (hless : StrictWeakOrder less)
    (elements : List α) : SortedBy less (stableSort less elements) := by
  have htotal : Std.Total fun first second ↦ less second first = false :=
    ⟨fun first second ↦ by
      cases h : less second first with
      | false => exact Or.inl rfl
      | true => exact Or.inr (hless.asymm second first h)⟩
  have htrans : IsTrans α fun first second ↦ less second first = false :=
    ⟨fun first second third h h' ↦ hless.negTrans first second third h h'⟩
  exact List.pairwise_insertionSort _ elements

theorem orderedInsert_keeps {less : α → α → Bool} {relation : α → α → Prop} {element : α}
    {elements : List α} (hfirst : ∀ other ∈ elements, relation element other)
    (helements : elements.Pairwise fun first second ↦
      Equivalent less first second → relation first second) :
    (elements.orderedInsert (fun first second ↦ less second first = false) element).Pairwise
      fun first second ↦ Equivalent less first second → relation first second := by
  induction elements with
  | nil => exact List.pairwise_singleton _ _
  | cons head elements ih =>
    obtain ⟨hhead, htail⟩ := List.pairwise_cons.mp helements
    rw [List.orderedInsert_cons]
    split_ifs with hle
    · refine List.pairwise_cons.mpr ⟨fun other hother _ ↦ hfirst other hother, helements⟩
    · refine List.pairwise_cons.mpr ⟨fun other hother hequivalent ↦ ?_, ?_⟩
      · rcases (List.mem_orderedInsert _).mp hother with rfl | hother
        · exact absurd hequivalent.1 hle
        · exact hhead other hother hequivalent
      · exact ih (fun other hother ↦ hfirst other (List.mem_cons_of_mem _ hother)) htail

/-- What holds between an element and every later one still holds after the sort between those that
are equivalent. -/
theorem stableSort_keeps {less : α → α → Bool} {relation : α → α → Prop} {elements : List α}
    (helements : elements.Pairwise relation) :
    (stableSort less elements).Pairwise fun first second ↦
      Equivalent less first second → relation first second := by
  induction elements with
  | nil => exact List.Pairwise.nil
  | cons element elements ih =>
    obtain ⟨hfirst, htail⟩ := List.pairwise_cons.mp helements
    refine orderedInsert_keeps (fun other hother ↦ hfirst other ?_) (ih htail)
    exact (stableSort_perm less elements).mem_iff.mp hother

/-- A sort by a part of each element sorts the parts. -/
theorem map_stableSort {β : Type*} (less : α → α → Bool) (part : β → α) (elements : List β) :
    (stableSort (fun first second ↦ less (part first) (part second)) elements).map part =
      stableSort less (elements.map part) :=
  List.map_insertionSort _ _ part elements fun _ _ _ _ ↦ Iff.rfl

/-- The stable sort is one of the results `std::sort` may return. -/
def SortAlgorithm.insertion {less : α → α → Bool} (hless : StrictWeakOrder less) :
    SortAlgorithm less where
  sort := stableSort less
  perm := stableSort_perm less
  sorted := stableSort_sorted hless

end Gzscript.Library.Sorting
