import Gzscript.Library.Sorting
import Mathlib.Data.List.Destutter
import Mathlib.Data.List.Perm.Subperm

/-!
# Sorting, then merging equal neighbours

`std::sort` followed by `std::unique` removes every duplicate if equal elements are neighbours after
the sort, and it computes a canonical form if the sort has only one result. Both can fail where the
comparison ties two different elements (`Tied`). For a strict weak order and every input this module
says exactly when they do not: `forall_nodup_iff` for the duplicates, `forall_canonical_iff` for the
canonical form of two rearrangements, each over all results the sort may return.

`destutter (· ≠ ·)` is `std::unique`. Its two facts are that it keeps every sublist without equal
neighbours (`sublist_destutter`) and that it fails to remove a duplicate only where another element
stands in between (`nodup_destutter_iff`).
-/

set_option autoImplicit false
set_option relaxedAutoImplicit false

namespace Gzscript.Library.AdjacentDuplicates

open Library.Sorting

variable {α : Type*}

/-! ### Merging equal neighbours -/

section Destutter

variable [DecidableEq α]

theorem sublist_destutter' {kept rest : List α} {first : α} (hchain : kept.IsChain (· ≠ ·))
    (hsub : kept.Sublist (first :: rest)) : kept.Sublist (rest.destutter' (· ≠ ·) first) := by
  induction rest generalizing kept first with
  | nil => exact hsub
  | cons second rest ih =>
    by_cases hne : first ≠ second
    · rw [List.destutter'_cons_pos _ hne]
      cases hsub with
      | cons _ htail => exact (ih hchain htail).cons first
      | cons_cons _ htail => exact (ih hchain.tail htail).cons_cons first
    · obtain rfl : first = second := not_not.mp hne
      rw [List.destutter'_cons_neg _ hne]
      cases hsub with
      | cons _ htail => exact ih hchain htail
      | cons_cons _ htail =>
        cases htail with
        | cons _ hrest => exact ih hchain (hrest.cons_cons first)
        | cons_cons _ _ =>
          -- Two equal neighbours in the kept list.
          exact absurd rfl (List.isChain_cons_cons.mp hchain).1

/-- A sublist without equal neighbours survives the merge. -/
theorem sublist_destutter {kept elements : List α} (hchain : kept.IsChain (· ≠ ·))
    (hsub : kept.Sublist elements) : kept.Sublist (elements.destutter (· ≠ ·)) := by
  cases elements with
  | nil => exact hsub
  | cons first rest =>
    rw [List.destutter_cons']
    exact sublist_destutter' hchain hsub

theorem mem_destutter (elements : List α) (element : α) :
    element ∈ elements.destutter (· ≠ ·) ↔ element ∈ elements := by
  constructor
  · intro hmem
    exact (List.destutter_sublist _ elements).subset hmem
  · intro hmem
    have hsub := sublist_destutter (List.isChain_singleton element)
      (List.singleton_sublist.mpr hmem)
    exact List.singleton_sublist.mp hsub

omit [DecidableEq α] in
/-- Between two occurrences in a list without equal neighbours stands another element. -/
theorem exists_between {elements : List α} (hchain : elements.IsChain (· ≠ ·)) {element : α}
    (htwice : [element, element].Sublist elements) :
    ∃ other, element ≠ other ∧ [element, other, element].Sublist elements := by
  induction elements with
  | nil => cases htwice
  | cons first rest ih =>
    cases htwice with
    | cons _ hrest =>
      obtain ⟨other, hne, hsub⟩ := ih hchain.tail hrest
      exact ⟨other, hne, hsub.cons first⟩
    | cons_cons _ hrest =>
      have hmem : element ∈ rest := List.singleton_sublist.mp hrest
      cases rest with
      | nil => exact absurd hmem List.not_mem_nil
      | cons second rest =>
        have hne : element ≠ second := (List.isChain_cons_cons.mp hchain).1
        have hlater : element ∈ rest := (List.mem_cons.mp hmem).resolve_left hne
        exact ⟨second, hne, ((List.singleton_sublist.mpr hlater).cons_cons second).cons_cons _⟩

/-- The merge leaves a duplicate exactly where two equal elements have another one between them. -/
theorem nodup_destutter_iff (elements : List α) : (elements.destutter (· ≠ ·)).Nodup ↔
    ∀ element other, element ≠ other → ¬ [element, other, element].Sublist elements := by
  constructor
  · intro hnodup element other hne hsub
    have hchain : [element, other, element].IsChain (· ≠ ·) := by simp [hne, hne.symm]
    have hkept := sublist_destutter hchain hsub
    have htwice : [element, element].Sublist [element, other, element] :=
      ((List.Sublist.refl [element]).cons other).cons_cons element
    exact List.nodup_iff_sublist.mp hnodup element (htwice.trans hkept)
  · intro hnone
    refine List.nodup_iff_sublist.mpr fun element htwice ↦ ?_
    obtain ⟨other, hne, hsub⟩ := exists_between (List.isChain_destutter _ elements) htwice
    exact hnone element other hne (hsub.trans (List.destutter_sublist _ elements))

end Destutter

/-! ### Elements that tie -/

/-- Neither element is less than the other. -/
def Tied (less : α → α → Bool) (first second : α) : Prop :=
  less first second = false ∧ less second first = false

variable {less : α → α → Bool}

theorem Tied.symm {first second : α} (h : Tied less first second) : Tied less second first :=
  ⟨h.2, h.1⟩

/-- An element between two occurrences of another one in a sorted list ties with it. -/
theorem tied_of_between {elements : List α} (hsorted : SortedBy less elements)
    {element other : α} (hsub : [element, other, element].Sublist elements) :
    Tied less element other := by
  have hpairs := hsorted.sublist hsub
  simp only [List.pairwise_cons, List.mem_cons, List.not_mem_nil, or_false,
    forall_eq_or_imp, forall_eq] at hpairs
  exact ⟨hpairs.2.1, hpairs.1.1⟩

/-! ### A sort that rearranges its input first -/

/-- The stable sort of a rearrangement of the input: one of the results the sort may return. -/
def rearrangedSort (hless : StrictWeakOrder less) (rearrange : List α → List α)
    (hperm : ∀ elements, (rearrange elements).Perm elements) : SortAlgorithm less where
  sort := fun elements ↦ stableSort less (rearrange elements)
  perm := fun elements ↦ (stableSort_perm less _).trans (hperm elements)
  sorted := fun _ ↦ stableSort_sorted hless _

/-- A sorted sublist keeps its order in the stable sort. -/
theorem sublist_stableSort {kept elements : List α} (hsorted : SortedBy less kept)
    (hsub : kept.Sublist elements) : kept.Sublist (stableSort less elements) :=
  List.sublist_insertionSort hsorted hsub

/-- The stable sort does not reorder elements that tie. -/
theorem filter_stableSort {elements : List α} {selected : α → Bool}
    (htied : SortedBy less (elements.filter selected)) :
    (stableSort less elements).filter selected = elements.filter selected := by
  have hsub : (elements.filter selected).Sublist (stableSort less elements) :=
    sublist_stableSort htied List.filter_sublist
  have hfiltered : (elements.filter selected).Sublist
      ((stableSort less elements).filter selected) := by
    have := hsub.filter selected
    rwa [List.filter_filter, List.filter_congr fun _ _ ↦ Bool.and_self _] at this
  have hlength := ((stableSort_perm less elements).filter selected).length_eq
  exact (hfiltered.eq_of_length hlength.symm).symm

variable [DecidableEq α]

/-- The input with the occurrences of one element in front. -/
def movedToFront (element : α) (elements : List α) : List α :=
  elements.filter (· = element) ++ elements.filter (· ≠ element)

theorem movedToFront_perm (element : α) (elements : List α) :
    (movedToFront element elements).Perm elements := by
  have hsplit := List.filter_append_perm (· = element) elements
  simpa [movedToFront] using hsplit

theorem pairwise_movedToFront (element : α) (elements : List α) :
    (movedToFront element elements).Pairwise
      fun earlier later ↦ later = element → earlier = element := by
  refine List.pairwise_append.mpr ⟨?_, ?_, ?_⟩
  · refine List.pairwise_of_forall_mem_list fun earlier hearlier _ _ _ ↦ ?_
    simpa using (List.mem_filter.mp hearlier).2
  · refine List.pairwise_of_forall_mem_list fun _ _ later hlater heq ↦ ?_
    exact absurd heq (by simpa using (List.mem_filter.mp hlater).2)
  · intro earlier hearlier later hlater heq
    simpa using (List.mem_filter.mp hearlier).2

theorem sortedBy_pair_filter (hless : StrictWeakOrder less) {first second : α}
    (htied : Tied less first second) (elements : List α) :
    SortedBy less (elements.filter fun element ↦ element = first ∨ element = second) := by
  have hself : ∀ element, less element element = false := fun element ↦ by
    cases h : less element element with
    | false => rfl
    | true => exact h.symm.trans (hless.asymm element element h)
  refine List.pairwise_of_forall_mem_list fun earlier hearlier later hlater ↦ ?_
  have hone : earlier = first ∨ earlier = second := by
    simpa using (List.mem_filter.mp hearlier).2
  have htwo : later = first ∨ later = second := by
    simpa using (List.mem_filter.mp hlater).2
  rcases hone with rfl | rfl <;> rcases htwo with rfl | rfl
  · exact hself _
  · exact htied.2
  · exact htied.1
  · exact hself _

/-- The stable sort of the input with one element in front has no tied element before it. -/
theorem not_before_movedToFront (hless : StrictWeakOrder less) {element other : α}
    (hne : element ≠ other) (htied : Tied less element other) (elements : List α) :
    ¬ [other, element].Sublist (stableSort less (movedToFront element elements)) := by
  intro hsub
  have hfiltered := hsub.filter fun candidate ↦ candidate = element ∨ candidate = other
  rw [filter_stableSort (sortedBy_pair_filter hless htied _)] at hfiltered
  have hpair : [other, element].Sublist (movedToFront element elements) := by
    simpa using hfiltered.trans List.filter_sublist
  have horder := (pairwise_movedToFront element elements).sublist hpair
  simp only [List.pairwise_cons, List.mem_singleton, forall_eq, forall_const] at horder
  exact hne horder.1.symm

/-- The stable sort of the input with one element in front has it before every tied element. -/
theorem before_movedToFront {element other : α} (hne : element ≠ other)
    (htied : Tied less element other) {elements : List α} (helement : element ∈ elements)
    (hother : other ∈ elements) :
    [element, other].Sublist (stableSort less (movedToFront element elements)) := by
  refine sublist_stableSort (List.pairwise_pair.mpr htied.2) ?_
  change ([element] ++ [other]).Sublist (movedToFront element elements)
  apply List.Sublist.append
  · exact List.singleton_sublist.mpr (List.mem_filter.mpr ⟨helement, by simp⟩)
  · exact List.singleton_sublist.mpr (List.mem_filter.mpr ⟨hother, by simpa using hne.symm⟩)

/-! ### When the merge removes every duplicate -/

/-- No element that occurs more than once ties with a different one. -/
def NoTiedRepeat (less : α → α → Bool) (elements : List α) : Prop :=
  ∀ element ∈ elements, ∀ other ∈ elements, element ≠ other → Tied less element other →
    elements.count element = 1

/-- Whatever the sort returns, the merge leaves no duplicate, if and only if no element that occurs
more than once ties with a different one. -/
theorem forall_nodup_iff (hless : StrictWeakOrder less) (elements : List α) :
    (∀ algorithm : SortAlgorithm less,
      ((algorithm.sort elements).destutter (· ≠ ·)).Nodup) ↔ NoTiedRepeat less elements := by
  constructor
  · intro hall element helement other hother hne htied
    by_contra hcount
    have htwice : 2 ≤ elements.count element := by
      have := List.count_pos_iff.mpr helement
      omega
    have hsubperm : [element, other, element].Subperm elements := by
      refine List.subperm_iff_count.mpr fun candidate ↦ ?_
      have hone := List.count_pos_iff.mpr hother
      by_cases hfirst : candidate = element
      · subst hfirst
        simpa [List.count_cons, hne.symm] using htwice
      · by_cases hsecond : candidate = other
        · subst hsecond
          simpa [List.count_cons, hne] using hone
        · simp [Ne.symm hfirst, Ne.symm hsecond]
    obtain ⟨rearranged, hperm, hsub⟩ := List.subperm_iff.mp hsubperm
    let rearrange := Function.update id elements rearranged
    have hrearrange : ∀ input, (rearrange input).Perm input := fun input ↦ by
      by_cases hinput : input = elements
      · subst hinput
        simpa [rearrange] using hperm
      · simp [rearrange, Function.update_of_ne hinput]
    have hnodup := hall (rearrangedSort hless rearrange hrearrange)
    refine (nodup_destutter_iff _).mp hnodup element other hne ?_
    have hsame : rearrange elements = rearranged := Function.update_self elements rearranged id
    change [element, other, element].Sublist (stableSort less (rearrange elements))
    rw [hsame]
    refine sublist_stableSort ?_ hsub
    have hself := (sortedBy_pair_filter hless htied [element, element])
    simp only [decide_true, true_or, List.filter_cons_of_pos, List.filter_nil] at hself
    simp only [SortedBy, List.pairwise_cons, List.mem_cons, List.not_mem_nil, or_false,
      forall_eq_or_imp, forall_eq] at hself ⊢
    exact ⟨⟨htied.2, hself.1⟩, htied.1, fun _ h ↦ h.elim, List.Pairwise.nil⟩
  · intro hnone algorithm
    refine (nodup_destutter_iff _).mpr fun element other hne hsub ↦ ?_
    have htied := tied_of_between (algorithm.sorted elements) hsub
    have hperm := algorithm.perm elements
    have helement : element ∈ elements := hperm.subset (hsub.subset (by simp))
    have hother : other ∈ elements := hperm.subset (hsub.subset (by simp))
    have hone := hnone element helement other hother hne htied
    have htwo : [element, other, element].count element ≤ elements.count element := by
      rw [← hperm.count_eq]
      exact hsub.count_le element
    rw [hone] at htwo
    simp [List.count_cons] at htwo

/-! ### When the merge computes a canonical form -/

/-- No two different elements tie. -/
def NoTies (less : α → α → Bool) (elements : List α) : Prop :=
  ∀ first ∈ elements, ∀ second ∈ elements, Tied less first second → first = second

/-- Whatever the sort returns, two rearrangements have the same merged form, if and only if they are
the same list or no two different elements tie. -/
theorem forall_canonical_iff (hless : StrictWeakOrder less) {left right : List α}
    (hperm : left.Perm right) :
    (∀ algorithm : SortAlgorithm less, (algorithm.sort left).destutter (· ≠ ·) =
      (algorithm.sort right).destutter (· ≠ ·)) ↔ left = right ∨ NoTies less left := by
  constructor
  · intro hall
    by_contra hneither
    obtain ⟨hlists, hties⟩ := not_or.mp hneither
    simp only [NoTies, not_forall] at hties
    obtain ⟨first, hfirst, second, hsecond, htied, hne⟩ := hties
    -- One input is sorted with the first element in front, the other one with the second.
    let rearrange : List α → List α := fun input ↦
      movedToFront (if input = left then first else second) input
    have hrearrange : ∀ input, (rearrange input).Perm input := fun input ↦
      movedToFront_perm _ input
    have hsame := hall (rearrangedSort hless rearrange hrearrange)
    have hleft : rearrange left = movedToFront first left := by simp [rearrange]
    have hright : rearrange right = movedToFront second right := by
      simp [rearrange, Ne.symm hlists]
    change (stableSort less (rearrange left)).destutter (· ≠ ·) =
      (stableSort less (rearrange right)).destutter (· ≠ ·) at hsame
    rw [hleft, hright] at hsame
    have hbefore := before_movedToFront (Ne.symm hne) htied.symm (hperm.subset hsecond)
      (hperm.subset hfirst)
    have hkept := sublist_destutter (by simpa using Ne.symm hne) hbefore
    rw [← hsame] at hkept
    exact not_before_movedToFront hless hne htied left
      (hkept.trans (List.destutter_sublist _ _))
  · rintro (rfl | hties) algorithm
    · rfl
    · have hsorted : algorithm.sort left = algorithm.sort right := by
        refine List.Perm.eq_of_pairwise ?_ (algorithm.sorted left) (algorithm.sorted right)
          (((algorithm.perm left).trans hperm).trans (algorithm.perm right).symm)
        intro first second hfirst hsecond hle hge
        refine hties first ((algorithm.perm left).subset hfirst) second ?_ ⟨hge, hle⟩
        exact hperm.symm.subset ((algorithm.perm right).subset hsecond)
      rw [hsorted]

end Gzscript.Library.AdjacentDuplicates
