import Mathlib.Data.Finset.Card
import Mathlib.Data.Finset.SDiff

/-!
# Releasing objects that are reference counted

When references to some objects are given up, each of them is freed if nothing refers to it any
more, and the references it held are then given up in turn. `release` does this in rounds, of which
one for every live object is enough. An object that something else keeps is never freed, and neither
is one that refers to itself over others: those are leaked.

Freed are exactly the objects that `Freed` describes, whatever the order (`mem_release_iff`). What
two releases free, one after the other, one of both frees as well (`freed_union_iff`).
-/

set_option autoImplicit false
set_option relaxedAutoImplicit false

namespace Gzscript.Library.ReferenceCounts

variable {α : Type}

/-- An object that falls when the references to the lost objects are given up: it is one of them, or
something that falls refers to it, and nothing else keeps it or refers to it. -/
inductive Freed (keeps : α → Bool) (refers : α → α → Bool) (lost live : α → Prop) : α → Prop
  | lost {object : α} : live object → keeps object = false → lost object →
      (∀ owner, live owner → refers owner object = true → Freed keeps refers lost live owner) →
      Freed keeps refers lost live object
  | owned {owner object : α} : live object → keeps object = false →
      Freed keeps refers lost live owner → refers owner object = true →
      (∀ owner, live owner → refers owner object = true → Freed keeps refers lost live owner) →
      Freed keeps refers lost live object

variable {keeps : α → Bool} {refers : α → α → Bool} {lost live : α → Prop}

/-! ### What falls -/

namespace Freed

theorem isLive {object : α} (h : Freed keeps refers lost live object) : live object := by
  cases h with
  | lost hlive => exact hlive
  | owned hlive => exact hlive

theorem not_kept {object : α} (h : Freed keeps refers lost live object) : keeps object = false := by
  cases h with
  | lost _ hkeeps => exact hkeeps
  | owned _ hkeeps => exact hkeeps

/-- What to show of an object all of whose owners fall. -/
theorem of_owners {object : α} (hlive : live object) (hkeeps : keeps object = false)
    (hreason : lost object ∨
      ∃ owner, Freed keeps refers lost live owner ∧ refers owner object = true)
    (howners : ∀ owner, live owner → refers owner object = true →
      Freed keeps refers lost live owner) : Freed keeps refers lost live object := by
  obtain hlost | ⟨owner, howner, hrefers⟩ := hreason
  · exact .lost hlive hkeeps hlost howners
  · exact .owned hlive hkeeps howner hrefers howners

/-- Nothing falls when every lost object is kept. -/
theorem not_of_kept (hkept : ∀ object, lost object → keeps object = true) (object : α) :
    ¬ Freed keeps refers lost live object := by
  intro h
  induction h with
  | lost _ hkeeps hlost =>
    rw [hkept _ hlost] at hkeeps
    cases hkeeps
  | owned _ _ _ _ _ ih => exact ih

end Freed

/-! ### Two releases -/

section Union

variable {keepsNext : α → Bool} {lostNext left : α → Prop}

/-- What falls at the first release falls when all is given up together. -/
theorem Freed.union (hfreed : ∀ object, Freed keeps refers lost live object →
      keepsNext object = false) {object : α} (h : Freed keeps refers lost live object) :
    Freed keepsNext refers (fun object ↦ lost object ∨ lostNext object) live object := by
  induction h with
  | @lost object hlive hkeeps hlost howners ih =>
    exact .lost hlive (hfreed object (.lost hlive hkeeps hlost howners)) (.inl hlost) ih
  | @owned _ object hlive hkeeps howner hrefers howners ihOwner ih =>
    exact .owned hlive (hfreed object (.owned hlive hkeeps howner hrefers howners)) ihOwner
      hrefers ih

/-- So does what falls at the second release: an owner of it has fallen first or falls with it. -/
theorem Freed.union_of_left
    (hleft : ∀ object, left object ↔ live object ∧ ¬ Freed keeps refers lost live object)
    (hfreed : ∀ object, Freed keeps refers lost live object → keepsNext object = false)
    {object : α} (h : Freed keepsNext refers lostNext left object) :
    Freed keepsNext refers (fun object ↦ lost object ∨ lostNext object) live object := by
  have hall {object : α} (ih : ∀ owner, left owner → refers owner object = true →
        Freed keepsNext refers (fun object ↦ lost object ∨ lostNext object) live owner) :
      ∀ owner, live owner → refers owner object = true →
        Freed keepsNext refers (fun object ↦ lost object ∨ lostNext object) live owner := by
    intro owner howner hrefers
    by_cases hfalls : Freed keeps refers lost live owner
    · exact hfalls.union hfreed
    · exact ih owner ((hleft owner).mpr ⟨howner, hfalls⟩) hrefers
  induction h with
  | @lost object hobject hkeeps hlost _ ih =>
    exact .lost ((hleft object).mp hobject).1 hkeeps (.inr hlost) (hall ih)
  | @owned _ object hobject hkeeps _ hrefers _ ihOwner ih =>
    exact .owned ((hleft object).mp hobject).1 hkeeps ihOwner hrefers (hall ih)

/-- Where every owner of an object falls at one of two releases, so does the object: at the second
one if one of its owners falls there, else at the first one, unless it was kept or not lost then. -/
theorem Freed.of_split_owners
    (hleft : ∀ object, left object ↔ live object ∧ ¬ Freed keeps refers lost live object)
    (hgiven : ∀ object, keeps object = true → keepsNext object = false → lostNext object)
    {object : α} (hlive : live object) (hkeeps : keepsNext object = false)
    (howners : ∀ owner, live owner → refers owner object = true →
      Freed keeps refers lost live owner ∨ Freed keepsNext refers lostNext left owner)
    (hreason : lost object ∨ lostNext object ∨ ∃ owner, live owner ∧ refers owner object = true) :
    Freed keeps refers lost live object ∨ Freed keepsNext refers lostNext left object := by
  by_cases hnot : Freed keeps refers lost live object
  · exact .inl hnot
  have hsecond (hreason : lostNext object ∨
      ∃ owner, Freed keepsNext refers lostNext left owner ∧ refers owner object = true) :
      Freed keepsNext refers lostNext left object := by
    refine .of_owners ((hleft object).mpr ⟨hlive, hnot⟩) hkeeps hreason
      fun owner howner hrefers ↦ ?_
    obtain ⟨hownerLive, hownerLeft⟩ := (hleft owner).mp howner
    exact (howners owner hownerLive hrefers).resolve_left hownerLeft
  refine .inr (hsecond ?_)
  by_cases hnext : ∃ owner, Freed keepsNext refers lostNext left owner ∧ refers owner object = true
  · exact .inr hnext
  have hfirst : ∀ owner, live owner → refers owner object = true →
      Freed keeps refers lost live owner := fun owner howner hrefers ↦
    (howners owner howner hrefers).resolve_right fun hfalls ↦ hnext ⟨owner, hfalls, hrefers⟩
  refine .inl ?_
  cases hkept : keeps object with
  | true => exact hgiven object hkept hkeeps
  | false =>
    obtain hlost | hlost | ⟨owner, howner, hrefers⟩ := hreason
    · exact absurd (.lost hlive hkept hlost hfirst) hnot
    · exact hlost
    · exact absurd (.owned hlive hkept (hfirst owner howner hrefers) hrefers hfirst) hnot

/-- Two releases, one after the other: `left` are the live objects between them. An object that is
kept at the first one and no more at the second is lost there. -/
theorem freed_union_iff
    (hleft : ∀ object, left object ↔ live object ∧ ¬ Freed keeps refers lost live object)
    (hfreed : ∀ object, Freed keeps refers lost live object → keepsNext object = false)
    (hgiven : ∀ object, keeps object = true → keepsNext object = false → lostNext object)
    (object : α) :
    Freed keepsNext refers (fun object ↦ lost object ∨ lostNext object) live object ↔
      Freed keeps refers lost live object ∨ Freed keepsNext refers lostNext left object := by
  constructor
  · intro h
    induction h with
    | lost hlive hkeeps hlost _ ih =>
      exact Freed.of_split_owners hleft hgiven hlive hkeeps ih (hlost.imp_right .inl)
    | owned hlive hkeeps howner hrefers _ _ ih =>
      exact Freed.of_split_owners hleft hgiven hlive hkeeps ih
        (.inr (.inr ⟨_, howner.isLive, hrefers⟩))
  · rintro (h | h)
    · exact h.union hfreed
    · exact h.union_of_left hleft hfreed

end Union

/-! ### Rounds -/

section Rounds

variable [DecidableEq α]

/-- The lost objects that nothing keeps or refers to. -/
def unreferenced (keeps : α → Bool) (refers : α → α → Bool) (lost live : Finset α) : Finset α :=
  live.filter fun object ↦ object ∈ lost ∧ keeps object = false ∧
    ∀ owner ∈ live, refers owner object = false

/-- The live objects after a number of rounds, each of which frees the lost objects that nothing
keeps, and loses what they referred to. -/
def releaseRounds (keeps : α → Bool) (refers : α → α → Bool) :
    ℕ → Finset α → Finset α → Finset α
  | 0, _, live => live
  | rounds + 1, lost, live =>
    let freed := unreferenced keeps refers lost live
    releaseRounds keeps refers rounds
      (live.filter fun object ↦ ∃ owner ∈ freed, refers owner object = true) (live \ freed)

/-- The live objects after the references to some are given up. -/
def release (keeps : α → Bool) (refers : α → α → Bool) (lost live : Finset α) : Finset α :=
  releaseRounds keeps refers live.card lost live

theorem mem_unreferenced {lost live : Finset α} {object : α} :
    object ∈ unreferenced keeps refers lost live ↔
      object ∈ live ∧ object ∈ lost ∧ keeps object = false ∧
        ∀ owner ∈ live, refers owner object = false := by
  rw [unreferenced, Finset.mem_filter]

/-- A lost object that nothing refers to falls. -/
theorem freed_of_mem_unreferenced {lost live : Finset α} {object : α}
    (h : object ∈ unreferenced keeps refers lost live) :
    Freed keeps refers (· ∈ lost) (· ∈ live) object := by
  obtain ⟨hlive, hlost, hkeeps, hnone⟩ := mem_unreferenced.mp h
  refine .lost hlive hkeeps hlost fun owner howner hrefers ↦ ?_
  rw [hnone owner howner] at hrefers
  cases hrefers

/-- Nothing falls if every lost object is referred to. -/
theorem not_freed_of_unreferenced_eq_empty {lost live : Finset α}
    (hnone : unreferenced keeps refers lost live = ∅) (object : α) :
    ¬ Freed keeps refers (· ∈ lost) (· ∈ live) object := by
  intro h
  induction h with
  | @lost object hlive hkeeps hlost howners ih =>
    have hmem : object ∈ unreferenced keeps refers lost live := by
      refine mem_unreferenced.mpr ⟨hlive, hlost, hkeeps, fun owner howner ↦ ?_⟩
      cases hrefers : refers owner object with
      | false => rfl
      | true => exact (ih owner howner hrefers).elim
    rw [hnone] at hmem
    exact absurd hmem (Finset.notMem_empty object)
  | owned _ _ _ _ _ ih => exact ih

/-- What falls after a round falls at once: its owners are freed in the round or fall with it. -/
theorem freed_of_next {lost live : Finset α} {object : α}
    (h : Freed keeps refers
      (· ∈ live.filter fun object ↦
        ∃ owner ∈ unreferenced keeps refers lost live, refers owner object = true)
      (· ∈ live \ unreferenced keeps refers lost live) object) :
    Freed keeps refers (· ∈ lost) (· ∈ live) object := by
  have hall {object : α} (ih : ∀ owner ∈ live \ unreferenced keeps refers lost live,
        refers owner object = true → Freed keeps refers (· ∈ lost) (· ∈ live) owner) :
      ∀ owner ∈ live, refers owner object = true →
        Freed keeps refers (· ∈ lost) (· ∈ live) owner := by
    intro owner howner hrefers
    by_cases hnow : owner ∈ unreferenced keeps refers lost live
    · exact freed_of_mem_unreferenced hnow
    · exact ih owner (Finset.mem_sdiff.mpr ⟨howner, hnow⟩) hrefers
  induction h with
  | lost hobject hkeeps hlost _ ih =>
    obtain ⟨hlive, owner, hfreed, hrefers⟩ := Finset.mem_filter.mp hlost
    exact .owned hlive hkeeps (freed_of_mem_unreferenced hfreed) hrefers (hall ih)
  | owned hobject hkeeps _ hrefers _ ihOwner ih =>
    exact .owned (Finset.mem_sdiff.mp hobject).1 hkeeps ihOwner hrefers (hall ih)

/-- An object all of whose owners are freed in a round or fall after it does so too, if there is
one. -/
theorem next_of_owners {lost live : Finset α} {object owner : α} (hlive : object ∈ live)
    (hkeeps : keeps object = false) (howner : owner ∈ live) (hrefers : refers owner object = true)
    (howners : ∀ owner ∈ live, refers owner object = true →
      owner ∈ unreferenced keeps refers lost live ∨
        Freed keeps refers
          (· ∈ live.filter fun object ↦
            ∃ owner ∈ unreferenced keeps refers lost live, refers owner object = true)
          (· ∈ live \ unreferenced keeps refers lost live) owner) :
    object ∈ unreferenced keeps refers lost live ∨
      Freed keeps refers
        (· ∈ live.filter fun object ↦
          ∃ owner ∈ unreferenced keeps refers lost live, refers owner object = true)
        (· ∈ live \ unreferenced keeps refers lost live) object := by
  by_cases hnow : object ∈ unreferenced keeps refers lost live
  · exact .inl hnow
  refine .inr (.of_owners (Finset.mem_sdiff.mpr ⟨hlive, hnow⟩) hkeeps ?_ ?_)
  · exact (howners owner howner hrefers).imp
      (fun hfreed ↦ Finset.mem_filter.mpr ⟨hlive, owner, hfreed, hrefers⟩)
      (fun hfreed ↦ ⟨owner, hfreed, hrefers⟩)
  · intro other hother hotherRefers
    obtain ⟨hotherLive, hotherLeft⟩ := Finset.mem_sdiff.mp hother
    exact (howners other hotherLive hotherRefers).resolve_left hotherLeft

/-- One round, and what falls when the objects it loses are given up. -/
theorem freed_round_iff (lost live : Finset α) (object : α) :
    Freed keeps refers (· ∈ lost) (· ∈ live) object ↔
      object ∈ unreferenced keeps refers lost live ∨
        Freed keeps refers
          (· ∈ live.filter fun object ↦
            ∃ owner ∈ unreferenced keeps refers lost live, refers owner object = true)
          (· ∈ live \ unreferenced keeps refers lost live) object := by
  constructor
  · intro h
    induction h with
    | @lost object hlive hkeeps hlost _ ih =>
      by_cases hnone : ∀ owner ∈ live, refers owner object = false
      · exact .inl (mem_unreferenced.mpr ⟨hlive, hlost, hkeeps, hnone⟩)
      · push Not at hnone
        obtain ⟨owner, howner, hrefers⟩ := hnone
        exact next_of_owners hlive hkeeps howner (Bool.not_eq_false _ ▸ hrefers) ih
    | owned hlive hkeeps howner hrefers _ _ ih =>
      exact next_of_owners hlive hkeeps howner.isLive hrefers ih
  · rintro (hnow | h)
    · exact freed_of_mem_unreferenced hnow
    · exact freed_of_next h

/-- As many rounds as there are live objects free everything that falls. -/
theorem mem_releaseRounds_iff {rounds : ℕ} {lost live : Finset α} (hrounds : live.card ≤ rounds)
    (object : α) : object ∈ releaseRounds keeps refers rounds lost live ↔
      object ∈ live ∧ ¬ Freed keeps refers (· ∈ lost) (· ∈ live) object := by
  induction rounds generalizing lost live with
  | zero =>
    obtain rfl : live = ∅ := Finset.card_eq_zero.mp (Nat.le_zero.mp hrounds)
    refine (and_iff_left_of_imp fun hmem ↦ ?_).symm
    exact absurd hmem (Finset.notMem_empty object)
  | succ rounds ih =>
    rw [releaseRounds]
    by_cases hnone : unreferenced keeps refers lost live = ∅
    · have hstill : ∀ rounds, releaseRounds keeps refers rounds ∅ live = live := by
        intro rounds
        induction rounds with
        | zero => rfl
        | succ rounds ih =>
          have hempty : unreferenced keeps refers ∅ live = ∅ := by
            rw [unreferenced, Finset.filter_eq_empty_iff]
            rintro object - ⟨hmem, -⟩
            exact absurd hmem (Finset.notMem_empty object)
          simp only [releaseRounds, hempty, Finset.notMem_empty, false_and, exists_false,
            Finset.filter_false, Finset.sdiff_empty, ih]
      simp only [hnone, Finset.notMem_empty, false_and, exists_false, Finset.filter_false,
        Finset.sdiff_empty, hstill]
      exact (and_iff_left (not_freed_of_unreferenced_eq_empty hnone object)).symm
    · have hsubset : unreferenced keeps refers lost live ⊆ live := Finset.filter_subset ..
      have hpositive := Finset.card_pos.mpr (Finset.nonempty_iff_ne_empty.mpr hnone)
      have hfewer : (live \ unreferenced keeps refers lost live).card ≤ rounds := by
        rw [Finset.card_sdiff_of_subset hsubset]
        omega
      rw [ih hfewer, freed_round_iff lost live, not_or, Finset.mem_sdiff, and_assoc]

/-- Live after a release are the objects that do not fall. -/
theorem mem_release_iff (lost live : Finset α) (object : α) :
    object ∈ release keeps refers lost live ↔
      object ∈ live ∧ ¬ Freed keeps refers (· ∈ lost) (· ∈ live) object :=
  mem_releaseRounds_iff le_rfl object

end Rounds

end Gzscript.Library.ReferenceCounts
