import Mathlib.Logic.Relation

/-!
# Reachability

A relation is closed by adding the ways over one element after the other. Once the ways over all
elements that a step can lead to have been added, related are exactly the elements that reach one
another (`viaAll_iff`), whatever the order of the elements.

Where elements that reach each other are in one group, and those of a group reach each other, the
relation between groups has no cycle (`groups_acyclic`).
-/

set_option autoImplicit false
set_option relaxedAutoImplicit false

namespace Gzscript.Library.Reachability

open Relation

/-! ### Closing a relation -/

section Closing

variable {α : Type} {relation : α → α → Prop}

/-- A relation with the ways over one element. -/
def Via (via : α) (relation : α → α → Prop) (source target : α) : Prop :=
  relation source target ∨ relation source via ∧ relation via target

/-- The ways over each of some elements, added one after the other. -/
def viaAll (elements : List α) (relation : α → α → Prop) : α → α → Prop :=
  elements.foldl (fun current via ↦ Via via current) relation

/-- The ways over an element are in the relation. -/
def ClosedAt (relation : α → α → Prop) (via : α) : Prop :=
  ∀ source target, relation source via → relation via target → relation source target

theorem viaAll_cons (via : α) (elements : List α) (relation : α → α → Prop) :
    viaAll (via :: elements) relation = viaAll elements (Via via relation) :=
  List.foldl_cons ..

theorem closedAt_via (via : α) (relation : α → α → Prop) : ClosedAt (Via via relation) via := by
  rintro source target hsource htarget
  have hto : relation source via := hsource.elim id And.left
  have hfrom : relation via target := htarget.elim id And.right
  exact .inr ⟨hto, hfrom⟩

/-- The ways over an element stay in the relation when those over another one are added. -/
theorem ClosedAt.via {other : α} (h : ClosedAt relation other) (via : α) :
    ClosedAt (Via via relation) other := by
  rintro source target (hsource | ⟨hsource, hother⟩) (htarget | ⟨hfrom, htarget⟩)
  · exact .inl (h source target hsource htarget)
  · exact .inr ⟨h source via hsource hfrom, htarget⟩
  · exact .inr ⟨hsource, h via target hother htarget⟩
  · exact .inr ⟨hsource, htarget⟩

theorem closedAt_viaAll {element : α} (elements : List α)
    (h : ClosedAt relation element ∨ element ∈ elements) :
    ClosedAt (viaAll elements relation) element := by
  induction elements generalizing relation with
  | nil => exact h.resolve_right List.not_mem_nil
  | cons first elements ih =>
    rw [viaAll_cons]
    refine ih ?_
    obtain hclosed | hmem := h
    · exact .inl (hclosed.via first)
    · obtain rfl | hrest := List.mem_cons.mp hmem
      · exact .inl (closedAt_via element relation)
      · exact .inr hrest

theorem viaAll_of_related (elements : List α) {source target : α} (h : relation source target) :
    viaAll elements relation source target := by
  induction elements generalizing relation with
  | nil => exact h
  | cons first elements ih =>
    rw [viaAll_cons]
    exact ih (.inl h)

/-- Adding ways relates only what was reached before. -/
theorem reaches_of_viaAll (elements : List α) {source target : α}
    (h : viaAll elements relation source target) : ReflTransGen relation source target := by
  induction elements generalizing relation source target with
  | nil => exact .single h
  | cons first elements ih =>
    rw [viaAll_cons] at h
    refine reflTransGen_closed (fun start finish hstep ↦ ?_) _ _ (ih h)
    obtain hdirect | ⟨hto, hfrom⟩ := hstep
    · exact .single hdirect
    · exact (ReflTransGen.single hto).tail hfrom

/-- Once the ways over all elements that another one leads to are added, the relation holds where
one element reaches another. -/
theorem viaAll_iff {elements : List α} (hrefl : ∀ element, relation element element)
    (hsteps : ∀ source target, relation source target → source = target ∨ target ∈ elements)
    (source target : α) :
    viaAll elements relation source target ↔ ReflTransGen relation source target := by
  constructor
  · exact reaches_of_viaAll elements
  · intro h
    induction h using ReflTransGen.head_induction_on with
    | refl => exact viaAll_of_related elements (hrefl target)
    | @head source next hstep _ ih =>
      obtain rfl | hmem := hsteps source next hstep
      · exact ih
      · exact closedAt_viaAll elements (.inr hmem) source target
          (viaAll_of_related elements hstep) ih

end Closing

/-! ### Groups -/

section Groups

variable {ι α : Type} {relation : α → α → Prop} {group : ι → α → Prop}

/-- Two elements reach each other. -/
def Mutual (relation : α → α → Prop) (first second : α) : Prop :=
  ReflTransGen relation first second ∧ ReflTransGen relation second first

/-- An element of one group is related to one of another. -/
def GroupRelated (relation : α → α → Prop) (group : ι → α → Prop) (first second : ι) : Prop :=
  first ≠ second ∧
    ∃ source target, group first source ∧ group second target ∧ relation source target

/-- What is in a group reaches what is in a group that is related to it. -/
theorem reaches_of_groups (hgroup : ∀ index first second, group index first →
      group index second → ReflTransGen relation first second)
    {first second : ι} (h : ReflTransGen (GroupRelated relation group) first second)
    {source target : α} (hsource : group first source) (htarget : group second target) :
    ReflTransGen relation source target := by
  induction h generalizing target with
  | refl => exact hgroup first source target hsource htarget
  | @tail middle last _ hstep ih =>
    obtain ⟨-, before, after, hbefore, hafter, hrelated⟩ := hstep
    have hto : ReflTransGen relation source after := (ih hbefore).tail hrelated
    exact hto.trans (hgroup last after target hafter htarget)

/-- The relation between groups has no cycle. -/
theorem groups_acyclic (hgroup : ∀ index first second, group index first →
      group index second → ReflTransGen relation first second)
    (hsame : ∀ index other first second, group index first → group other second →
      Mutual relation first second → index = other) (index : ι) :
    ¬ TransGen (GroupRelated relation group) index index := by
  intro hcycle
  obtain ⟨next, ⟨hne, source, target, hsource, htarget, hrelated⟩, hback⟩ :=
    TransGen.head'_iff.mp hcycle
  have hreturn : ReflTransGen relation target source :=
    reaches_of_groups hgroup hback htarget hsource
  exact hne (hsame index next source target hsource htarget ⟨.single hrelated, hreturn⟩)

end Groups

end Gzscript.Library.Reachability
